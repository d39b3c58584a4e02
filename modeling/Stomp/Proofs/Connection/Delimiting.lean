import Stomp.Proofs.Connection.Sending
import Stomp.Proofs.Frame.Succession

/-!
# What is sent can be told apart

A broker sees the bytes of many actions one after another. Each action that succeeds sends all of
its bytes and leaves the stream open, with nothing waiting (`delivered_operation`), so what was
sent is the bytes of the actions in a row (`sent_history`). These are frames and heartbeats, and
where the frames have plain header lines and the lengths of binary bodies are announced, they are
read back as they were built, in order (`readEach_sent`): no byte of a body is taken for the end of
a frame.
-/

namespace Stomp

open Network (Entry)
open Operation (after deed history on_bind_eq_ok on_ofExcept_eq_ok)

/-- The bytes that were sent on a socket, one after another. -/
def Network.sent (socket : Nat) (acts : List Entry) : Bytes :=
  acts.flatMap fun e =>
    match e.act with
    | .send bytes => if e.socket = some socket then bytes else []
    | _ => []

namespace Stream

/-- The bytes were sent, and the stream can send more. -/
structure Delivered (s : Stream) (data : Bytes) (env : Environment) (s' : Stream)
    (env' : Environment) : Prop where
  unsent : s'.unsent = []
  number : s'.socket.number = s.socket.number
  acts : ∃ new, env'.acts = env.acts ++ new ∧ Network.sent s.socket.number new = data

theorem write_eq_ok {bytes : Bytes} {s s' : Stream} {env env' : Environment}
    (h : (write bytes).on s env = (.ok (), s', env')) :
    s' = { s with unsent := s.unsent ++ bytes } ∧ env' = env :=
  (write_eq_ok_iff.mp h).2

/-- Flushing that succeeds has sent all that waited. -/
theorem delivered_flush {s s' : Stream} {env env' : Environment}
    (h : flush.on s env = (.ok (), s', env')) : s.Delivered s.unsent env s' env' := by
  rw [on_flush] at h
  split at h
  · cases h
  · split at h
    · rename_i hempty
      cases h
      -- there was nothing to send
      exact ⟨hempty, rfl, [], (List.append_nil _).symm, hempty.symm⟩
    · cases hfault : s.socket.peer.send.1 with
      | some reason =>
        rw [hfault] at h
        cases h
      | none =>
        rw [hfault] at h
        cases h
        -- the one act is the sending of all that waited
        refine ⟨rfl, rfl, _, rfl, ?_⟩
        simp [Network.sent, sendAct, hfault]

end Stream

namespace Connection

/-- Writing all of a text and bytes after it, and sending them. -/
theorem delivered_output {text : Text} {bytes : Bytes} {s s' : Stream} {env env' : Environment}
    (hclean : s.Clean) (h : (output text bytes).on s env = (.ok (), s', env')) :
    ∃ head, text.encode = .ok head ∧ s.Delivered (head ++ bytes) env s' env' := by
  obtain ⟨head, s₀, env₀, hhead, h⟩ := on_bind_eq_ok.mp h
  obtain ⟨_, s₁, env₁, hfirst, h⟩ := on_bind_eq_ok.mp h
  obtain ⟨_, s₂, env₂, hsecond, hflush⟩ := on_bind_eq_ok.mp h
  -- each part succeeded: encoding, the two writes, and flushing
  obtain ⟨hencode, rfl, rfl⟩ := on_ofExcept_eq_ok.mp hhead
  obtain ⟨rfl, rfl⟩ := Stream.write_eq_ok hfirst
  obtain ⟨rfl, rfl⟩ := Stream.write_eq_ok hsecond
  obtain ⟨hunsent, hnumber, hacts⟩ := Stream.delivered_flush hflush
  refine ⟨head, hencode, hunsent, hnumber, ?_⟩
  rwa [hclean, List.nil_append] at hacts

section Delivered

variable {c c' : Connection} {s : Stream} {env env' : Environment}

theorem delivered_sendText {text : Text} {bytes : Bytes} (hstream : c.stream = some s)
    (hclean : s.Clean) (h : (sendText text bytes).on c env = (.ok (), c', env')) :
    ∃ head, text.encode = .ok head ∧
      ∃ s', c'.stream = some s' ∧ s.Delivered (head ++ bytes) env s' env' := by
  obtain ⟨s', hsend, rfl⟩ := on_onStream_eq_ok hstream h
  obtain ⟨head, hencode, hdelivered⟩ := delivered_output hclean hsend
  exact ⟨head, hencode, s', rfl, hdelivered⟩

theorem delivered_keepAlive (hstream : c.stream = some s) (hclean : s.Clean)
    (h : keepAlive.on c env = (.ok (), c', env')) :
    ∃ s', c'.stream = some s' ∧ s.Delivered [Octet.lineFeed] env s' env' := by
  obtain ⟨s', hsend, rfl⟩ := on_onStream_eq_ok hstream h
  obtain ⟨_, s₁, env₁, hwrite, hflush⟩ := on_bind_eq_ok.mp hsend
  obtain ⟨rfl, rfl⟩ := Stream.write_eq_ok hwrite
  obtain ⟨hunsent, hnumber, hacts⟩ := Stream.delivered_flush hflush
  refine ⟨s', rfl, hunsent, hnumber, ?_⟩
  rwa [hclean, List.nil_append] at hacts

theorem delivered_sendFrame {f : Frame} (hstream : c.stream = some s) (hclean : s.Clean)
    (h : (sendFrame f).on c env = (.ok (), c', env')) :
    ∃ data, f.toBytes = .ok data ∧
      ∃ s', c'.stream = some s' ∧ s.Delivered data env s' env' := by
  obtain ⟨_, c₀, env₀, hnotify, h⟩ := on_bind_eq_ok.mp h
  obtain ⟨text, c₁, env₁, htext, h⟩ := on_bind_eq_ok.mp h
  rw [Operation.on_notify] at hnotify
  cases hnotify
  obtain ⟨htoText, rfl, rfl⟩ := on_ofExcept_eq_ok.mp htext
  obtain ⟨head, hencode, s', hs', hdelivered⟩ := delivered_sendText hstream hclean h
  -- what is sent as text is the written form of the frame
  have hwire := Frame.toOption_encode_toText htoText
  rw [hencode] at hwire
  rw [List.append_nil] at hdelivered
  exact ⟨head, toOption_eq_some_iff.mp hwire.symm, s', hs',
    hdelivered.unsent, hdelivered.number, hdelivered.acts⟩

theorem delivered_sendBytes {destination : Text} {bytes : Bytes} {transaction : Option Text}
    {headers : Headers} (hstream : c.stream = some s) (hclean : s.Clean)
    (h : (sendBytes destination bytes transaction headers).on c env = (.ok (), c', env')) :
    ∃ f data, (Request.send destination (.bytes bytes) transaction headers).frame = .ok f ∧
      f.withBodyLength.toBytes = .ok data ∧
      ∃ s', c'.stream = some s' ∧ s.Delivered data env s' env' := by
  obtain ⟨f, c₀, env₀, hframe, h⟩ := on_bind_eq_ok.mp h
  obtain ⟨_, c₁, env₁, hnotify, h⟩ := on_bind_eq_ok.mp h
  obtain ⟨hbuilt, rfl, rfl⟩ := on_ofExcept_eq_ok.mp hframe
  rw [Operation.on_notify] at hnotify
  cases hnotify
  obtain ⟨head, hencode, s', hs', hdelivered⟩ := delivered_sendText hstream hclean h
  refine ⟨f, _, hbuilt, ?_, s', hs', hdelivered.unsent, hdelivered.number, hdelivered.acts⟩
  rw [Frame.toBytes, hencode]
  simp [Except.map]

end Delivered

/-! ### Actions that only send -/

/-- An action that sends a frame or a heartbeat and waits for no answer. -/
def Action.onlySends : Action → Bool
  | request r => !r.enters
  | sendBytes .. | keepAlive => true
  | _ => false

/-- The frame that an action sends. -/
def Action.frame? : Action → Option Frame
  | request r => r.frame.toOption
  | sendBytes destination data transaction headers =>
    (Request.send destination (.bytes data) transaction headers).frame.toOption.map
      Frame.withBodyLength
  | _ => none

/-- The frame of an action has plain header lines, and unless its body is announced as binary there
is no NUL in it and no length with it. -/
def Action.Plain : Action → Prop
  | request r => ∀ f, r.frame = .ok f →
    f.Plain ∧ Octet.nul ∉ f.body ∧ f.headers.get? Headers.Name.contentLength = none
  | sendBytes destination data transaction headers => ∀ f,
    (Request.send destination (.bytes data) transaction headers).frame = .ok f →
      f.withBodyLength.Plain
  | _ => True

theorem sendFrame_eq_ok_of_request {r : Request} (hr : r.enters = false) {c c' : Connection}
    {env env' : Environment} (h : (request r).on c env = (.ok (), c', env')) :
    ∃ f c'', r.frame = .ok f ∧ (sendFrame f).on c env = (.ok (), c'', env') ∧
      c'.stream = c''.stream := by
  cases hframe : r.frame with
  | error e =>
    rw [on_request_of_error hframe] at h
    cases h
  | ok f =>
    cases hleaves : r.leaves with
    | true =>
      -- a farewell changes the connection afterwards, but not its stream
      rw [on_request_of_leaves hleaves hframe] at h
      rcases hsend : (sendFrame f).on c env with ⟨e | ⟨⟩, c'', env''⟩
      · rw [hsend] at h
        cases h
      · rw [hsend] at h
        cases h
        exact ⟨f, c'', rfl, hsend, rfl⟩
    | false =>
      rw [on_request_of_plain hr hleaves hframe] at h
      exact ⟨f, c', rfl, h, rfl⟩

/-- **What an action sends** if it succeeds is a frame or a heartbeat, and another can follow. -/
theorem delivered_operation {action : Action} (honly : action.onlySends) (hplain : action.Plain)
    {c : Connection} {s : Stream} (hstream : c.stream = some s) (hclean : s.Clean)
    {env : Environment} (h : (deed Action.operation action c env).succeeded) :
    ∃ data s', (action.operation.on c env).2.1.stream = some s' ∧
      s.Delivered data env s' (action.operation.on c env).2.2 ∧
      Frame.Segment .v10 action.frame? data := by
  -- an action that succeeded is an operation that succeeded
  have hdone : ∀ {op : Operation Connection Unit}, action.operation = asDone op →
      op.on c env = (.ok (), (action.operation.on c env).2) := by
    intro op hop
    rw [Deed.succeeded, deed, hop, on_asDone] at h
    rw [hop, on_asDone]
    generalize op.on c env = done at h ⊢
    obtain ⟨e | ⟨⟩, left⟩ := done
    · cases h
    · rfl
  have hdialect : Version.dialect ⟨[1, 0]⟩ = .v10 := by decide
  cases action with
  | request r =>
    have hr : r.enters = false := by simpa [Action.onlySends] using honly
    obtain ⟨f, c'', hframe, hsend, hsame⟩ := sendFrame_eq_ok_of_request hr (hdone rfl)
    obtain ⟨data, hbytes, s', hs', hdelivered⟩ := delivered_sendFrame hstream hclean hsend
    obtain ⟨hlines, hnul, hlength⟩ := hplain f hframe
    obtain ⟨hcommand, -, -⟩ := Request.frame_eq_ok hframe
    -- no length is announced and no NUL is in the body, so the first NUL ends it
    have hdelimits := Frame.delimits_of_nul_not_mem hlength hnul
    have hsegment := Frame.Segment.of_toBytes (hlines.sendable hcommand hdelimits)
      hlines.body_length_le hbytes
    rw [hdialect] at hsegment
    refine ⟨data, s', hsame.trans hs', hdelivered, ?_⟩
    rwa [Action.frame?, hframe]
  | sendBytes destination bytes transaction headers =>
    obtain ⟨f, data, hframe, hbytes, s', hs', hdelivered⟩ :=
      delivered_sendBytes hstream hclean (hdone rfl)
    have hlines := hplain f hframe
    obtain ⟨hcommand, -, -⟩ := Request.frame_eq_ok hframe
    -- the length is announced, so it ends the body whatever is in it
    have hdelimits := Frame.delimits_withBodyLength (f := f) hlines.body_length_le
    have hsegment := Frame.Segment.of_toBytes (hlines.sendable hcommand hdelimits)
      hlines.body_length_le hbytes
    rw [hdialect] at hsegment
    refine ⟨data, s', hs', hdelivered, ?_⟩
    rwa [Action.frame?, hframe]
  | keepAlive =>
    obtain ⟨s', hs', hdelivered⟩ := delivered_keepAlive hstream hclean (hdone rfl)
    exact ⟨_, s', hs', hdelivered, .heartbeat⟩
  | _ => cases honly

/-- **What was sent is the frames and heartbeats in a row.** -/
theorem sent_history {actions : List Action} (honly : ∀ action ∈ actions, action.onlySends)
    (hplain : ∀ action ∈ actions, action.Plain) {c : Connection} {s : Stream}
    (hstream : c.stream = some s) (hclean : s.Clean) {env : Environment}
    (hsucceeded : ∀ d ∈ history Action.operation actions c env, d.succeeded) :
    ∃ segments : List (Option Frame × Bytes),
      (∀ segment ∈ segments, Frame.Segment .v10 segment.1 segment.2) ∧
      segments.filterMap Prod.fst = actions.filterMap Action.frame? ∧
      segments.flatMap Prod.snd = Network.sent s.socket.number
        ((history Action.operation actions c env).flatMap Deed.acts) := by
  induction actions generalizing c s env with
  | nil => exact ⟨[], by simp, rfl, rfl⟩
  | cons action actions ih =>
    rw [Operation.history_cons] at hsucceeded ⊢
    obtain ⟨data, s', hs', ⟨hunsent, hnumber, new, hnew, hsent⟩, hsegment⟩ :=
      delivered_operation (honly action (List.mem_cons_self ..))
        (hplain action (List.mem_cons_self ..)) hstream hclean
        (hsucceeded _ (List.mem_cons_self ..))
    have hacts : (deed Action.operation action c env).acts = new := by
      rw [deed, hnew, List.drop_left]
    -- the stream is left as it was found: open, with nothing waiting, on the same socket
    obtain ⟨segments, hsegments, hframes, hrest⟩ :=
      ih (fun a ha => honly a (List.mem_cons_of_mem _ ha))
        (fun a ha => hplain a (List.mem_cons_of_mem _ ha)) hs' hunsent
        (fun d hd => hsucceeded d (List.mem_cons_of_mem _ hd))
    refine ⟨(action.frame?, data) :: segments, ?_, ?_, ?_⟩
    · intro segment hmem
      rcases List.mem_cons.mp hmem with rfl | hmem
      · exact hsegment
      · exact hsegments segment hmem
    · rw [List.filterMap_cons, List.filterMap_cons, hframes]
    · rw [List.flatMap_cons, List.flatMap_cons, hacts, hrest, hnumber, Network.sent,
        Network.sent, List.flatMap_append, ← hsent]
      rfl

/-- **What is sent delimits itself.** After any actions that only send, all of which succeed, on
one stream, the bytes that were sent on its socket are read at 1.0 as the frames of the actions, in
order and each as it was built, whatever the binary bodies hold; reading once more finds that the
bytes end before a command. -/
theorem readEach_sent {actions : List Action} (honly : ∀ action ∈ actions, action.onlySends)
    (hplain : ∀ action ∈ actions, action.Plain) {c : Connection} {s : Stream}
    (hstream : c.stream = some s) (hclean : s.unsent = []) {env : Environment}
    (hsucceeded : ∀ d ∈ history Action.operation actions c env, d.succeeded) {cap : Option Nat}
    (hcap : cap ≠ some 0) :
    let frames := actions.filterMap Action.frame?
    let wire := Network.sent s.socket.number
      ((history Action.operation actions c env).flatMap Deed.acts)
    Frame.readEach "1.0" (frames.length + 1) ⟨wire, cap⟩ =
      frames.map .ok ++ [.error (.protocol (.endedInLine .command))] := by
  intro frames wire
  have hversion : Version.parse? "1.0" = some ⟨[1, 0]⟩ := by decide +kernel
  have hdialect : Version.dialect ⟨[1, 0]⟩ = .v10 := by decide
  -- the bytes are cut up again where they were put together
  obtain ⟨segments, hsegments, hframes, hwire⟩ :=
    sent_history honly hplain hstream hclean hsucceeded
  rw [← hdialect] at hsegments
  have hread := Frame.readEach_segments hversion hcap hsegments
  rwa [hframes, hwire] at hread

/-- A binary message with a wrong length among its headers, a heartbeat, and a farewell. -/
def mixed : List Action :=
  [.sendBytes "/q" [0, 10] none (Headers.ofList [("content-length", "7")]), .keepAlive,
    .request (.disconnect none)]

theorem readEach_sent_mixed :
    let c : Connection := { stream := some { socket := ⟨0, {}⟩ } }
    let wire := Network.sent 0 ((history Action.operation mixed c {}).flatMap Deed.acts)
    wire = Utf8.octets "SEND\ncontent-length:2\ndestination:/q\n\n" ++ [0, 10, 0] ++
        [10] ++ Utf8.octets "DISCONNECT\n\n\x00" ∧
      Frame.readEach "1.0" 3 ⟨wire, some 1⟩ =
        [.ok ⟨"SEND", Headers.ofList [("content-length", "2"), ("destination", "/q")], [0, 10]⟩,
          .ok ⟨"DISCONNECT", Headers.empty, []⟩, .error (.protocol (.endedInLine .command))] := by
  intro c wire
  have hplain : ∀ action ∈ mixed, action.Plain := by
    intro action haction
    rcases List.mem_cons.mp haction with rfl | haction
    · intro f hf
      cases hf
      exact ⟨by decide +kernel, by decide +kernel, by decide +kernel, by decide +kernel,
        by decide +kernel⟩
    rcases List.mem_cons.mp haction with rfl | haction
    · trivial
    · obtain rfl := List.mem_singleton.mp haction
      intro f hf
      cases hf
      exact ⟨⟨by decide +kernel, by decide +kernel, by decide +kernel, by decide +kernel,
        by decide +kernel⟩, by decide +kernel, by decide +kernel⟩
  refine ⟨by decide +kernel, ?_⟩
  have hsucceeded : ∀ d ∈ history Action.operation mixed c {}, d.succeeded := by decide +kernel
  have hcap : some 1 ≠ some 0 := by decide
  have hframes : mixed.filterMap Action.frame? =
      [⟨"SEND", Headers.ofList [("content-length", "2"), ("destination", "/q")], [0, 10]⟩,
        ⟨"DISCONNECT", Headers.empty, []⟩] := by decide +kernel
  have hread := readEach_sent (by decide) hplain (c := c) rfl rfl hsucceeded hcap
  rw [hframes] at hread
  exact hread

end Connection

end Stomp
