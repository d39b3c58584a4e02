import Stomp.Proofs.Connection.TextPath
import Stomp.Proofs.Frame.Succession
import Stomp.Proofs.History

/-!
# Receiving each frame in either of two ways

A frame can be received by the decoder, or as a text that is then parsed. The two end in different
places: the decoder stops at the NUL, and the reader of texts takes the line feed after it as well.
What the one leaves the other skips, so that a peer's frames can be received in any mixture of the
two.

* `Frame.EitherWay` — what a frame takes to come back in either way;
* `Call.receive` — receiving a frame by one of the two calls;
* `Turn.receive_step` — one frame: it is received, and at most its line feed is left;
* `receive_either_way` — any number of frames, each received in a way of its own.
-/

namespace Stomp

open Utf8 (octets octets_append)

/-- Line feeds are empty lines. -/
theorem Bytes.unlines_replicate_nil (n : Nat) :
    Bytes.unlines (List.replicate n []) = List.replicate n Octet.lineFeed := by
  induction n with
  | zero => rfl
  | succ n ih =>
    rw [List.replicate_succ, Bytes.unlines_cons, ih]
    rfl

theorem Utf8.octets_replicate_lineFeed (n : Nat) :
    octets (List.replicate n (CodePoint.ofChar '\n')) = List.replicate n Octet.lineFeed := by
  induction n with
  | zero => rfl
  | succ n ih =>
    rw [List.replicate_succ, Utf8.octets_cons, ih]
    rfl

namespace Frame

/-- **A frame that comes back in either way** at 1.0: its command is one of the protocol's, its
header lines are plain, there is no NUL in it, its body is text, and if a length is announced it is
that of the body. -/
structure EitherWay (f : Frame) : Prop where
  command : ∃ c : Command, f.command = c.name
  plain : f.Plain
  headers_nul : ∀ e ∈ f.headers.entries,
    CodePoint.ofChar '\x00' ∉ e.1 ∧ CodePoint.ofChar '\x00' ∉ e.2
  body_nul : Octet.nul ∉ f.body
  body_text : ∃ t, f.body.decode = .ok t
  announced : ∀ value, f.headers.get? Headers.Name.contentLength = some value →
    Text.toInt? (value.trimmed CodePoint.isBlank) = some (f.body.length : Int)

namespace EitherWay

variable {f : Frame}

theorem delimits (h : f.EitherWay) : f.headers.Delimits f.body := by
  rw [Headers.Delimits]
  cases hget : f.headers.get? Headers.Name.contentLength with
  | none => exact h.body_nul
  | some value => exact h.announced value hget

/-- The only NUL of a written frame is its last byte. -/
theorem nul_not_mem (h : f.EitherWay) : Octet.nul ∉ octets f.head ++ f.body := by
  have hmem : ∀ t : Text, Octet.nul ∈ octets t ↔ CodePoint.ofChar '\x00' ∈ t := fun t =>
    Utf8.ofNat_mem_octets_iff (a := CodePoint.ofChar '\x00') (by decide) t
  -- the head is the command, the lines and line feeds between them
  have hlines : CodePoint.ofChar '\x00' ∉
      f.headers.entries.flatMap fun e => headerLine e.1 e.2 := by
    intro hline
    obtain ⟨e, he, hline⟩ := List.mem_flatMap.mp hline
    obtain ⟨hname, hvalue⟩ := h.headers_nul e he
    rw [headerLine_eq, List.mem_append, List.mem_append, List.mem_cons] at hline
    -- the colon and the line feed of a line are no NULs
    rcases hline with (hmem | hmem | hmem) | hmem
    · exact hname hmem
    · exact absurd hmem (by decide)
    · exact hvalue hmem
    · exact absurd hmem (by decide)
  have hcommand : CodePoint.ofChar '\x00' ∉ f.command := by
    obtain ⟨c, hc⟩ := h.command
    rw [hc]
    cases c <;> decide
  have hfeed : CodePoint.ofChar '\x00' ∉ Text.ofString "\n" := by decide
  rw [List.mem_append, hmem, head_eq, List.mem_append, List.mem_append, List.mem_append, not_or,
    not_or, not_or, not_or]
  exact ⟨⟨⟨⟨hcommand, hfeed⟩, hlines⟩, hfeed⟩, h.body_nul⟩

/-- Such a frame is textual. -/
theorem textual (h : f.EitherWay) : f.Textual where
  command_ne := by
    obtain ⟨c, hc⟩ := h.command
    rw [hc]
    cases c <;> decide
  command_lineFeed := by
    obtain ⟨c, hc⟩ := h.command
    rw [hc]
    cases c <;> decide
  headers e he := ⟨(h.plain.names e he).1, (h.plain.names e he).2, h.plain.values e he⟩
  body_text := h.body_text
  unended := Bytes.unended_of_nul_not_mem h.nul_not_mem
  body_last hlast := h.body_nul (List.mem_of_getLast? hlast)

end EitherWay

end Frame

namespace Connection

open Network (DelaysNonneg)
open Operation (deed history history_cons)
open Stomp.Stream (Live)

/-- **Receives a frame** by one of the two calls; a text is parsed. -/
def Call.receive : Call → Option Rat → Operation Connection Frame
  | .frame, timeout => Connection.receive timeout
  | .text, timeout => do
    let text ← Connection.receiveText timeout
    Operation.ofExcept (Frame.parseText text)

/-- A text that is received and parsed is a frame that is received. -/
theorem Call.on_receive_of_text {timeout : Option Rat} {c c' : Connection}
    {env env' : Environment} {t : Text} {f : Frame}
    (h : (Call.text.action timeout).operation.on c env = (.ok (.text t), c', env'))
    (hparse : Frame.parseText t = .ok f) :
    (Call.text.receive timeout).on c env = (.ok f, c', env') := by
  refine Operation.on_bind_eq_ok.mpr ⟨t, c', env', Call.on_receiveText_iff.mp h, ?_⟩
  rw [Operation.on_ofExcept, hparse]

/-- **A turn**: a frame that the peer sends after some line feeds and with a line feed behind it,
and the call that is to receive it. -/
structure Turn where
  blanks : Nat
  frame : Frame
  /-- The frame as it is written. -/
  wire : Bytes
  call : Call
  timeout : Option Rat

namespace Turn

/-- What the peer sends. -/
def bytes (t : Turn) : Bytes :=
  List.replicate t.blanks Octet.lineFeed ++ t.wire ++ [Octet.lineFeed]

/-- **The turns are in time**: what the peer sends in a turn, and the line feed of the turn before,
is not waited for as long as the limit of the call, if it has one. `wait n` is the time that is
waited for the first `n` bytes of all, of which `start` belong to turns that are over. -/
def InTime (wait : Nat → Rat) : Nat → List Turn → Prop
  | _, [] => True
  | start, t :: later =>
    (∀ limit ∈ t.timeout, wait (start + t.bytes.length) - wait (start - 1) < limit) ∧
      InTime wait (start + t.bytes.length) later

/-- The frame comes back in either way, and it is sent as it is written. -/
structure Sound (t : Turn) : Prop where
  frame : t.frame.EitherWay
  wire_eq : t.frame.toBytes = .ok t.wire

/-- The decoder reads the frame up to its NUL, after any number of line feeds. -/
theorem Sound.reads_frame {t : Turn} (h : t.Sound) (n : Nat) :
    Call.frame.Reads "1.0" (List.replicate n Octet.lineFeed ++ t.wire)
      (.ok (.frame t.frame)) := by
  have hversion : Version.parse? "1.0" = some ⟨[1, 0]⟩ := by decide +kernel
  -- the line feeds in front are empty lines, which the decoder skips
  have hblank : ∀ line ∈ List.replicate n ([] : Bytes),
      (Version.dialect ⟨[1, 0]⟩).Blank line := by
    intro line hline
    obtain rfl := List.eq_of_mem_replicate hline
    exact ⟨List.not_mem_nil, Dialect.trimLine_of_getLast?_ne (by simp)⟩
  obtain ⟨c, hc⟩ := h.frame.command
  obtain ⟨hhead, hwire⟩ := Frame.toBytes_eq_ok_iff.mp h.wire_eq
  obtain ⟨l, hl⟩ := (h.frame.plain.sendable hc h.frame.delimits).exists_layout
    h.frame.plain.body_length_le hhead
  rw [Call.reads_frame_iff hversion, ← Bytes.unlines_replicate_nil,
    Frame.Decoder.scan_start_unlines hblank, Frame.Decoder.scan_start_eq_done_ok_iff]
  exact ⟨l, by rw [hwire, hl, List.append_nil]⟩

/-- The reader of texts reads the frame up to the line feed behind it, and the line feeds in front
make no difference to the parser. -/
theorem Sound.reads_text {t : Turn} (h : t.Sound) (n : Nat) :
    ∃ text, Call.text.Reads "1.0"
        (List.replicate n Octet.lineFeed ++ t.wire ++ [Octet.lineFeed]) (.ok (.text text)) ∧
      Frame.parseText text = .ok t.frame := by
  obtain ⟨hhead, hwire⟩ := Frame.toBytes_eq_ok_iff.mp h.wire_eq
  obtain ⟨u, hbody⟩ := h.frame.body_text
  have hnul : Octet.nul ∉
      List.replicate n Octet.lineFeed ++ (octets t.frame.head ++ t.frame.body) := by
    rw [List.mem_append, not_or]
    refine ⟨fun hmem => ?_, h.frame.nul_not_mem⟩
    exact absurd (List.eq_of_mem_replicate hmem) (by decide)
  -- the text is the line feeds, the head and the body
  have hdecode : Bytes.decode (List.replicate n Octet.lineFeed ++
      (octets t.frame.head ++ t.frame.body)) =
        .ok (List.replicate n (CodePoint.ofChar '\n') ++ t.frame.head ++ u) := by
    rw [← Utf8.octets_replicate_lineFeed, ← List.append_assoc, ← octets_append]
    refine (Bytes.decode_octets_append_iff ?_).mpr ⟨u, rfl, hbody⟩
    refine Text.surrogateFree_append.mpr ⟨fun c hc => ?_, hhead⟩
    rw [List.eq_of_mem_replicate hc]
    exact CodePoint.not_isSurrogate_ofChar _
  -- no NUL comes before the last byte, so that one makes a run of odd length
  have hrun : Bytes.nulRun (List.replicate n Octet.lineFeed ++
      (octets t.frame.head ++ t.frame.body)) = 0 :=
    Bytes.nulRun_eq_zero_iff.mpr fun hlast => hnul (List.mem_of_getLast? hlast)
  refine ⟨List.replicate n (CodePoint.ofChar '\n') ++ t.frame.head ++ u, ?_, ?_⟩
  · have hscan := Frame.scan_raw_append (Bytes.unended_of_nul_not_mem hnul)
      (by rw [hrun]; exact Even.zero) []
    rw [hdecode] at hscan
    rw [Call.reads_text_iff, ← hscan, hwire]
    simp
  · have htextual := h.frame.textual
    rw [Frame.parseText_of_decode hdecode, Frame.parse_replicate_append,
      Frame.parse_written_iff hhead]
    exact ⟨htextual.command_ne, htextual.command_lineFeed, htextual.headers, htextual.body_last⟩

/-- **One turn.** The frame is received, whichever call it is, and then the line feed behind it is
all that is left of the turn, or nothing is. -/
theorem receive_step {t : Turn} (h : t.Sound) {c : Connection} {s : Stream}
    (hstream : c.stream = some s) (hlive : Live s) (hkept : c.inputBuffer = #[])
    (hversion : c.version = "1.0") {n : Nat} {rest : Bytes}
    (havailable : s.available = List.replicate n Octet.lineFeed ++ (t.bytes ++ rest))
    (htime : ∀ limit ∈ t.timeout, ∀ k ≤ n + t.bytes.length, s.wait k < limit)
    (env : Environment) :
    ∃ s' env' left, (t.call.receive t.timeout).on c env =
        (.ok t.frame, { c with stream := some s' }, env') ∧ Live s' ∧ left ≤ 1 ∧
      s'.available = List.replicate left Octet.lineFeed ++ rest ∧
      ∀ k, env'.clock + s'.wait k = env.clock + s.wait (n + t.bytes.length - left + k) := by
  -- the line feed that the turn before left is one more blank in front
  have hwhole : s.available = List.replicate (n + t.blanks) Octet.lineFeed ++
      (t.wire ++ (List.replicate 1 Octet.lineFeed ++ rest)) := by
    rw [havailable, bytes, ← List.replicate_append_replicate]
    simp only [List.append_assoc, List.replicate_one]
  have hlength : t.bytes.length = t.blanks + t.wire.length + 1 := by
    rw [bytes, List.length_append, List.length_append, List.length_replicate,
      List.length_singleton]
  cases hcall : t.call with
  | frame =>
    -- the line feed is left
    rw [← List.append_assoc] at hwhole
    obtain ⟨s', env', hon, hlive', hrest, hmoment⟩ :=
      Call.frame.served_of_lt hstream hlive hkept env hwhole
        (by rw [hversion]; exact h.reads_frame (n + t.blanks))
        (fun limit hlimit k hk => htime limit hlimit k (by
          rw [List.length_append, List.length_replicate] at hk
          omega))
    refine ⟨s', env', 1, Call.on_receive_iff.mp hon, hlive', Nat.le_refl 1, hrest, fun k => ?_⟩
    rw [hmoment, List.length_append, List.length_replicate, hlength]
    congr 3
    omega
  | text =>
    -- the line feed is taken
    obtain ⟨text, hreads, hparse⟩ := h.reads_text (n + t.blanks)
    rw [← List.append_assoc, ← List.append_assoc, List.replicate_one] at hwhole
    obtain ⟨s', env', hon, hlive', hrest, hmoment⟩ :=
      Call.text.served_of_lt hstream hlive hkept env hwhole (by rw [hversion]; exact hreads)
        (fun limit hlimit k hk => htime limit hlimit k (by
          rw [List.length_append, List.length_append, List.length_replicate,
            List.length_singleton] at hk
          omega))
    refine ⟨s', env', 0, Call.on_receive_of_text hon hparse, hlive', Nat.zero_le 1, hrest,
      fun k => ?_⟩
    rw [hmoment, List.length_append, List.length_append, List.length_replicate,
      List.length_singleton, hlength]
    congr 3
    omega

end Turn

/-- **Turns in a row**, of which some bytes are over: all but at most the last line feed of these
have been handed over, and `start` is their number. -/
theorem outcomes_of_inTime {wait : Nat → Rat} (hmono : ∀ n m, n ≤ m → wait n ≤ wait m)
    {turns : List Turn} (hsound : ∀ t ∈ turns, t.Sound) {c : Connection} {s : Stream}
    (hstream : c.stream = some s) (hlive : Live s) (hkept : c.inputBuffer = #[])
    (hversion : c.version = "1.0") {start left : Nat} (hleft : left ≤ 1) (hle : left ≤ start)
    {rest : Bytes}
    (havailable : s.available =
      List.replicate left Octet.lineFeed ++ (turns.flatMap Turn.bytes ++ rest))
    {env : Environment} {beginning : Rat}
    (hmoment : ∀ k, env.clock + s.wait k = beginning + wait (start - left + k))
    (htime : Turn.InTime wait start turns) :
    (history (fun t : Turn => t.call.receive t.timeout) turns c env).map Deed.outcome =
      turns.map fun t => .ok t.frame := by
  induction turns generalizing c s start left env with
  | nil => rfl
  | cons t turns ih =>
    -- by the times of the whole stream, the moment is known at which each call begins
    obtain ⟨hlimit, hlater⟩ := htime
    have hnow : env.clock = beginning + wait (start - left) := by
      have := hmoment 0
      rwa [Stream.wait_zero, add_zero, Nat.add_zero] at this
    -- no byte of the turn comes too late for the call
    have hcall : ∀ limit ∈ t.timeout, ∀ k ≤ left + t.bytes.length, s.wait k < limit := by
      intro limit hmem k hk
      have hwait : s.wait k = wait (start - left + k) - wait (start - left) := by
        have := hmoment k
        linarith
      calc s.wait k = wait (start - left + k) - wait (start - left) := hwait
        _ ≤ wait (start + t.bytes.length) - wait (start - 1) :=
          sub_le_sub (hmono _ _ (by omega)) (hmono _ _ (by omega))
        _ < limit := hlimit limit hmem
    rw [List.flatMap_cons, List.append_assoc] at havailable
    obtain ⟨s', env', left', hon, hlive', hleft', havailable', hmoment'⟩ :=
      Turn.receive_step (hsound t (List.mem_cons_self ..)) hstream hlive hkept hversion havailable
        hcall env
    have hle' : left' ≤ start + t.bytes.length := by
      rw [Turn.bytes, List.length_append, List.length_singleton]
      omega
    -- what is left of this turn takes the place of what was left of the one before
    have hstart : ∀ k, env'.clock + s'.wait k =
        beginning + wait (start + t.bytes.length - left' + k) := by
      intro k
      rw [hmoment', hmoment]
      congr 2
      rw [Turn.bytes, List.length_append, List.length_singleton]
      omega
    have hrest := ih (fun t' ht' => hsound t' (List.mem_cons_of_mem _ ht'))
      (c := { c with stream := some s' }) rfl hlive' hkept hversion hleft' hle' havailable' hstart
      hlater
    rw [history_cons, List.map_cons, List.map_cons, deed, hon, hrest]

/-- **The two ways of receiving can be mixed.** Let any number of frames be available, each after
any number of line feeds and with a line feed behind it, in whatever pieces, on an open connection
that speaks 1.0 and has kept nothing of a text. If each frame is one that comes back in either way,
then for every choice of one of the two calls for each frame, every call gives its frame, as long as
what it has to wait for comes within its limit. -/
theorem receive_either_way {turns : List Turn}
    (hsound : ∀ t ∈ turns, t.Sound) {c : Connection} {s : Stream} (hstream : c.stream = some s)
    (hlive : Live s) (hdelays : DelaysNonneg s.socket.peer.events) (hkept : c.inputBuffer = #[])
    (hversion : c.version = "1.0") {rest : Bytes}
    (havailable : s.available = turns.flatMap Turn.bytes ++ rest)
    (htime : Turn.InTime s.wait 0 turns) (env : Environment) :
    (history (fun t : Turn => t.call.receive t.timeout) turns c env).map Deed.outcome =
      turns.map fun t => .ok t.frame := by
  -- no byte comes before one that stands in front of it
  have hmono : ∀ n m, n ≤ m → s.wait n ≤ s.wait m := fun n m hle =>
    Network.waiting_mono hdelays (Nat.sub_le_sub_right hle _)
  have hmoment : ∀ k, env.clock + s.wait k = env.clock + s.wait (0 - 0 + k) := fun k => by
    rw [Nat.sub_zero, Nat.zero_add]
  exact outcomes_of_inTime hmono hsound hstream hlive hkept hversion (Nat.zero_le 1) (Nat.le_refl 0)
    havailable hmoment htime

/-- A message with a header and its length announced. -/
def greeting : Frame where
  command := "MESSAGE"
  headers := Headers.ofList [("message-id", "7"), ("content-length", "2")]
  body := [104, 105]

/-- The message twice: received by the decoder within five seconds, and as a text without a
limit. -/
def greetings : List Turn :=
  [⟨1, greeting, octets "MESSAGE\nmessage-id:7\ncontent-length:2\n\nhi\x00", .frame, some 5⟩,
    ⟨2, greeting, octets "MESSAGE\nmessage-id:7\ncontent-length:2\n\nhi\x00", .text, none⟩]

theorem sound_greetings : ∀ t ∈ greetings, t.Sound := by
  have hframe : greeting.EitherWay :=
    { command := ⟨.message, rfl⟩
      plain := ⟨by decide +kernel, by decide +kernel, by decide +kernel, by decide +kernel,
        by decide +kernel⟩
      headers_nul := by decide +kernel
      body_nul := by decide
      body_text := ⟨"hi", by decide +kernel⟩
      announced := by
        intro value hvalue
        obtain rfl : value = Text.ofString "2" := by
          have : greeting.headers.get? Headers.Name.contentLength = some (Text.ofString "2") := by
            decide +kernel
          exact Option.some.inj (hvalue.symm.trans this)
        decide +kernel }
  have hwire : greeting.toBytes =
      .ok (octets "MESSAGE\nmessage-id:7\ncontent-length:2\n\nhi\x00") := by decide +kernel
  intro t ht
  rcases List.mem_cons.mp ht with rfl | ht
  · exact ⟨hframe, hwire⟩
  · obtain rfl := List.mem_singleton.mp ht
    exact ⟨hframe, hwire⟩

/-- A stream on which they come, the second one much later than the first. -/
def greetingsComing : Stream where
  socket :=
    { number := 0
      peer :=
        { events :=
            [.arrival 4 (.data (greetings.flatMap Turn.bytes |>.drop 20 |>.take 25)),
              .arrival 60 (.data (greetings.flatMap Turn.bytes |>.drop 45))] } }
  unread := greetings.flatMap Turn.bytes |>.take 20

theorem receive_either_way_greetings :
    (history (fun t : Turn => t.call.receive t.timeout) greetings
        { stream := some greetingsComing } {}).map Deed.outcome = [.ok greeting, .ok greeting] := by
  have hlive : Live greetingsComing := ⟨rfl, by decide, by decide +kernel⟩
  have hdelays : DelaysNonneg greetingsComing.socket.peer.events := by decide +kernel
  have havailable : greetingsComing.available = greetings.flatMap Turn.bytes ++ [] := by
    decide +kernel
  have htime : Turn.InTime greetingsComing.wait 0 greetings := by
    refine ⟨?_, ?_, trivial⟩
    · decide +kernel
    · -- the second call has no limit
      intro limit hlimit
      cases hlimit
  exact receive_either_way sound_greetings (c := { stream := some greetingsComing }) rfl hlive
    hdelays rfl rfl havailable htime {}

end Connection

end Stomp
