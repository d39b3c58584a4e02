import Stomp.Proofs.Connection.Steps
import Stomp.Proofs.Frame.Outgoing
import Stomp.Proofs.History

/-!
# What is sent

Whatever is written to a stream is sent at once or not at all, and nothing of it waits for a later
operation. A connection is **clean** if nothing waits to be sent on the stream that it holds, and an
operation **emits** bytes if it keeps a connection clean and attempts to send just these, once, on
the stream that is held, provided that this is open (`Emits`).

* `emits_operation` — each action emits its `Action.wire?`: a request the written form of its frame,
  a message of bytes that of its frame with the length of the bytes set as `content-length`, a
  heartbeat one line feed;
* `isSome_wire?_iff` — there is something to send if no surrogate is in the way and an acknowledged
  message has an id;
* `sending_after` — so it is after every history: an attempt that fails leaves nothing behind, and a
  message of bytes is never sent without their length.
-/

namespace Stomp

open Network (Entry)
open Operation (Follows Keeps after deed follows_bind follows_pure history)

/-- The attempts to send among acts, those that failed too: on which socket, and what. -/
def Network.attempts (acts : List Entry) : List (Option Nat × Bytes) :=
  acts.filterMap fun e =>
    match e.act with
    | .send bytes | .sendFailed bytes => some (e.socket, bytes)
    | _ => none

/-- Since a moment the given attempts to send were made. -/
def Environment.Attempted (before : List Entry) (tried : List (Option Nat × Bytes))
    (env : Environment) : Prop :=
  ∃ new, env.acts = before ++ new ∧ Network.attempts new = tried

namespace Environment

theorem attempted_refl (env : Environment) : env.Attempted env.acts [] :=
  ⟨[], (List.append_nil _).symm, rfl⟩

theorem Attempted.append {before : List Entry} {tried : List (Option Nat × Bytes)}
    {env env' : Environment} (h : env.Attempted before tried) {more : List Entry}
    (heq : env'.acts = env.acts ++ more) :
    env'.Attempted before (tried ++ Network.attempts more) := by
  obtain ⟨new, hnew, hattempts⟩ := h
  -- the attempts among more acts come after the attempts so far
  refine ⟨new ++ more, by rw [heq, hnew, List.append_assoc], ?_⟩
  rw [Network.attempts, List.filterMap_append, ← hattempts]
  rfl

/-- Acts that are no attempts to send. -/
theorem Attempted.append_none {before : List Entry} {tried : List (Option Nat × Bytes)}
    {env env' : Environment} (h : env.Attempted before tried) {more : List Entry}
    (hnone : Network.attempts more = []) (heq : env'.acts = env.acts ++ more) :
    env'.Attempted before tried := by
  have happend := h.append heq
  rwa [hnone, List.append_nil] at happend

/-- Attempts after attempts. -/
theorem Attempted.trans {before : List Entry} {tried later : List (Option Nat × Bytes)}
    {env env' : Environment} (h : env.Attempted before tried)
    (hlater : env'.Attempted env.acts later) : env'.Attempted before (tried ++ later) := by
  obtain ⟨more, hmore, rfl⟩ := hlater
  exact h.append hmore

end Environment

open Environment (attempted_refl)

/-- Bytes that are worth an attempt. -/
def Bytes.nonempty? (bytes : Bytes) : Option Bytes := if bytes = [] then none else some bytes

namespace Stream

/-- The attempts that sending some bytes comes to: one on an open stream, if there are any bytes. -/
def tries (s : Stream) (data? : Option Bytes) : List (Option Nat × Bytes) :=
  if s.closed then [] else data?.toList.map (some s.socket.number, ·)

/-- Nothing waits to be sent. -/
abbrev Clean (s : Stream) : Prop := s.unsent = []

/-- **Reading and closing send nothing**, and leave nothing to be sent. -/
theorem keeps_clean (before : List Entry) (tried : List (Option Nat × Bytes)) :
    Keeps Reads fun s env => s.Clean ∧ env.Attempted before tried := by
  intro s env s' env' hstep h
  cases hstep with
  | buffer | limit => exact h
  | ask => exact ⟨h.1, h.2.append_none rfl rfl⟩
  -- a stream that is shut drops what waited
  | shut => exact ⟨rfl, h.2.append_none rfl rfl⟩

/-- Whether it succeeds or not, flushing is one attempt to send all that waits. -/
theorem attempted_flush {s : Stream} (hopen : s.closed = false) (env : Environment) :
    (flush.on s env).2.1.Clean ∧
      (flush.on s env).2.2.Attempted env.acts (s.tries s.unsent.nonempty?) := by
  have hclosed : ¬ s.closed = true := by
    rw [hopen]
    exact Bool.false_ne_true
  rw [on_flush, if_neg hclosed, tries, if_neg hclosed, Bytes.nonempty?]
  split
  · rename_i hempty
    exact ⟨hempty, attempted_refl env⟩
  · -- one act in any case: what waited was sent, or it was not
    refine ⟨rfl, _, rfl, ?_⟩
    rw [sendAct]
    cases s.socket.peer.send.1 <;> rfl

theorem write_of_open {s : Stream} (hopen : s.closed = false) (bytes : Bytes) (env : Environment) :
    (write bytes).on s env = (.ok (), { s with unsent := s.unsent ++ bytes }, env) := by
  rw [on_write, if_neg (by rw [hopen]; exact Bool.false_ne_true)]

theorem write_of_closed {s : Stream} (hclosed : s.closed = true) (bytes : Bytes)
    (env : Environment) :
    (write bytes).on s env = (.error (.connection .streamClosed), s, env) := by
  rw [on_write, if_pos hclosed]

end Stream

namespace Connection

/-- Nothing waits to be sent on the stream that is held. -/
def Clean (c : Connection) : Prop := ∀ s ∈ c.stream, s.Clean

/-- The attempts that sending some bytes comes to. -/
def tries (c : Connection) (data? : Option Bytes) : List (Option Nat × Bytes) :=
  c.stream.toList.flatMap fun s => s.tries data?

theorem tries_none (c : Connection) : c.tries none = [] := by
  rw [tries]
  cases c.stream with
  | none => rfl
  | some s => simp [Stream.tries]

/-- **An operation emits bytes** if all that it attempts is to send them on the stream that is held,
and nothing waits to be sent afterwards. -/
def Emits {α : Type} (op : Operation Connection α) (data? : Option Bytes) : Prop :=
  ∀ c env, c.Clean → (op.on c env).2.1.Clean ∧
    (op.on c env).2.2.Attempted env.acts (c.tries data?)

section Emits

variable {α β : Type}

theorem emits_onStream {op : Operation Stream α} {data? : Option Bytes}
    (h : ∀ s env, s.Clean → (op.on s env).2.1.Clean ∧
      (op.on s env).2.2.Attempted env.acts (s.tries data?)) : Emits (onStream op) data? := by
  intro c env hclean
  cases hstream : c.stream with
  | none =>
    rw [on_onStream_of_none hstream, tries, hstream]
    exact ⟨hclean, attempted_refl env⟩
  | some s =>
    obtain ⟨hclean', htried⟩ := h s env (hclean s hstream)
    rw [on_onStream_of_some hstream, tries, hstream]
    refine ⟨fun s' hs' => ?_, by simpa using htried⟩
    obtain rfl := Option.some.inj hs'
    exact hclean'

/-- What follows only reads from the stream emits nothing. -/
theorem emits_none_of_follows {op : Operation Connection α} (h : Follows (Step Stream.Reads) op) :
    Emits op none := by
  intro c env hclean
  -- no step of reading is an attempt to send, and none leaves anything to be sent
  have hkeeps : Keeps (Step Stream.Reads) fun c' env' =>
      c'.Clean ∧ env'.Attempted env.acts [] := by
    intro c₁ env₁ c₂ env₂ hstep hkept
    cases hstep with
    | stream c₁ hheld hreads =>
      obtain ⟨hclean', htried⟩ := Stream.keeps_clean env.acts [] hreads
        ⟨hkept.1 _ hheld, hkept.2⟩
      refine ⟨fun s hs => ?_, htried⟩
      obtain rfl := Option.some.inj hs
      exact hclean'
    | notify | buffer => exact hkept
  rw [tries_none]
  exact h.preserves hkeeps c env ⟨hclean, attempted_refl env⟩

/-- What emits nothing may follow. -/
theorem Emits.bind {op : Operation Connection α} {data? : Option Bytes}
    {next : α → Operation Connection β} (hop : Emits op data?) (hnext : ∀ a, Emits (next a) none) :
    Emits (op >>= next) data? := by
  intro c env hclean
  have hfirst := hop c env hclean
  rw [Operation.on_bind]
  rcases hon : op.on c env with ⟨e | a, c', env'⟩
  · rwa [hon] at hfirst
  · rw [hon] at hfirst
    -- the attempts of the second operation are none, so those of the first are all
    obtain ⟨hclean', htried⟩ := hnext a c' env' hfirst.1
    refine ⟨hclean', ?_⟩
    have htrans := hfirst.2.trans htried
    rwa [tries_none, List.append_nil] at htrans

theorem emits_pure (a : α) : Emits (pure a) none :=
  emits_none_of_follows (follows_pure a)

theorem emits_asDone {op : Operation Connection Unit} {data? : Option Bytes} (h : Emits op data?) :
    Emits (asDone op) data? :=
  h.bind fun _ => emits_pure _

end Emits

/-! ### Sending -/

/-- A text and the bytes after it go out together, or not at all. -/
theorem emits_sendText (text : Text) (bytes : Bytes) :
    Emits (sendText text bytes)
      (text.encode.toOption.bind fun head => (head ++ bytes).nonempty?) := by
  rw [sendText_eq_onStream]
  refine emits_onStream fun s env hclean => ?_
  rw [output, Operation.on_bind, Operation.on_ofExcept]
  cases text.encode with
  -- nothing is written before the text is encoded
  | error e => exact ⟨hclean, by simpa [Stream.tries, Except.toOption] using attempted_refl env⟩
  | ok head =>
    dsimp only
    by_cases hclosed : s.closed = true
    · rw [Operation.on_bind, Stream.write_of_closed hclosed, Stream.tries, if_pos hclosed]
      exact ⟨hclean, attempted_refl env⟩
    · have hopen : s.closed = false := by simpa using hclosed
      rw [Operation.on_bind, Stream.write_of_open hopen, hclean]
      dsimp only
      -- the two parts wait together when the stream is flushed
      rw [Operation.on_bind, Stream.write_of_open (s := { s with unsent := [] ++ head }) hopen]
      exact Stream.attempted_flush (s := { s with unsent := head ++ bytes }) hopen env

theorem emits_keepAlive : Emits keepAlive (some [Octet.lineFeed]) := by
  refine emits_onStream fun s env hclean => ?_
  by_cases hclosed : s.closed = true
  · rw [Operation.on_bind, Stream.write_of_closed hclosed, Stream.tries, if_pos hclosed]
    exact ⟨hclean, attempted_refl env⟩
  · have hopen : s.closed = false := by simpa using hclosed
    simp only [Operation.on_bind, Stream.write_of_open hopen, hclean, List.nil_append]
    exact Stream.attempted_flush (s := { s with unsent := [Octet.lineFeed] }) hopen env

/-- Telling the log first changes nothing. -/
theorem emits_notify_bind {α : Type} (notice : Notice) {op : Operation Connection α}
    {data? : Option Bytes} (h : Emits op data?) :
    Emits (do Operation.notify notice; op) data? := by
  intro c env hclean
  rw [Operation.on_bind, Operation.on_notify]
  exact h c _ hclean

theorem emits_ofExcept_bind {α β : Type} {outcome : Except Error α}
    {next : α → Operation Connection β} {data? : α → Option Bytes}
    (h : ∀ a, Emits (next a) (data? a)) :
    Emits (Operation.ofExcept outcome >>= next) (outcome.toOption.bind data?) := by
  intro c env hclean
  rw [Operation.on_bind, Operation.on_ofExcept]
  cases outcome with
  | error e =>
    refine ⟨hclean, ?_⟩
    rw [Except.toOption, Option.bind_none, tries_none]
    exact attempted_refl env
  | ok a => exact h a c env hclean

theorem emits_sendFrame (f : Frame) : Emits (sendFrame f) f.wire? := by
  -- what is sent is the text of the frame, and encoding this gives the written frame
  have hwire : f.wire? = f.toText.toOption.bind fun text =>
      text.encode.toOption.bind fun head => (head ++ []).nonempty? := by
    rw [Frame.wire?_eq]
    cases htext : f.toText with
    | error e => rfl
    | ok text =>
      have hbytes := Frame.toOption_encode_toText htext
      cases hencode : text.encode with
      | error e => simp [hencode, Except.toOption]
      | ok head =>
        rw [hencode] at hbytes
        have hne := Frame.toBytes_ne_nil (toOption_eq_some_iff.mp hbytes.symm)
        simp [hencode, hne, Except.toOption, Bytes.nonempty?]
  rw [hwire]
  exact emits_notify_bind _ (emits_ofExcept_bind fun text => emits_sendText text [])

theorem emits_sendBytes (destination : Text) (data : Bytes) (transaction : Option Text)
    (headers : Headers) :
    Emits (sendBytes destination data transaction headers)
      ((Request.send destination (.bytes data) transaction headers).frame.toOption.bind
        fun f => f.withBodyLength.toBytes.toOption) := by
  refine emits_ofExcept_bind fun f => ?_
  -- a written frame ends in a NUL, so there is something to send if it can be written
  have hwire : f.withBodyLength.toBytes.toOption =
      f.withBodyLength.head.encode.toOption.bind fun head =>
        Bytes.nonempty? (head ++ (f.withBodyLength.body ++ [Octet.nul])) := by
    rw [Frame.toBytes]
    cases f.withBodyLength.head.encode with
    | error e => rfl
    | ok head => simp [Except.map, Except.toOption, Bytes.nonempty?]
  rw [hwire]
  exact emits_notify_bind _ (emits_sendText _ _)

/-- Only the frame is sent; the answer is waited for and judged. -/
theorem emits_handshake (f : Frame) : Emits (handshake f) f.wire? := by
  have hexchange : Emits (exchange f) f.wire? :=
    (emits_sendFrame f).bind fun _ => emits_none_of_follows (follows_receive _)
  intro c env hclean
  have h := hexchange c env hclean
  rw [on_handshake]
  generalize (exchange f).on c env = exchanged at h ⊢
  obtain ⟨e | reply, c', env'⟩ := exchanged
  · exact h
  · dsimp only
    cases verdict reply <;> exact h

theorem emits_request (r : Request) : Emits (request r) r.wire? := by
  intro c env hclean
  rw [Request.wire?]
  cases hframe : r.frame with
  | error e =>
    rw [on_request_of_error hframe, Except.toOption, Option.bind_none, tries_none]
    exact ⟨hclean, attempted_refl env⟩
  | ok f =>
    -- a request sends its frame once, whatever comes of it afterwards
    cases henters : r.enters with
    | true =>
      rw [on_request_of_enters henters hframe]
      exact emits_handshake f c env hclean
    | false =>
      have h := emits_sendFrame f c env hclean
      cases hleaves : r.leaves with
      | true =>
        rw [on_request_of_leaves hleaves hframe]
        generalize (sendFrame f).on c env = sent at h ⊢
        obtain ⟨e | ⟨⟩, c', env'⟩ := sent <;> exact h
      | false =>
        rw [on_request_of_plain henters hleaves hframe]
        exact h

/-! ### Opening and closing -/

theorem emits_close : Emits close none := by
  intro c env hclean
  rw [tries_none]
  cases hstream : c.stream with
  | none =>
    rw [on_close_of_none hstream]
    exact ⟨hclean, attempted_refl env⟩
  | some s =>
    rw [on_close_of_some hstream]
    refine ⟨fun s' hs' => (Option.not_mem_none s' hs').elim, ?_⟩
    exact (Stream.follows_close.preserves (Stream.keeps_clean env.acts []) s env
      ⟨hclean s hstream, attempted_refl env⟩).2

theorem emits_adopt {s : Stream} (hs : s.Clean) : Emits (adopt s) none := by
  intro c env hclean
  rw [on_adopt]
  refine ⟨fun s' hs' => ?_, (emits_close c env hclean).2⟩
  obtain rfl := Option.some.inj hs'
  exact hs

theorem emits_adoptSocket (peer : Network.Peer) : Emits (adoptSocket peer) none := by
  intro c env hclean
  -- a new stream has nothing to send
  rw [on_adoptSocket]
  exact emits_adopt (s := { socket := ⟨env.sockets, peer⟩ }) rfl c _ hclean

theorem emits_dial (peer : Network.Peer) (host : Text) (port : Int) (timeout : Option Seconds) :
    Emits (dial peer host port timeout) none := by
  intro c env hclean
  obtain ⟨hclean', htried⟩ := emits_close c env hclean
  cases hfault : peer.connectFault with
  | some reason =>
    rw [on_dial_of_fault hfault]
    exact ⟨hclean', htried.append_none rfl rfl⟩
  | none =>
    rw [on_dial_of_none hfault]
    refine ⟨fun s' hs' => ?_, htried.append_none rfl rfl⟩
    obtain rfl := Option.some.inj hs'
    rfl

/-! ### Every action -/

/-- The bytes that an action sends, if it gets to it. Bytes are sent with their length in the
headers, whatever length the headers named before. -/
def Action.wire? : Action → Option Bytes
  | request r => r.wire?
  | sendBytes destination data transaction headers =>
    (Request.send destination (.bytes data) transaction headers).frame.toOption.bind fun f =>
      Except.toOption <| Frame.toBytes
        { f with headers := f.headers.set Headers.Name.contentLength (Text.ofNat data.length) }
  | sendText text bytes =>
    text.encode.toOption.bind fun head => (head ++ bytes).nonempty?
  | keepAlive => some [Octet.lineFeed]
  | _ => none

/-- What an action takes to have something to send. -/
def Action.Writable : Action → Prop
  | request r => r.Writable
  | sendBytes destination data transaction headers =>
    ∀ f, (Request.send destination (.bytes data) transaction headers).frame = .ok f →
      (f.headers.set Headers.Name.contentLength (Text.ofNat data.length)).SurrogateFree
  | sendText text bytes => text.SurrogateFree ∧ (text ≠ [] ∨ bytes ≠ [])
  | keepAlive => True
  | _ => False

/-- The length that a message of bytes announces is that of the bytes which it was given. -/
theorem withBodyLength_of_send {destination : Text} {data : Bytes} {transaction : Option Text}
    {headers : Headers} {f : Frame}
    (h : (Request.send destination (.bytes data) transaction headers).frame = .ok f) :
    f.withBodyLength =
      { f with headers := f.headers.set Headers.Name.contentLength (Text.ofNat data.length) } := by
  obtain ⟨-, hbody, -⟩ := Request.frame_eq_ok h
  obtain rfl : data = f.body := Except.ok.inj hbody
  rfl

/-- **A message of bytes on the wire** is a SEND frame with these bytes as its body and their number
as its `content-length`. -/
theorem exists_frame_of_wire?_sendBytes {destination : Text} {data : Bytes}
    {transaction : Option Text} {headers : Headers} {wire : Bytes}
    (h : (Action.sendBytes destination data transaction headers).wire? = some wire) :
    ∃ f : Frame, f.toBytes = .ok wire ∧ f.command = Command.send.name ∧ f.body = data ∧
      f.headers.get? Headers.Name.contentLength = some (Text.ofNat data.length) := by
  rw [Action.wire?, Option.bind_eq_some_iff] at h
  obtain ⟨f, hframe, hwire⟩ := h
  obtain ⟨hcommand, hbody, -⟩ := Request.frame_eq_ok (toOption_eq_some_iff.mp hframe)
  refine ⟨_, toOption_eq_some_iff.mp hwire, hcommand, (Except.ok.inj hbody).symm, ?_⟩
  -- a length that the caller named is overwritten
  rw [Headers.get?_set, if_pos rfl]

theorem isSome_wire?_iff (action : Action) : action.wire?.isSome ↔ action.Writable := by
  cases action with
  | request r => exact Request.isSome_wire?_iff
  | sendBytes destination data transaction headers =>
    obtain ⟨f, hframe⟩ : ∃ f,
        (Request.send destination (.bytes data) transaction headers).frame = .ok f := ⟨_, rfl⟩
    obtain ⟨hcommand, -, -⟩ := Request.frame_eq_ok hframe
    have hbytes := Frame.isSome_toBytes_iff (c := .send) (f := { f with
      headers := f.headers.set Headers.Name.contentLength (Text.ofNat data.length) }) hcommand
    rw [Action.wire?, Action.Writable, hframe]
    constructor
    · intro h f' hf'
      obtain rfl : f = f' := Except.ok.inj hf'
      exact hbytes.mp h
    · exact fun h => hbytes.mpr (h f rfl)
  | sendText text bytes =>
    rw [Action.wire?, Action.Writable]
    -- a text with a surrogate is not encoded, and then the bytes are not sent either
    by_cases hfree : text.SurrogateFree
    · have hempty : Utf8.octets text ++ bytes = [] ↔ text = [] ∧ bytes = [] := by
        rw [List.append_eq_nil_iff, Utf8.octets_eq_nil_iff]
      rw [Text.toOption_encode_of_surrogateFree hfree, and_iff_right hfree, Option.bind_some,
        Bytes.nonempty?]
      split
      · rename_i hnil
        obtain ⟨htext, hbytes⟩ := hempty.mp hnil
        simp [htext, hbytes]
      · rename_i hnil
        rw [hempty, not_and_or] at hnil
        exact iff_of_true rfl hnil
    · have hnone : text.encode.toOption = none := by
        rw [← Text.isSome_encode_iff] at hfree
        simpa using hfree
      rw [hnone]
      exact iff_of_false Bool.false_ne_true fun h => hfree h.1
  | keepAlive => exact iff_of_true rfl trivial
  -- no other action sends anything
  | _ => exact iff_of_false Bool.false_ne_true id

/-- **Every action emits its bytes**, if a stream that it adopts has nothing to send. -/
theorem emits_operation (action : Action) (hadopted : ∀ s, action = .adoptStream s → s.Clean) :
    Emits action.operation action.wire? := by
  cases action with
  | dial peer host port timeout => exact emits_asDone (emits_dial peer host port timeout)
  | adopt peer => exact emits_asDone (emits_adoptSocket peer)
  | adoptStream s => exact emits_asDone (emits_adopt (hadopted s rfl))
  | close => exact emits_asDone emits_close
  | closeStream => exact emits_asDone (emits_none_of_follows follows_closeStream)
  | request r => exact emits_asDone (emits_request r)
  | sendBytes destination data transaction headers =>
    -- the length is taken from the body of the frame, and this body is the bytes
    have hwire : (Action.sendBytes destination data transaction headers).wire? =
        (Request.send destination (.bytes data) transaction headers).frame.toOption.bind
          fun f => f.withBodyLength.toBytes.toOption := by
      rw [Action.wire?]
      refine Option.bind_congr fun f hf => ?_
      rw [withBodyLength_of_send (toOption_eq_some_iff.mp hf)]
    rw [hwire]
    exact emits_asDone (emits_sendBytes destination data transaction headers)
  | sendText text bytes => exact emits_asDone (emits_sendText text bytes)
  | keepAlive => exact emits_asDone emits_keepAlive
  | receive timeout =>
    exact emits_none_of_follows (follows_bind (follows_receive timeout) fun _ => follows_pure _)
  | receiveText timeout =>
    exact emits_none_of_follows (follows_bind (follows_receiveText timeout) fun _ => follows_pure _)

/-- What an action attempts does not depend on the state of a stream that it adopts. -/
theorem attempted_operation (action : Action) {c : Connection} (hclean : c.Clean)
    (env : Environment) :
    (action.operation.on c env).2.2.Attempted env.acts (c.tries action.wire?) := by
  cases action with
  -- what the adopted stream holds back is not sent when it is adopted
  | adoptStream s =>
    rw [Action.operation, on_asDone, on_adopt]
    exact (emits_close c env hclean).2
  | _ => exact (emits_operation _ (fun _ h => Action.noConfusion h) c env hclean).2

/-- After every history of a clean connection that adopted clean streams, it is clean. -/
theorem clean_after {actions : List Action}
    (hadopted : ∀ s, Action.adoptStream s ∈ actions → s.Clean) {c : Connection}
    (hclean : c.Clean) (env : Environment) : (after Action.operation actions c env).1.Clean := by
  -- each action keeps the connection clean, given that of a stream which it adopts
  refine Operation.after_preserves Action.operation (P := fun c _ => c.Clean) ?_ hclean
  intro action haction c env hclean
  exact (emits_operation action (fun s hs => hadopted s (hs ▸ haction)) c env hclean).1

/-- What a deed attempted is what was attempted since it began. -/
theorem attempts_deed {action : Action} {c : Connection} {env : Environment}
    {tried : List (Option Nat × Bytes)}
    (h : (action.operation.on c env).2.2.Attempted env.acts tried) :
    Network.attempts (deed Action.operation action c env).acts = tried := by
  obtain ⟨new, hnew, rfl⟩ := h
  rw [deed, hnew, List.drop_left]

/-- Sending is one attempt, and there is one if a stream is held and open and there is something to
send. -/
theorem tries_spec (c : Connection) (data? : Option Bytes) :
    (c.tries data?).length ≤ 1 ∧
      (c.tries data? ≠ [] ↔ (∃ s ∈ c.stream, s.closed = false) ∧ data?.isSome) ∧
      ∀ e ∈ c.tries data?, (∃ s ∈ c.stream, e.1 = some s.socket.number) ∧ data? = some e.2 := by
  rw [tries]
  cases hstream : c.stream with
  | none => simp
  | some s =>
    cases data? with
    | none => simp [Stream.tries]
    | some data =>
      -- a closed stream refuses to write, and then there is no attempt
      by_cases hclosed : s.closed = true
      · simp [Stream.tries, hclosed]
      · have hopen : s.closed = false := by simpa using hclosed
        simp [Stream.tries, hopen]

/-- **Nothing is left of what was sent.** After every history, whatever failed in it, nothing waits
to be sent. So the next action attempts to send once at most, and this if and only if the stream
that is held is open and what the action would send can be written; and then it sends the bytes of
this action and no others, on the socket that is held. What is sent for a message of bytes is a SEND
frame with just these bytes as its body, and their number as its `content-length`. -/
theorem sending_after {actions : List Action}
    (hadopted : ∀ s, Action.adoptStream s ∈ actions → s.unsent = []) (first : Text)
    (env : Environment) :
    let c := (after Action.operation actions { version := first } env).1
    let env' := (after Action.operation actions { version := first } env).2
    (∀ s ∈ c.stream, s.unsent = []) ∧
      (∀ action : Action,
        let tried := Network.attempts (deed Action.operation action c env').acts
        tried.length ≤ 1 ∧
          (tried ≠ [] ↔ (∃ s ∈ c.stream, s.closed = false) ∧ action.Writable) ∧
          ∀ e ∈ tried, (∃ s ∈ c.stream, e.1 = some s.socket.number) ∧ action.wire? = some e.2) ∧
      ∀ destination data transaction headers,
        ∀ e ∈ Network.attempts (deed Action.operation
            (.sendBytes destination data transaction headers) c env').acts,
          ∃ f : Frame, f.toBytes = .ok e.2 ∧ f.command = Command.send.name ∧ f.body = data ∧
            f.headers.get? Headers.Name.contentLength = some (Text.ofNat data.length) := by
  intro c env'
  have hstart : ({ version := first } : Connection).Clean :=
    fun s hs => (Option.not_mem_none s hs).elim
  have hclean : c.Clean := clean_after hadopted hstart env
  -- as nothing waits, what an action attempts is what it emits
  have htries : ∀ action : Action, Network.attempts (deed Action.operation action c env').acts =
      c.tries action.wire? :=
    fun action => attempts_deed (attempted_operation action hclean env')
  refine ⟨hclean, fun action => ?_, fun destination data transaction headers e he => ?_⟩
  · rw [htries, ← isSome_wire?_iff]
    exact tries_spec c action.wire?
  · rw [htries] at he
    obtain ⟨-, -, hbytes⟩ := tries_spec c (Action.wire? _)
    exact exists_frame_of_wire?_sendBytes (hbytes e he).2

/-- On a socket that cannot send at first, a request and then a heartbeat. -/
def faltering : List Action :=
  [.adoptStream { socket := ⟨0, { sendFaults := [some "broken"] }⟩ }, .request (.begin "a")]

/-- The bytes of the request are sent neither with a heartbeat nor with a message that comes next,
and a message of a NUL byte tells its length, whatever the caller said of it. -/
theorem sending_after_faltering :
    (∀ s, Action.adoptStream s ∈ faltering → s.unsent = []) ∧
      let c := (after Action.operation faltering {} {}).1
      let env := (after Action.operation faltering {} {}).2
      Network.attempts env.acts = [(some 0, Utf8.octets "BEGIN\ntransaction:a\n\n\x00")] ∧
        Network.attempts (deed Action.operation .keepAlive c env).acts = [(some 0, [10])] ∧
        Network.attempts (deed Action.operation (.sendBytes "q" [0] none
            (Headers.ofList [("content-length", "7")])) c env).acts =
          [(some 0, Utf8.octets "SEND\ncontent-length:1\ndestination:q\n\n\x00\x00")] := by
  have hadopted : ∀ s, Action.adoptStream s ∈ faltering → s.unsent = [] := by
    intro s hs
    simp only [faltering, List.mem_cons, Action.adoptStream.injEq, List.not_mem_nil, or_false,
      reduceCtorEq] at hs
    rw [hs]
  obtain ⟨-, hactions, -⟩ := sending_after hadopted defaultVersion {}
  -- the stream is still open, so there is one attempt for whatever can be written
  have hopen : ∃ s ∈ (after Action.operation faltering {} {}).1.stream, s.closed = false :=
    ⟨{ socket := ⟨0, {}⟩ }, by decide +kernel, rfl⟩
  have hone : ∀ (action : Action) (wire : Bytes), action.wire? = some wire →
      Network.attempts (deed Action.operation action (after Action.operation faltering {} {}).1
        (after Action.operation faltering {} {}).2).acts = [(some 0, wire)] := by
    intro action wire hwire
    obtain ⟨hlength, hsome, hbytes⟩ := hactions action
    have hwritable := (isSome_wire?_iff action).mp (by rw [hwire]; rfl)
    have hne := hsome.mpr ⟨hopen, hwritable⟩
    obtain ⟨⟨socket, bytes⟩, hattempts⟩ := List.length_eq_one_iff.mp
      (Nat.le_antisymm hlength (List.length_pos_iff.mpr hne))
    obtain ⟨⟨s, hs, hsocket⟩, hsent⟩ := hbytes (socket, bytes) (by rw [hattempts]; simp)
    obtain rfl : { socket := ⟨0, {}⟩ } = s := Option.some.inj (by rw [← hs]; decide +kernel)
    obtain rfl : wire = bytes := Option.some.inj (hwire.symm.trans hsent)
    obtain rfl : socket = some 0 := hsocket
    exact hattempts
  exact ⟨hadopted, by decide +kernel, hone .keepAlive _ rfl, hone _ _ (by decide +kernel)⟩

end Connection

end Stomp
