import Stomp.Connection.Action
import Stomp.Proofs.Stream.Steps

/-!
# What can happen to a connection

Most of what is done with a connection happens to the stream that it holds, and is a chain of
`Step`s: the stream takes a step of its own, the log is told something, or the frame text that is
being received changes. None of them opens, accepts or lets go (`keeps_session`).

* `follows_send`, `follows_sendBytes`, `follows_sendText`, `follows_keepAlive` — sending only writes
  to the stream;
* `follows_receive`, `follows_receiveText`, `follows_closeStream` — receiving only reads from it.

The other operations are told by their equations: `on_close_of_some`, `on_dial_of_fault`,
`on_dial_of_none`, `on_adopt`, `on_adoptSocket`, and for requests `on_handshake`,
`on_request_of_enters`, `on_request_of_leaves` and `on_request_of_plain`.
-/

namespace Stomp

/-- A request to be accepted. -/
def Request.enters : Request → Bool
  | connect .. | connectWith _ => true
  | _ => false

/-- A request to take leave. -/
def Request.leaves : Request → Bool
  | disconnect _ => true
  | _ => false

namespace Connection

open Network (Peer)
open Operation (Follows Keeps follows_attempt follows_bind follows_ite follows_ofExcept follows_pure
  follows_subject)

/-- One step of an operation on the stream that a connection holds, the stream taking steps of a
relation. -/
inductive Step (R : Stream × Environment → Stream × Environment → Prop) :
    Connection × Environment → Connection × Environment → Prop
  | stream (c : Connection) {s s' : Stream} {env env' : Environment} (hheld : c.stream = some s)
    (h : R (s, env) (s', env')) : Step R (c, env) ({ c with stream := some s' }, env')
  | notify (c : Connection) (env : Environment) (notice : Notice) :
    Step R (c, env) (c, { env with notices := env.notices ++ [notice] })
  /-- The frame text that is being received changes. -/
  | buffer (c : Connection) (env : Environment) (inputBuffer : Array UInt8) :
    Step R (c, env) ({ c with inputBuffer }, env)

section Steps

variable {R R' : Stream × Environment → Stream × Environment → Prop}

theorem Step.mono (hle : ∀ x y, R x y → R' x y) {x y : Connection × Environment}
    (h : Step R x y) : Step R' x y := by
  cases h with
  | stream c hheld h => exact .stream c hheld (hle _ _ h)
  | notify c env notice => exact .notify c env notice
  | buffer c env inputBuffer => exact .buffer c env inputBuffer

/-- **A step opens, accepts and lets go of nothing.** -/
theorem keeps_session (isOpen connected : Bool) (version : Text) :
    Keeps (Step R) fun c _ =>
      c.isOpen = isOpen ∧ c.connected = connected ∧ c.version = version := by
  intro c env c' env' hstep h
  cases hstep with
  | stream c hheld _ =>
    refine ⟨?_, h.2⟩
    -- the stream that is held is another value now, but one is held as before
    rw [← h.1, Connection.isOpen, Connection.isOpen, hheld]
    rfl
  | notify c env notice => exact h
  | buffer c env inputBuffer => exact h

theorem follows_notify (notice : Notice) :
    Follows (Step R) (Operation.notify notice : Operation Connection Unit) :=
  fun c env => .single (.notify c env notice)

/-- What succeeds on the stream that is held. -/
theorem on_onStream_eq_ok {α : Type} {op : Operation Stream α} {c c' : Connection} {s : Stream}
    {env env' : Environment} {a : α} (hstream : c.stream = some s)
    (h : (onStream op).on c env = (.ok a, c', env')) :
    ∃ s', op.on s env = (.ok a, s', env') ∧ c' = { c with stream := some s' } := by
  rw [on_onStream_of_some hstream] at h
  generalize op.on s env = done at h ⊢
  obtain ⟨outcome, s', env''⟩ := done
  cases h
  exact ⟨s', rfl, rfl⟩

/-- On the stream that is held, an operation takes the steps of the stream. -/
theorem follows_onStream {α : Type} {op : Operation Stream α} (hop : Follows R op) :
    Follows (Step R) (onStream op) := by
  intro c env
  cases hstream : c.stream with
  | none => rw [on_onStream_of_none hstream]
  | some s =>
    rw [on_onStream_of_some hstream]
    -- a step of the stream is a step of the connection that holds it, so its chain is lifted whole
    have hlift : Relation.ReflTransGen (Step R) ({ c with stream := some s }, env)
        ({ c with stream := some (op.on s env).2.1 }, (op.on s env).2.2) :=
      Relation.ReflTransGen.lift (fun x => ({ c with stream := some x.1 }, x.2))
        (fun x y h => .stream { c with stream := some x.1 } rfl h) _ _ (hop s env)
    rwa [← hstream] at hlift

theorem on_asDone (op : Operation Connection Unit) (c : Connection) (env : Environment) :
    (asDone op).on c env = ((op.on c env).1.map fun _ => .done, (op.on c env).2) := by
  rw [asDone, Operation.on_bind]
  rcases op.on c env with ⟨_ | _, c', env'⟩ <;> rfl

theorem follows_asDone {op : Operation Connection Unit} (hop : Follows (Step R) op) :
    Follows (Step R) (asDone op) :=
  follows_bind hop fun _ => follows_pure _

end Steps

/-! ### Sending -/

/-- What sending a text and bytes after it does with the stream. -/
def output (text : Text) (bytes : Bytes) : Operation Stream Unit := do
  let head ← Operation.ofExcept text.encode
  Stream.write head
  Stream.write bytes
  Stream.flush

theorem sendText_eq_onStream (text : Text) (bytes : Bytes) :
    sendText text bytes = onStream (output text bytes) := rfl

theorem follows_output (text : Text) (bytes : Bytes) :
    Follows Stream.Writes (output text bytes) := by
  refine follows_bind (follows_ofExcept _) fun head => ?_
  refine follows_bind (Stream.follows_write head) fun _ => ?_
  exact follows_bind (Stream.follows_write bytes) fun _ => Stream.follows_flush

theorem follows_sendText (text : Text) (bytes : Bytes) :
    Follows (Step Stream.Writes) (sendText text bytes) :=
  follows_onStream (follows_output text bytes)

theorem follows_sendFrame (f : Frame) : Follows (Step Stream.Writes) (sendFrame f) := by
  refine follows_bind (follows_notify _) fun _ => ?_
  exact follows_bind (follows_ofExcept _) fun text => follows_sendText text []

theorem follows_sendBytes (destination : Text) (data : Bytes) (transaction : Option Text)
    (headers : Headers) :
    Follows (Step Stream.Writes) (sendBytes destination data transaction headers) := by
  refine follows_bind (follows_ofExcept _) fun f => ?_
  exact follows_bind (follows_notify _) fun _ => follows_sendText _ _

theorem follows_keepAlive : Follows (Step Stream.Writes) keepAlive :=
  follows_onStream (follows_bind (Stream.follows_write _) fun _ => Stream.follows_flush)

/-! ### Receiving, and closing the stream alone -/

/-- What receiving a frame does with the stream. -/
def input (timeout : Option Rat) (version : Text) : Operation Stream Frame := do
  Stream.setReadTimeout timeout
  Stream.readFrame version

theorem follows_input (timeout : Option Rat) (version : Text) :
    Follows Stream.Reads (input timeout version) :=
  follows_bind (Stream.follows_setReadTimeout timeout) fun _ => Stream.follows_readFrame version

theorem on_receive (timeout : Option Rat) (c : Connection) (env : Environment) :
    (receive timeout).on c env =
      match (onStream (input timeout c.version)).on c env with
      | (.error e, c', env') => (.error e, c', env')
      | (.ok f, c', env') =>
        (.ok f, c', { env' with notices := env'.notices ++ [.received f] }) := by
  -- the version is looked up first, and the connection is not changed by that
  have hreceive : receive timeout = Operation.subject >>= fun c =>
      onStream (input timeout c.version) >>= fun f => do
        Operation.notify (.received f)
        return f := rfl
  rw [hreceive, Operation.on_bind, Operation.on_subject]
  dsimp only
  rw [Operation.on_bind]
  rcases (onStream (input timeout c.version)).on c env with ⟨_ | _, c', env'⟩ <;> rfl

theorem follows_receive (timeout : Option Rat) : Follows (Step Stream.Reads) (receive timeout) := by
  refine follows_bind follows_subject fun c => ?_
  refine follows_bind (follows_onStream (follows_input timeout c.version)) fun f => ?_
  exact follows_bind (follows_notify _) fun _ => follows_pure _

theorem follows_receiveText (timeout : Option Rat) :
    Follows (Step Stream.Reads) (receiveText timeout) := by
  refine follows_bind (follows_onStream (Stream.follows_setReadTimeout timeout)) fun _ => ?_
  refine follows_bind follows_subject fun c => ?_
  refine follows_bind (follows_attempt (follows_onStream (Stream.follows_readText _))) fun _ => ?_
  -- whatever came of reading, what was read so far is dropped in one step of its own
  refine follows_bind ?_ fun _ => follows_ofExcept _
  exact fun c env => .single (.buffer c env #[])

theorem follows_closeStream : Follows (Step Stream.Reads) closeStream := by
  refine follows_bind follows_subject fun c => ?_
  exact follows_ite (follows_onStream Stream.follows_close) (follows_pure _)

/-! ### Opening and closing -/

/-- What the log is told while a stream is closed and let go of. -/
def closeNotices (outcome : Except Error Unit) : List Notice :=
  match outcome with
  | .error e => [.closeFailed e.message, .disconnected]
  | .ok () => [.disconnected]

/-- Closing closes the stream that is held, and lets go of it. -/
theorem on_close_of_some {c : Connection} {s : Stream} (h : c.stream = some s)
    (env : Environment) :
    close.on c env =
      (.ok (), { c with stream := none, connected := false },
        { (Stream.close.on s env).2.2 with
            notices := (Stream.close.on s env).2.2.notices ++
              closeNotices (Stream.close.on s env).1 }) := by
  simp only [close, Operation.on_bind, Operation.on_subject, h, Operation.on_apart, closeNotices]
  -- a failing socket only adds a notice
  cases (Stream.close.on s env).1 <;> simp [Operation.on_bind]

/-- Closing never fails. -/
theorem on_close_eq_ok (c : Connection) (env : Environment) :
    close.on c env = (.ok (), (close.on c env).2) := by
  rw [← (on_close c env).1]

theorem on_adopt (s : Stream) (c : Connection) (env : Environment) :
    (adopt s).on c env =
      (.ok (), { (close.on c env).2.1 with
          stream := some s, inputBuffer := #[], connected := false },
        (close.on c env).2.2) := by
  rw [adopt, Operation.on_bind, on_close_eq_ok]
  rfl

theorem on_adoptSocket (peer : Peer) (c : Connection) (env : Environment) :
    (adoptSocket peer).on c env =
      (adopt { socket := ⟨env.sockets, peer⟩ }).on c { env with sockets := env.sockets + 1 } := by
  rw [adoptSocket, Operation.on_bind, Operation.on_newSocket]

/-- Where the host cannot be reached, only the stream that was held is gone. -/
theorem on_dial_of_fault {peer : Peer} {reason : Text} (h : peer.connectFault = some reason)
    (host : Text) (port : Int) (timeout : Option Seconds) (c : Connection) (env : Environment) :
    (dial peer host port timeout).on c env =
      (.error (.connection (.dialFailed host port reason)), (close.on c env).2.1,
        { (close.on c env).2.2 with
            acts := (close.on c env).2.2.acts ++
              [⟨(close.on c env).2.2.clock, none, .dial host port timeout⟩] }) := by
  rw [dial, Operation.on_bind, on_close_eq_ok]
  simp only [h]
  rfl

theorem on_dial_of_none {peer : Peer} (h : peer.connectFault = none) (host : Text) (port : Int)
    (timeout : Option Seconds) (c : Connection) (env : Environment) :
    (dial peer host port timeout).on c env =
      (.ok (), { (close.on c env).2.1 with
          stream := some { socket := ⟨(close.on c env).2.2.sockets, peer⟩ }
          inputBuffer := #[]
          connected := false },
        { (close.on c env).2.2 with
            sockets := (close.on c env).2.2.sockets + 1
            acts := (close.on c env).2.2.acts ++
              [⟨(close.on c env).2.2.clock, some (close.on c env).2.2.sockets,
                .dial host port timeout⟩]
            notices := (close.on c env).2.2.notices ++ [.opened host port] }) := by
  rw [dial, Operation.on_bind, on_close_eq_ok]
  simp only [h]
  rfl

/-! ### Requests -/

/-- Sends a frame that asks to be accepted, and receives the answer. -/
def exchange (f : Frame) : Operation Connection Frame := do
  sendFrame f
  receive (some defaultTimeout.value)

/-- What an answer to a handshake says: a refusal, or the version agreed to if it names one. -/
def verdict (reply : Frame) : Except Error (Option Text) :=
  if reply.command? ≠ some .connected then .error (.protocol (.refused reply))
  else
    match reply.headers.get? Headers.Name.version with
    | none => .ok none
    | some version =>
      match Version.parse? version with
      | none => .error (.protocol (.unusableVersion reply version))
      | some _ => .ok (some version)

/-- What is agreed to is the version that the answer names, and it can be read. -/
theorem verdict_eq_ok {reply : Frame} {version? : Option Text} (h : verdict reply = .ok version?) :
    reply.headers.get? Headers.Name.version = version? ∧
      ∀ version ∈ version?, (Version.parse? version).isSome := by
  unfold verdict at h
  split at h
  · cases h
  · -- a CONNECTED frame is accepted unless it names a version that cannot be read
    cases hversion : reply.headers.get? Headers.Name.version with
    | none =>
      rw [hversion] at h
      cases h
      exact ⟨rfl, by simp⟩
    | some named =>
      simp only [hversion] at h
      cases hparse : Version.parse? named with
      | none => rw [hparse] at h; cases h
      | some v =>
        rw [hparse] at h
        cases h
        refine ⟨rfl, fun version hnamed => ?_⟩
        obtain rfl := Option.some.inj hnamed
        rw [hparse]
        rfl

/-- **A handshake** is an exchange of two frames, and changes nothing else unless the answer
accepts. -/
theorem on_handshake (f : Frame) (c : Connection) (env : Environment) :
    (handshake f).on c env =
      match (exchange f).on c env with
      | (.error e, c', env') => (.error e, c', env')
      | (.ok reply, c', env') =>
        match verdict reply with
        | .error e => (.error e, c', env')
        | .ok version? =>
          (.ok (), { c' with version := version?.getD c'.version, connected := true },
            { env' with
                notices := env'.notices ++ [.established (version?.getD c'.version)] }) := by
  rw [handshake, exchange, Operation.on_bind, Operation.on_bind]
  rcases (sendFrame f).on c env with ⟨_ | _, c', env'⟩
  · -- the frame was not sent, and nothing is received
    rfl
  dsimp only
  rw [Operation.on_bind]
  rcases (receive (some defaultTimeout.value)).on c' env' with ⟨_ | reply, c', env'⟩
  · -- it was sent, and no answer came
    rfl
  · -- an answer came, and the order of the tests is that of the verdict
    dsimp only
    rw [verdict]
    by_cases hrefused : reply.command? ≠ some .connected
    · rw [if_pos hrefused, if_pos hrefused]
      rfl
    · rw [if_neg hrefused, if_neg hrefused, agree]
      cases hversion : reply.headers.get? Headers.Name.version with
      | none => rfl
      | some version =>
        dsimp only
        cases Version.parse? version <;> rfl

/-- Only an accepted handshake can do something that is not a step on the stream. -/
theorem follows_exchange (f : Frame) : Follows (Step Stream.Step) (exchange f) := by
  refine follows_bind ?_ fun _ => ?_
  · -- sending writes, receiving reads, and both are steps
    exact (follows_sendFrame f).mono fun _ _ => .mono fun _ _ => .writes
  · exact (follows_receive _).mono fun _ _ => .mono fun _ _ => .reads

/-- A request whose frame cannot be built does nothing. -/
theorem on_request_of_error {r : Request} {e : Error} (h : r.frame = .error e) (c : Connection)
    (env : Environment) : (request r).on c env = (.error e, c, env) := by
  rw [request, h]
  rfl

theorem on_request_of_enters {r : Request} (hr : r.enters = true) {f : Frame}
    (h : r.frame = .ok f) (c : Connection) (env : Environment) :
    (request r).on c env = (handshake f).on c env := by
  rw [request, h]
  cases r with
  | connect | connectWith => rfl
  | _ => cases hr

theorem on_request_of_leaves {r : Request} (hr : r.leaves = true) {f : Frame}
    (h : r.frame = .ok f) (c : Connection) (env : Environment) :
    (request r).on c env =
      match (sendFrame f).on c env with
      | (.error e, c', env') => (.error e, c', env')
      | (.ok (), c', env') => (.ok (), { c' with connected := false }, env') := by
  rw [request, h]
  cases r with
  | disconnect receiptId =>
    change (sendFrame f >>= fun _ => Operation.change _).on c env = _
    rw [Operation.on_bind]
    rcases (sendFrame f).on c env with ⟨_ | _, c', env'⟩ <;> rfl
  | _ => cases hr

/-- Every other request is sending its frame. -/
theorem on_request_of_plain {r : Request} (henters : r.enters = false) (hleaves : r.leaves = false)
    {f : Frame} (h : r.frame = .ok f) (c : Connection) (env : Environment) :
    (request r).on c env = (sendFrame f).on c env := by
  rw [request, h]
  cases r with
  | connect | connectWith => cases henters
  | disconnect => cases hleaves
  | _ => rfl

theorem follows_request {r : Request} (henters : r.enters = false) (hleaves : r.leaves = false) :
    Follows (Step Stream.Writes) (request r) := by
  intro c env
  cases hframe : r.frame with
  | error e => rw [on_request_of_error hframe]
  | ok f =>
    rw [on_request_of_plain henters hleaves hframe]
    exact follows_sendFrame f c env

/-- **What requests preserve**: what the steps keep, and what does not depend on whether the
connection is accepted and on its version. -/
theorem preserves_request {P : Connection → Environment → Prop}
    (hkeeps : Keeps (Step Stream.Step) P)
    (hfields : ∀ c env connected version, P c env → P { c with connected, version } env)
    (r : Request) : Operation.Preserves P (request r) := by
  intro c env h
  cases hframe : r.frame with
  | error e => rwa [on_request_of_error hframe]
  | ok f =>
    -- three kinds of request: one that enters, one that leaves, and one that only sends
    cases henters : r.enters with
    | true =>
      have hexchange := (follows_exchange f).preserves hkeeps c env h
      rw [on_request_of_enters henters hframe, on_handshake]
      generalize (exchange f).on c env = exchanged at hexchange ⊢
      obtain ⟨e | reply, c', env'⟩ := exchanged
      · exact hexchange
      · dsimp only
        -- a refusal leaves what the exchange left; an acceptance sets the two fields and tells the
        -- log
        cases verdict reply with
        | error e => exact hexchange
        | ok version? => exact hfields _ _ _ _ (hkeeps (.notify c' env' _) hexchange)
    | false =>
      have hsend := ((follows_sendFrame f).mono fun _ _ => .mono fun _ _ => .writes).preserves
        hkeeps c env h
      cases hleaves : r.leaves with
      | true =>
        rw [on_request_of_leaves hleaves hframe]
        generalize (sendFrame f).on c env = sent at hsend ⊢
        obtain ⟨e | ⟨⟩, c', env'⟩ := sent
        · exact hsend
        · -- the farewell was sent, so the connection is accepted no more
          exact hfields _ _ _ _ hsend
      | false =>
        rw [on_request_of_plain henters hleaves hframe]
        exact hsend

end Connection

end Stomp
