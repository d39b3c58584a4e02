import Stomp.Frame.Decoder
import Stomp.Network.Environment

/-!
# Streams

A stream is a socket with a buffer on either side. What has arrived and is not
yet read waits in `unread`; the socket is asked only when nothing waits there.
What is written waits in `unsent` until `flush` sends it all at once; whether
that succeeds or not, nothing of it is sent again.

A **deadline** covers reading from the moment it is set until it is set again,
however many times the socket has to be asked, and is looked at only then: what
waits in `unread` is served at any time.

Closing is final and done once. It empties both buffers, and from then on every
operation fails. It may happen while a read waits; that read fails too.
-/

namespace Stomp

open Network (Peer Socket Delivery)

/-- The number of bytes that a socket is asked for, unless told otherwise. -/
def Stream.defaultReadSize : Nat := 4096

/-- A socket and what waits on either side of it. -/
structure Stream where
  socket : Socket
  readSize : Nat := Stream.defaultReadSize
  /-- What has arrived and is not yet read. -/
  unread : Bytes := []
  /-- What is written and not yet sent. -/
  unsent : Bytes := []
  closed : Bool := false
  /-- The moment by which reading has to be over. -/
  deadline : Option Rat := none
deriving DecidableEq, Repr

namespace Stream

open Operation (subject change)

/-- Fails on a closed stream. -/
def requireOpen : Operation Stream Unit := do
  if (← subject).closed then throw (.connection .streamClosed)

/-- Keeps an act on the socket of the stream. -/
def act (a : Network.Act) : Operation Stream Unit := do
  Operation.act (some (← subject).socket.number) a

/-- Changes the peer at the other end. -/
def setPeer (peer : Peer) : Operation Stream Unit :=
  change fun s => { s with socket := { s.socket with peer } }

/-- Sets the deadline to so many seconds from now; without a number, reading may
take for ever. -/
def setReadTimeout (timeout : Option Rat) : Operation Stream Unit := do
  requireOpen
  let now := (← Operation.environment).clock
  change fun s => { s with deadline := timeout.map (now + ·) }

/-! ### Closing -/

/-- Closes the stream, unless it is closed already, and gives the reason if the
socket could not be given back in order. -/
def shut : Operation Stream (Option Text) := do
  if (← subject).closed then return none
  -- closed first: whatever happens to the socket, the stream stays closed
  change fun s => { s with closed := true, unread := [], unsent := [] }
  let peer := (← subject).socket.peer
  act .shutdown
  if let some reason := peer.shutdownFault then Operation.notify (.shutdownFailed reason)
  act .close
  return peer.closeFault

/-- Closes the stream. It is closed even if this fails. -/
def close : Operation Stream Unit := do
  if let some reason ← shut then throw (.socket reason)

/-! ### Reading -/

/-- The time left until the deadline. -/
def timeLeft : Operation Stream (Option Rat) := do
  match (← subject).deadline with
  | none => return none
  | some deadline =>
    let left := deadline - (← Operation.environment).clock
    if left ≤ 0 then throw (.timeout .deadlineExpired)
    return some left

/-- Asks the socket once. -/
def receive (wait : Option Rat) : Operation Stream Delivery := do
  let s ← subject
  let (delivery, elapsed, peer) := s.socket.peer.receive s.readSize wait
  act (.receive wait delivery)
  setPeer peer
  Operation.elapse elapsed
  return delivery

/-- Takes what the socket delivered. -/
def accept : Delivery → Operation Stream Unit
  | .chunk bytes => change fun s => { s with unread := s.unread ++ bytes }
  | .timedOut => throw (.timeout .noData)
  | .failed reason => throw (.connection (.readFailed reason))
  | .stalled => throw (.connection (.readFailed "stalled forever"))
  | .localClose => do
    -- the socket wakes up as if its peer had closed, so the cause is told apart here
    match ← shut with
    | some reason => throw (.connection (.readFailed reason))
    | none => throw (.connection .closedDuringRead)

/-- Gets more bytes to read; there are none if the peer has closed its end. -/
def fill : Operation Stream Unit := do
  requireOpen
  accept (← receive (← timeLeft))

/-- Reads at most so many bytes, at least one unless the peer has closed its
end. -/
def read (n : Nat) : Operation Stream Bytes := do
  if (← subject).unread.isEmpty then fill
  let unread := (← subject).unread
  change fun s => { s with unread := unread.drop n }
  return unread.take n

/-- Reads all that has arrived but the last so many bytes, which stay to be
read; asks the socket if nothing has. -/
def readAllBut (kept : Nat) : Operation Stream Bytes := do
  if (← subject).unread.isEmpty then fill
  let unread := (← subject).unread
  let count := unread.length - kept
  change fun s => { s with unread := unread.drop count }
  return unread.take count

/-- Reads one byte, unless the peer has closed its end. -/
def readByte : Operation Stream (Option UInt8) := do return (← read 1).head?

/-! ### Writing -/

/-- Puts bytes where `flush` will find them. -/
def write (bytes : Bytes) : Operation Stream Unit := do
  requireOpen
  change fun s => { s with unsent := s.unsent ++ bytes }

/-- Sends all that is written and not yet sent. -/
def flush : Operation Stream Unit := do
  requireOpen
  let s ← subject
  if s.unsent.isEmpty then return
  let (fault, peer) := s.socket.peer.send
  -- emptied before the outcome is known, so that no byte is ever sent twice
  change fun s => { s with unsent := [] }
  setPeer peer
  match fault with
  | none => act (.send s.unsent)
  | some reason =>
    act (.sendFailed s.unsent)
    throw (.connection (.writeFailed reason))

/-! ### A stream as a byte source -/

/-- The bytes that may still be read from a stream. -/
def pending (s : Stream) : Nat := s.unread.length + s.socket.peer.pending

@[simp] theorem on_requireOpen (s : Stream) (env : Environment) :
    requireOpen.on s env =
      if s.closed then (.error (.connection .streamClosed), s, env) else (.ok (), s, env) := by
  simp only [requireOpen, Operation.on_bind, Operation.on_subject]
  cases s.closed <;> rfl

@[simp] theorem on_act (a : Network.Act) (s : Stream) (env : Environment) :
    (act a).on s env =
      (.ok (), s, { env with acts := env.acts ++ [⟨env.clock, some s.socket.number, a⟩] }) := rfl

theorem on_timeLeft (s : Stream) (env : Environment) :
    timeLeft.on s env =
      match s.deadline with
      | none => (.ok none, s, env)
      | some deadline =>
        if deadline - env.clock ≤ 0 then (.error (.timeout .deadlineExpired), s, env)
        else (.ok (some (deadline - env.clock)), s, env) := by
  simp only [timeLeft, Operation.on_bind, Operation.on_subject]
  cases s.deadline with
  | none => rfl
  | some deadline =>
    simp only [Operation.on_bind, Operation.on_environment, Operation.on_ite]
    split <;> rfl

theorem on_receive (wait : Option Rat) (s : Stream) (env : Environment) :
    (receive wait).on s env =
      (.ok (s.socket.peer.receive s.readSize wait).1,
        { s with socket := { s.socket with
            peer := (s.socket.peer.receive s.readSize wait).2.2 } },
        { env with
            acts := env.acts ++ [⟨env.clock, some s.socket.number,
              .receive wait (s.socket.peer.receive s.readSize wait).1⟩]
            clock := env.clock + (s.socket.peer.receive s.readSize wait).2.1 }) := rfl

/-- Closing an open stream leaves nothing in its buffers; a fault of the shutdown is told to the
log, and a fault of giving the socket back is the result. -/
theorem on_shut (s : Stream) (env : Environment) :
    shut.on s env =
      if s.closed then (.ok none, s, env)
      else (.ok s.socket.peer.closeFault, { s with closed := true, unread := [], unsent := [] },
        { env with
            acts := env.acts ++ [⟨env.clock, some s.socket.number, .shutdown⟩,
              ⟨env.clock, some s.socket.number, .close⟩]
            notices := env.notices ++
              (s.socket.peer.shutdownFault.map Notice.shutdownFailed).toList }) := by
  simp only [shut, Operation.on_bind, Operation.on_subject]
  cases hclosed : s.closed with
  | true => rfl
  | false =>
    simp only [Bool.false_eq_true, if_false, Operation.on_bind, Operation.on_subject,
      Operation.on_change, on_act]
    cases s.socket.peer.shutdownFault with
    | none => simp [Operation.on_map, Except.map]
    | some reason => simp [Operation.on_bind, Operation.on_map, Except.map]

@[simp] theorem on_accept_chunk (bytes : Bytes) (s : Stream) (env : Environment) :
    (accept (.chunk bytes)).on s env = (.ok (), { s with unread := s.unread ++ bytes }, env) := rfl

@[simp] theorem on_accept_timedOut (s : Stream) (env : Environment) :
    (accept .timedOut).on s env = (.error (.timeout .noData), s, env) := rfl

@[simp] theorem on_accept_failed (reason : Text) (s : Stream) (env : Environment) :
    (accept (.failed reason)).on s env = (.error (.connection (.readFailed reason)), s, env) := rfl

@[simp] theorem on_accept_stalled (s : Stream) (env : Environment) :
    (accept .stalled).on s env =
      (.error (.connection (.readFailed "stalled forever")), s, env) := rfl

/-- A stream that is closed while it waits fails with the reason of the socket, if there is one. -/
theorem on_accept_localClose (s : Stream) (env : Environment) :
    (accept .localClose).on s env =
      match shut.on s env with
      | (.ok (some reason), after) => (.error (.connection (.readFailed reason)), after)
      | (.ok none, after) => (.error (.connection .closedDuringRead), after)
      | (.error e, after) => (.error e, after) := by
  simp only [accept, Operation.on_bind]
  rcases shut.on s env with ⟨e | reason, s', env'⟩
  · rfl
  · cases reason <;> rfl

/-- Getting bytes is asking the socket, within the time that is left. -/
theorem on_fill (s : Stream) (env : Environment) :
    fill.on s env =
      if s.closed then (.error (.connection .streamClosed), s, env)
      else
        match s.deadline with
        | none => (receive none >>= accept).on s env
        | some deadline =>
          if deadline - env.clock ≤ 0 then (.error (.timeout .deadlineExpired), s, env)
          else (receive (some (deadline - env.clock)) >>= accept).on s env := by
  simp only [fill, Operation.on_bind, on_requireOpen]
  cases hclosed : s.closed with
  | true => rfl
  | false =>
    simp only [Bool.false_eq_true, if_false, on_timeLeft]
    cases s.deadline with
    | none => rfl
    | some deadline =>
      by_cases hpast : deadline - env.clock ≤ 0
      · simp only [if_pos hpast]
      · simp only [if_neg hpast]

/-- Reading is getting bytes if none wait, and taking from those that wait. -/
theorem on_read (n : Nat) (s : Stream) (env : Environment) :
    (read n).on s env =
      match if s.unread.isEmpty then fill.on s env else (.ok (), s, env) with
      | (.ok (), s', env') =>
        (.ok (s'.unread.take n), { s' with unread := s'.unread.drop n }, env')
      | (.error e, s', env') => (.error e, s', env') := by
  simp only [read, Operation.on_bind, Operation.on_subject, Operation.on_ite, Operation.on_pure,
    Operation.on_change]
  by_cases hempty : s.unread.isEmpty
  · simp only [if_pos hempty]
    rcases fill.on s env with ⟨e | ⟨⟩, s', env'⟩ <;> rfl
  · simp only [if_neg hempty]

/-- Asking the socket keeps the number of bytes that may be read. -/
theorem pending_receive_accept {s after : Stream} {env env' : Environment} {wait : Option Rat}
    (h : (receive wait >>= accept).on s env = (.ok (), after, env')) :
    after.pending = s.pending := by
  simp only [Operation.on_bind, on_receive] at h
  rcases hreceive : s.socket.peer.receive s.readSize wait with ⟨delivery, elapsed, peer⟩
  simp only [hreceive] at h
  cases delivery with
  | chunk bytes =>
    have hpending := Network.Peer.pending_receive hreceive
    rw [on_accept_chunk] at h
    simp only [Prod.mk.injEq, true_and] at h
    obtain ⟨rfl, -⟩ := h
    simp only [pending, List.length_append]
    omega
  | timedOut => simp at h
  | failed reason => simp at h
  | stalled => simp at h
  | localClose =>
    rw [on_accept_localClose] at h
    split at h <;> simp at h

/-- Getting bytes from the socket keeps the number of bytes that may be read. -/
theorem pending_fill {s after : Stream} {env env' : Environment}
    (h : fill.on s env = (.ok (), after, env')) : after.pending = s.pending := by
  rw [on_fill] at h
  split at h
  · simp at h
  · split at h
    · exact pending_receive_accept h
    · split at h
      · simp at h
      · exact pending_receive_accept h

/-- What is read is pending no longer. -/
theorem pending_read {s after : Stream} {env env' : Environment} {n : Nat} {bytes : Bytes}
    (h : (read n).on s env = (.ok bytes, after, env')) :
    bytes.length + after.pending = s.pending := by
  rw [on_read] at h
  split at h
  · rename_i filled env'' hfill
    have hpending : filled.pending = s.pending := by
      split at hfill
      · exact pending_fill hfill
      · cases hfill
        rfl
    simp only [Prod.mk.injEq, Except.ok.injEq] at h
    obtain ⟨rfl, rfl, -⟩ := h
    rw [← hpending]
    simp only [pending, List.length_take, List.length_drop]
    omega
  · simp at h

/-- A stream hands over what it reads. -/
instance : ByteSource (Stream × Environment) where
  read n source := (read n).on source.1 source.2
  pending source := source.1.pending
  pending_read_lt n source b rest h := by
    have : (read n).on source.1 source.2 =
        (.ok (b :: rest), ((read n).on source.1 source.2).2.1,
          ((read n).on source.1 source.2).2.2) := by rw [← h]
    have := pending_read this
    simp only [List.length_cons] at this
    omega

/-- Reads one frame, as a version has it. -/
def readFrame (version : Text) : Operation Stream Frame := Operation.mk (Frame.read version)

/-- Reads the text of one frame, going on from a reader's state. -/
def readText (state : Frame.RawState) : Operation Stream Text :=
  Operation.mk (Frame.rawReader.run state)

end Stream

end Stomp
