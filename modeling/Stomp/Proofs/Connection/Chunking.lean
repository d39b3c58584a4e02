import Mathlib.Data.List.Basic
import Stomp.Proofs.Connection.InputBuffer
import Stomp.Proofs.Connection.Receiving
import Stomp.Proofs.Stream.Available

/-!
# Receiving whatever the pieces are

However the bytes for a connection are cut into pieces, how many of them wait in the buffer, and
how many the socket is asked for: calls that may wait for ever receive what the same calls receive
from one list of bytes, the bytes that are available on the stream.

* `Call.within` — a list of calls on bytes that are all at hand, as long as these are enough;
* `Call.agrees` — one call on a stream agrees with the call on a tape;
* `history_receiving` — the step lemma carried over a list of calls: the same outcomes, and the same
  bytes left; and a call that then asks for more than there is uses up all that is left and ends
  as what comes after the data says.
-/

namespace Stomp.Connection

open Network (Peer afterData DataNonempty)
open Operation (after deed history history_cons)
open Stomp.Stream (Agrees Listening)

namespace Call

/-- **Calls on bytes that are all at hand**: what comes of each, and what is left. There is nothing
to say if one of them asks for a byte past the end. -/
def within (version : Text) : List Call → Bytes → Option (List (Except Error Outcome) × Bytes)
  | [], bytes => some ([], bytes)
  | call :: calls, bytes =>
    match call.read version #[] (⟨bytes, false⟩ : Tape) with
    | (_, ⟨_, true⟩) => none
    | (outcome, ⟨left, false⟩) =>
      (within version calls left).map fun (outcomes, rest) => (outcome :: outcomes, rest)

variable {peer : Peer} {s : Stream}

/-- **What a call reads from a stream** agrees with what it reads from a tape. -/
theorem agrees (call : Call) (version : Text) (kept : Array UInt8) (h : Listening peer s)
    (env : Environment) :
    Agrees peer (call.read version kept (⟨s.available, false⟩ : Tape))
      (call.read version kept (s, env)) := by
  rcases call.read_cases version kept with ⟨e, hread⟩ | ⟨σ, α, r, state, f, -, hread⟩
  · rw [hread, hread]
    -- nothing is read at all
    exact
      { of_enough := fun _ => ⟨rfl, h, rfl⟩
        of_overrun := fun hoverrun => absurd hoverrun Bool.false_ne_true }
  · rw [hread, hread]
    exact (h.run r state env).map f

/-- Where a call asks for a byte past the end of a tape, it ends in an error of the protocol. -/
theorem exists_protocol_of_overrun (call : Call) (version : Text) (kept : Array UInt8)
    (bytes : Bytes)
    (h : (call.read version kept (⟨bytes, false⟩ : Tape)).2.overrun = true) :
    ∃ fault, (call.read version kept (⟨bytes, false⟩ : Tape)).1 = .error (.protocol fault) := by
  rcases call.read_cases version kept with ⟨e, hread⟩ | ⟨σ, α, r, state, f, hended, hread⟩
  · -- a call that reads nothing asks for nothing
    rw [hread] at h
    exact absurd h Bool.false_ne_true
  · rw [hread, r.run_tape] at h ⊢
    cases hscan : r.scan state bytes with
    | done result rest =>
      rw [hscan] at h
      exact absurd h Bool.false_ne_true
    | more next =>
      obtain ⟨fault, hfault⟩ := hended next
      exact ⟨fault, congrArg Except.error hfault⟩

end Call

/-- One call that may wait for ever agrees with the call on a tape, and keeps nothing. -/
theorem agrees_on_action (call : Call) {peer : Peer} {c : Connection} {s : Stream}
    (hstream : c.stream = some s) (hkept : c.inputBuffer = #[]) (env : Environment)
    (h : Listening peer (s.withTimeout none env.clock)) :
    ∃ outcome s' env', (call.action none).operation.on c env =
        (outcome, { c with stream := some s' }, env') ∧
      Agrees peer (call.read c.version #[] (⟨s.available, false⟩ : Tape)) (outcome, s', env') := by
  obtain ⟨outcome, s', env', hread, hon⟩ := call.on_action none hstream h.closed_eq env
  have hagrees := call.agrees c.version c.inputBuffer h env
  rw [hread, hkept] at hagrees
  refine ⟨outcome, s', _, by rw [hon, call.after_of_kept hkept], ?_⟩
  -- what is told to the log has no part in the agreement
  exact ⟨hagrees.of_enough, hagrees.of_overrun⟩

/-- A listening stream goes on without a limit as it is. -/
theorem listening_withTimeout {peer : Peer} {s : Stream} (h : Listening peer s) (now : Rat) :
    Listening peer (s.withTimeout none now) := by
  have hsame : s.withTimeout none now = s := by
    rw [Stream.withTimeout, Option.map_none, ← h.deadline_eq]
  rw [hsame]
  exact h

/-- **Runs.** As long as the bytes at hand are enough, calls that may wait for ever give what they
give on these, and the stream goes on listening with the same bytes left. -/
theorem history_of_within {peer : Peer} {calls : List Call} {c : Connection} {s : Stream}
    (hstream : c.stream = some s) (hkept : c.inputBuffer = #[]) (env : Environment)
    (h : ∀ now, Listening peer (s.withTimeout none now))
    {outcomes : List (Except Error Outcome)} {rest : Bytes}
    (hwithin : Call.within c.version calls s.available = some (outcomes, rest)) :
    (history Action.operation (calls.map (·.action none)) c env).map Deed.outcome = outcomes ∧
      ∃ s' env', after Action.operation (calls.map (·.action none)) c env =
          ({ c with stream := some s' }, env') ∧
        s'.available = rest ∧ ∀ now, Listening peer (s'.withTimeout none now) := by
  induction calls generalizing c s env outcomes with
  | nil =>
    rw [Call.within, Option.some.injEq, Prod.mk.injEq] at hwithin
    obtain ⟨rfl, rfl⟩ := hwithin
    exact ⟨rfl, s, env, by rw [← hstream]; rfl, rfl, h⟩
  | cons call calls ih =>
    obtain ⟨outcome, t, env', hon, hagrees⟩ :=
      agrees_on_action call hstream hkept env (h env.clock)
    rw [Call.within] at hwithin
    rcases hread : call.read c.version #[] (⟨s.available, false⟩ : Tape) with
      ⟨onTape, left, _ | _⟩
    · rw [hread] at hwithin hagrees
      obtain ⟨houtcome, ht, havailable⟩ := hagrees.of_enough rfl
      simp only at houtcome ht havailable
      simp only [Option.map_eq_some_iff, Prod.mk.injEq] at hwithin
      obtain ⟨⟨later, rest'⟩, hlater, hcons, rfl⟩ := hwithin
      rw [← havailable] at hlater
      -- the stream that the first call leaves is one to go on from
      obtain ⟨hrest, hafter⟩ :=
        ih (c := { c with stream := some t }) rfl hkept env'
          (listening_withTimeout ht) hlater
      rw [List.map_cons, history_cons, after, List.map_cons, deed, hon]
      refine ⟨?_, hafter⟩
      rw [← hcons, ← houtcome, ← hrest]
    · -- the bytes were not enough for the first call
      rw [hread] at hwithin
      cases hwithin

/-- **A stream is its bytes, whatever the pieces.** Let calls that may wait for ever be made on a
connection with an open stream, whatever waits in its buffer, however many bytes it asks the socket
for, and in whatever pieces data arrives. As long as the bytes that are available are enough for a
decoder that has them all at hand, every call gives what this decoder gives, and what it leaves is
what stays available. A call that then asks for a byte past the end uses up all that is left; if
the peer has closed its end the decoder's error of an end of input shows, and else the failure that
came after the data.

That no part of a frame text is kept at the beginning holds after every history
(`inputBuffer_after`). -/
theorem history_receiving {c : Connection} {s : Stream} (hstream : c.stream = some s)
    (hopen : s.closed = false) (hkept : c.inputBuffer = #[]) (hsize : 0 < s.readSize)
    (hdata : DataNonempty s.socket.peer.events) (env : Environment) {calls : List Call}
    {outcomes : List (Except Error Outcome)} {rest : Bytes}
    (hwithin : Call.within c.version calls s.available = some (outcomes, rest)) :
    (history Action.operation (calls.map (·.action none)) c env).map Deed.outcome = outcomes ∧
      ∃ s' env', after Action.operation (calls.map (·.action none)) c env =
          ({ c with stream := some s' }, env') ∧
        s'.available = rest ∧
        ∀ call : Call, (call.read c.version #[] (⟨rest, false⟩ : Tape)).2.overrun = true →
          ∃ fault s'' env'',
            (call.read c.version #[] (⟨rest, false⟩ : Tape)).1 = .error (.protocol fault) ∧
            (call.action none).operation.on { c with stream := some s' } env' =
              (.error (s.socket.peer.afterwards (.protocol fault)),
                { c with stream := some s'' }, env'') ∧
            s''.unread = [] ∧ s''.socket.peer.events = (afterData s.socket.peer.events).tail := by
  have hlistening : ∀ now, Listening s.socket.peer (s.withTimeout none now) := fun now =>
    { closed_eq := hopen
      deadline_eq := rfl
      readSize_pos := hsize
      data_nonempty := hdata
      afterData_eq := rfl
      closeFault_eq := rfl }
  obtain ⟨houtcomes, s', env', hafter, havailable, hs'⟩ :=
    history_of_within hstream hkept env hlistening hwithin
  refine ⟨houtcomes, s', env', hafter, havailable, fun call hoverrun => ?_⟩
  subst havailable
  -- the stream that is left still listens, so one more call agrees with the tape
  obtain ⟨fault, hfault⟩ := call.exists_protocol_of_overrun c.version #[] s'.available hoverrun
  obtain ⟨outcome, s'', env'', hon, hagrees⟩ :=
    agrees_on_action call (c := { c with stream := some s' }) rfl hkept env' (hs' env'.clock)
  obtain ⟨e, htape, hstream', hpast⟩ := hagrees.of_overrun hoverrun
  -- the error of the tape is the error of the protocol
  obtain rfl : Error.protocol fault = e := Except.error.inj (hfault.symm.trans htape)
  refine ⟨fault, s'', env'', hfault, ?_, hpast.unread_eq, hpast.events_eq⟩
  rw [hon]
  exact congrArg (fun o => (o, _, env'')) hstream'

/-- A connection to which a frame, a frame text and one byte more come in pieces, two bytes of which
are asked for at a time, before the line fails. -/
def inPieces : Connection where
  stream := some
    { socket :=
        { number := 0
          peer :=
            { events :=
                [.arrival 1 (.data [69, 73, 80, 84, 10, 10]), .arrival 0 (.data [0, 104]),
                  .arrival 2 (.data [105, 0, 10, 120]), .arrival 0 (.failure "reset")] } }
      readSize := 2
      unread := [82, 69, 67] }

theorem history_receiving_inPieces :
    let calls := [Call.frame, .text].map (·.action none)
    (history Action.operation calls inPieces {}).map Deed.outcome =
        [.ok (.frame { command := "RECEIPT" }), .ok (.text "hi")] ∧
      ∃ s' env', after Action.operation calls inPieces {} =
          ({ inPieces with stream := some s' }, env') ∧
        s'.available = [120] ∧
        ∃ s'' env'',
          (Call.frame.action none).operation.on { inPieces with stream := some s' } env' =
            (.error (.connection (.readFailed "reset")),
              { inPieces with stream := some s'' }, env'') ∧
          s''.unread = [] := by
  have hversion : Version.parse? inPieces.version = some ⟨[1, 0]⟩ := by decide +kernel
  have hframe : Call.frame.read inPieces.version #[]
      (⟨[82, 69, 67, 69, 73, 80, 84, 10, 10, 0, 104, 105, 0, 10, 120], false⟩ : Tape) =
        (.ok (.frame { command := "RECEIPT" }), ⟨[104, 105, 0, 10, 120], false⟩) := by
    simp only [Call.read, Frame.read, hversion, Reader.run_tape]
    decide +kernel
  have htext : Call.text.read inPieces.version #[] (⟨[104, 105, 0, 10, 120], false⟩ : Tape) =
      (.ok (.text "hi"), ⟨[120], false⟩) := by
    simp only [Call.read, Reader.run_tape]
    decide +kernel
  have hover : (Call.frame.read inPieces.version #[] (⟨[120], false⟩ : Tape)).2.overrun = true := by
    simp only [Call.read, Frame.read, hversion, Reader.run_tape]
    rfl
  have hwithin : Call.within inPieces.version [.frame, .text]
      [82, 69, 67, 69, 73, 80, 84, 10, 10, 0, 104, 105, 0, 10, 120] =
        some ([.ok (.frame { command := "RECEIPT" }), .ok (.text "hi")], [120]) := by
    simp only [Call.within, hframe, htext, Option.map_some]
  have hdata : DataNonempty
      [.arrival 1 (.data [69, 73, 80, 84, 10, 10]), .arrival 0 (.data [0, 104]),
        .arrival 2 (.data [105, 0, 10, 120]), .arrival 0 (.failure "reset")] := by
    intro delay bytes hmem hnil
    rw [hnil] at hmem
    simp at hmem
  obtain ⟨houtcomes, s', env', hafter, havailable, hpast⟩ :=
    history_receiving (c := inPieces) rfl rfl rfl (by decide) hdata {} hwithin
  obtain ⟨fault, s'', env'', -, hon, hunread, -⟩ := hpast .frame hover
  exact ⟨houtcomes, s', env', hafter, havailable, s'', env'', hon, hunread⟩

end Stomp.Connection
