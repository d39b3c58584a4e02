import Stomp.Proofs.Stream.Independence
import Stomp.Proofs.Stream.Steps

/-!
# A closed stream is dead

A stream that was closed is **dead**: nothing waits on either side of it, and there is no way back.
Every operation on it fails, with one and the same error, before it does anything (`RefusesDead`).

A stream can also be closed from another side while an operation waits for its socket. What the
socket delivers then looks like the end of the input, and a reader would take it for that. But the
operation **dies with the stream** (`DiesWith`): it fails with an error of the connection, wherever
the reader was, and the stream is left dead, whatever was the matter with its socket.

Most operations are put together from others, and both properties are kept by that
(`refusesDead_bind`, `diesWith_bind`). Reading goes down to one request for data
(`ended_receive_accept`), and up again over one read to the rounds of a reader (`diesWith_run`).
-/

namespace Stomp

open Network (Delivery Entry)

namespace Network

/-- **Cut short**: while a socket was waited for, its own side closed it. -/
def CutShort (acts : List Entry) : Prop := ∃ e ∈ acts, ∃ wait, e.act = .receive wait .localClose

theorem cutShort_append {acts later : List Entry} :
    CutShort (acts ++ later) ↔ CutShort acts ∨ CutShort later := by
  simp only [CutShort, List.mem_append, or_and_right, exists_or]

end Network

open Network (CutShort cutShort_append)

namespace Stream

variable {α β : Type}

/-- **A dead stream** is closed, and nothing waits on either side of it. -/
structure Dead (s : Stream) : Prop where
  closed_eq : s.closed = true
  unread_eq : s.unread = []
  unsent_eq : s.unsent = []

/-! ### Taking from what waits -/

/-- Reads so many of the bytes that wait; asks the socket if none do. -/
def taking (count : Bytes → Nat) : Operation Stream Bytes := do
  if (← Operation.subject).unread.isEmpty then fill
  let unread := (← Operation.subject).unread
  Operation.change fun s => { s with unread := unread.drop (count unread) }
  return unread.take (count unread)

theorem read_eq_taking (n : Nat) : read n = taking fun _ => n := rfl

theorem readAllBut_eq_taking (kept : Nat) :
    readAllBut kept = taking fun unread => unread.length - kept := rfl

theorem on_taking (count : Bytes → Nat) (s : Stream) (env : Environment) :
    (taking count).on s env =
      match if s.unread.isEmpty then fill.on s env else (.ok (), s, env) with
      | (.ok (), s', env') =>
        (.ok (s'.unread.take (count s'.unread)),
          { s' with unread := s'.unread.drop (count s'.unread) }, env')
      | (.error e, s', env') => (.error e, s', env') := by
  simp only [taking, Operation.on_bind, Operation.on_subject, Operation.on_ite, Operation.on_pure,
    Operation.on_change]
  -- where bytes wait, the socket is not asked
  by_cases hempty : s.unread.isEmpty
  · simp only [if_pos hempty]
    rcases fill.on s env with ⟨e | ⟨⟩, s', env'⟩ <;> rfl
  · simp only [if_neg hempty]

/-! ### On a dead stream -/

/-- **An operation refuses dead streams**: it fails, and does nothing else. -/
def RefusesDead (op : Operation Stream α) : Prop :=
  ∀ s env, s.Dead → op.on s env = (.error (.connection .streamClosed), s, env)

theorem refusesDead_requireOpen : RefusesDead requireOpen := by
  intro s env hdead
  rw [on_requireOpen, if_pos hdead.closed_eq]

/-- After an operation that refuses nothing is done. -/
theorem refusesDead_bind {op : Operation Stream α} {next : α → Operation Stream β}
    (hop : RefusesDead op) : RefusesDead (op >>= next) := by
  intro s env hdead
  rw [Operation.on_bind, hop s env hdead]

theorem refusesDead_setReadTimeout (timeout : Option Rat) : RefusesDead (setReadTimeout timeout) :=
  refusesDead_bind refusesDead_requireOpen

theorem refusesDead_write (bytes : Bytes) : RefusesDead (write bytes) :=
  refusesDead_bind refusesDead_requireOpen

theorem refusesDead_flush : RefusesDead flush := refusesDead_bind refusesDead_requireOpen

theorem refusesDead_fill : RefusesDead fill := refusesDead_bind refusesDead_requireOpen

/-- Nothing waits, so the socket would have to be asked. -/
theorem refusesDead_taking (count : Bytes → Nat) : RefusesDead (taking count) := by
  intro s env hdead
  rw [on_taking, if_pos (List.isEmpty_iff.mpr hdead.unread_eq), refusesDead_fill s env hdead]

theorem refusesDead_read (n : Nat) : RefusesDead (read n) := by
  rw [read_eq_taking]
  exact refusesDead_taking _

theorem refusesDead_readAllBut (kept : Nat) : RefusesDead (readAllBut kept) := by
  rw [readAllBut_eq_taking]
  exact refusesDead_taking _

theorem refusesDead_readByte : RefusesDead readByte := refusesDead_bind (refusesDead_read 1)

/-- A reader is never served. -/
theorem refusesDead_run {σ : Type} (r : Reader σ α) (state : σ) :
    RefusesDead (Operation.mk (r.run state) : Operation Stream α) := by
  rw [run_eq_bind]
  exact refusesDead_bind (refusesDead_read _)

theorem refusesDead_readFrame {version : Text} {v : Version}
    (h : Version.parse? version = some v) : RefusesDead (readFrame version) := by
  rw [readFrame_of_eq_some h]
  exact refusesDead_run _ _

/-- Once closed, a stream is not closed again. -/
theorem on_close_of_dead {s : Stream} (hdead : s.Dead) (env : Environment) :
    close.on s env = (.ok (), s, env) := by
  rw [close, Operation.on_bind, on_shut, if_pos hdead.closed_eq]
  rfl

/-! ### While a stream is closed -/

/-- **What comes of an operation on an open stream**: the stream is closed exactly if the socket was
closed while it was waited for, and then it is dead and the operation has failed. -/
structure Ended (start : Environment) (done : Except Error α × Stream × Environment) : Prop where
  closed_iff : ∃ acts, done.2.2.acts = start.acts ++ acts ∧
    (done.2.1.closed = true ↔ CutShort acts)
  dead : done.2.1.closed = true → done.2.1.Dead
  failed : done.2.1.closed = true → ∃ fault, done.1 = .error (.connection fault)

/-- **An operation dies with the stream**: if the stream is closed under it, it fails. -/
def DiesWith (op : Operation Stream α) : Prop :=
  ∀ s env, s.closed = false → Ended env (op.on s env)

section Ended

variable {s : Stream} {env : Environment}

/-- The socket is not waited for, and the stream stays open. -/
theorem ended_of_open {done : Except Error α × Stream × Environment}
    (hopen : done.2.1.closed = false) {acts : List Entry}
    (hacts : done.2.2.acts = env.acts ++ acts) (hcut : ¬ CutShort acts) : Ended env done := by
  have hnot : ¬ done.2.1.closed = true := by simp [hopen]
  exact ⟨⟨acts, hacts, iff_of_false hnot hcut⟩, fun h => absurd h hnot, fun h => absurd h hnot⟩

theorem ended_of_unchanged (hopen : s.closed = false) (outcome : Except Error α) :
    Ended env (outcome, s, env) :=
  ended_of_open hopen (List.append_nil _).symm (by simp [CutShort])

/-- What succeeds leaves the stream open. -/
theorem Ended.open_of_ok {a : α} {s' : Stream} {env' : Environment}
    (h : Ended env (.ok a, s', env')) : s'.closed = false := by
  refine Bool.eq_false_iff.mpr fun hclosed => ?_
  obtain ⟨fault, hfault⟩ := h.failed hclosed
  cases hfault

theorem Ended.map {done : Except Error α × Stream × Environment} (h : Ended env done) (f : α → β) :
    Ended env (done.1.map f, done.2) where
  closed_iff := h.closed_iff
  dead := h.dead
  failed hclosed := by
    obtain ⟨fault, hfault⟩ := h.failed hclosed
    exact ⟨fault, by rw [hfault]; rfl⟩

/-- A failure is passed on as it is. -/
theorem Ended.of_error {e : Error} {s' : Stream} {env' : Environment}
    (h : Ended env ((.error e : Except Error α), s', env')) :
    Ended env ((.error e : Except Error β), s', env') where
  closed_iff := h.closed_iff
  dead := h.dead
  failed hclosed := by
    obtain ⟨fault, hfault⟩ := h.failed hclosed
    cases hfault
    exact ⟨fault, rfl⟩

/-- One operation after another: the second one begins on an open stream, if at all. -/
theorem Ended.bind {op : Operation Stream α} {next : α → Operation Stream β}
    (hop : Ended env (op.on s env))
    (hnext : ∀ a s' env', op.on s env = (.ok a, s', env') → s'.closed = false →
      Ended env' ((next a).on s' env')) : Ended env ((op >>= next).on s env) := by
  rw [Operation.on_bind]
  rcases hon : op.on s env with ⟨e | a, s', env'⟩
  · -- the first one failed, and the second one is never begun
    rw [hon] at hop
    exact hop.of_error
  · rw [hon] at hop
    have hopen := hop.open_of_ok
    have hlast := hnext a s' env' hon hopen
    obtain ⟨first, hfirst, hcut⟩ := hop.closed_iff
    obtain ⟨later, hlater, hiff⟩ := hlast.closed_iff
    -- the first one was not cut short, so it depends on the second
    have hwhole : CutShort (first ++ later) ↔ CutShort later := by
      rw [cutShort_append, ← hcut, hopen]
      simp
    refine ⟨⟨first ++ later, ?_, hiff.trans hwhole.symm⟩, hlast.dead, hlast.failed⟩
    rw [hlater, hfirst, List.append_assoc]

end Ended

theorem diesWith_pure (a : α) : DiesWith (pure a) := fun _ _ hopen => ended_of_unchanged hopen _

theorem diesWith_throw (e : Error) : DiesWith (throw e : Operation Stream α) :=
  fun _ _ hopen => ended_of_unchanged hopen _

theorem diesWith_ofExcept (outcome : Except Error α) :
    DiesWith (Operation.ofExcept outcome) := by
  intro s env hopen
  rw [Operation.on_ofExcept]
  exact ended_of_unchanged hopen _

theorem diesWith_bind {op : Operation Stream α} {next : α → Operation Stream β}
    (hop : DiesWith op) (hnext : ∀ a, DiesWith (next a)) : DiesWith (op >>= next) :=
  fun s env hopen => (hop s env hopen).bind fun a s' env' _ hopen' => hnext a s' env' hopen'

theorem diesWith_setReadTimeout (timeout : Option Rat) : DiesWith (setReadTimeout timeout) := by
  intro s env hopen
  rw [setReadTimeout, Operation.on_bind, on_requireOpen, if_neg (by simp [hopen])]
  exact ended_of_open hopen (List.append_nil _).symm (by simp [CutShort])

theorem diesWith_write (bytes : Bytes) : DiesWith (write bytes) := by
  intro s env hopen
  rw [on_write, if_neg (by simp [hopen])]
  exact ended_of_open hopen (List.append_nil _).symm (by simp [CutShort])

/-- Sending does not wait for anything to come. -/
theorem diesWith_flush : DiesWith flush := by
  intro s env hopen
  rw [on_flush, if_neg (by simp [hopen])]
  split
  · exact ended_of_unchanged hopen _
  · refine ended_of_open hopen rfl ?_
    unfold sendAct
    split <;> simp [CutShort]

/-! ### Reading -/

/-- **One request for data.** If the socket is closed while it is waited for, the request fails,
with the reason of the socket if that fails as well, and not as if the peer had closed its end. -/
theorem ended_receive_accept (wait : Option Rat) {s : Stream} (hopen : s.closed = false)
    (env : Environment) : Ended env ((receive wait >>= accept).on s env) := by
  rw [Operation.on_bind, on_receive]
  rcases s.socket.peer.receive s.readSize wait with ⟨delivery, elapsed, peer⟩
  cases delivery with
  -- the socket is shut with the stream; it may give a reason of its own
  | localClose =>
    simp only [on_accept_localClose, on_shut, hopen, Bool.false_eq_true, if_false]
    cases peer.closeFault with
    | none =>
      exact ⟨⟨_, List.append_assoc .., by simp [CutShort]⟩, fun _ => ⟨rfl, rfl, rfl⟩,
        fun _ => ⟨_, rfl⟩⟩
    | some reason =>
      exact ⟨⟨_, List.append_assoc .., by simp [CutShort]⟩, fun _ => ⟨rfl, rfl, rfl⟩,
        fun _ => ⟨_, rfl⟩⟩
  -- whatever else is delivered, nobody has closed the stream
  | _ => exact ended_of_open hopen rfl (by simp [CutShort])

theorem diesWith_fill : DiesWith fill := by
  intro s env hopen
  rw [on_fill, if_neg (by simp [hopen])]
  cases s.deadline with
  | none => exact ended_receive_accept _ hopen env
  | some deadline =>
    dsimp only
    split
    · -- the deadline has come, so the socket is not asked
      exact ended_of_unchanged hopen _
    · exact ended_receive_accept _ hopen env

theorem diesWith_taking (count : Bytes → Nat) : DiesWith (taking count) := by
  intro s env hopen
  have hfilled : Ended env
      (if s.unread.isEmpty then fill.on s env else (.ok (), s, env)) := by
    split
    · exact diesWith_fill s env hopen
    · exact ended_of_unchanged hopen _
  rw [on_taking]
  generalize (if s.unread.isEmpty then fill.on s env else (.ok (), s, env)) = filled at hfilled ⊢
  obtain ⟨e | ⟨⟩, s', env'⟩ := filled
  · exact hfilled.of_error
  · -- bytes are taken from the buffer, and that closes nothing
    have hopen' := hfilled.open_of_ok
    obtain ⟨acts, hacts, hcut⟩ := hfilled.closed_iff
    exact ended_of_open hopen' hacts fun h => by simpa [hopen'] using hcut.mpr h

theorem diesWith_read (n : Nat) : DiesWith (read n) := by
  rw [read_eq_taking]
  exact diesWith_taking _

theorem diesWith_readAllBut (kept : Nat) : DiesWith (readAllBut kept) := by
  rw [readAllBut_eq_taking]
  exact diesWith_taking _

theorem diesWith_readByte : DiesWith readByte :=
  diesWith_bind (diesWith_read 1) fun _ => diesWith_pure _

/-- **Wherever a reader is**, it dies with the stream. -/
theorem diesWith_run {σ : Type} (r : Reader σ α) (state : σ) :
    DiesWith (Operation.mk (r.run state) : Operation Stream α) := by
  intro s env hopen
  -- the induction is on the bytes that may still arrive, as each round reads some
  induction hpending : s.pending using Nat.strongRecOn generalizing state s env with
  | ind pending ih =>
    subst hpending
    rw [run_eq_bind]
    refine (diesWith_read _ s env hopen).bind fun block s₁ env₁ hon hopen₁ => ?_
    cases block with
    -- the peer has closed its end, which the reader takes for an error
    | nil => exact diesWith_throw _ s₁ env₁ hopen₁
    | cons b rest =>
      -- a block that is not empty leaves fewer of them
      have hfewer := pending_read hon
      rw [List.length_cons] at hfewer
      rw [goOn]
      cases r.scan state (b :: rest) with
      | done result unused => exact diesWith_ofExcept _ s₁ env₁ hopen₁
      | more next => exact ih s₁.pending (by omega) next s₁ env₁ hopen₁ rfl

theorem diesWith_readFrame (version : Text) : DiesWith (readFrame version) := by
  cases hversion : Version.parse? version with
  | none =>
    rw [readFrame_of_eq_none hversion]
    exact diesWith_throw _
  | some v =>
    rw [readFrame_of_eq_some hversion]
    exact diesWith_run _ _

/-- Closing an open stream leaves it dead, even if the socket fails. -/
theorem dead_close {s : Stream} (hopen : s.closed = false) (env : Environment) :
    (close.on s env).2.1.Dead := by
  rw [close, Operation.on_bind, on_shut, if_neg (by simp [hopen])]
  dsimp only
  cases s.socket.peer.closeFault <;> exact ⟨rfl, rfl, rfl⟩

end Stream

end Stomp
