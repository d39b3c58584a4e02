import Stomp.Proofs.Oblivious
import Stomp.Stream

/-!
# Streams do not look back

No operation of a stream looks at what was done to the network before it or told to the log: what it
gives and what it leaves of the stream depend on the stream and the clock alone, and so do the
records that it adds. For reading this is proved of one round and carried to the end of the reader
(`oblivious_run`).
-/

namespace Stomp.Stream

open Network (Delivery Peer)
open Operation (Oblivious oblivious_act oblivious_bind oblivious_change oblivious_clock
  oblivious_elapse oblivious_ite oblivious_notify oblivious_ofExcept oblivious_pure
  oblivious_subject oblivious_throw)

theorem oblivious_requireOpen : Oblivious requireOpen := by
  refine oblivious_bind oblivious_subject fun s => ?_
  exact oblivious_ite (oblivious_throw _) (oblivious_pure _)

theorem oblivious_streamAct (a : Network.Act) : Oblivious (act a) :=
  oblivious_bind oblivious_subject fun _ => oblivious_act _ a

theorem oblivious_setReadTimeout (timeout : Option Rat) : Oblivious (setReadTimeout timeout) := by
  refine oblivious_bind oblivious_requireOpen fun _ => ?_
  have hset : ∀ now : Rat, Oblivious
      (Operation.change fun s : Stream => { s with deadline := timeout.map (now + ·) }) :=
    fun now => oblivious_change _
  exact oblivious_clock hset

/-! ### Closing -/

theorem oblivious_shut : Oblivious shut := by
  intro s env past
  rw [on_shut, on_shut]
  -- the records stand behind the past in both runs, the clock being the same
  split
  · rfl
  · simp [Environment.behind]

theorem oblivious_close : Oblivious close := by
  refine oblivious_bind oblivious_shut fun fault => ?_
  cases fault with
  | none => exact oblivious_pure _
  | some reason => exact oblivious_throw _

/-! ### Reading -/

theorem oblivious_timeLeft : Oblivious timeLeft := by
  refine oblivious_bind oblivious_subject fun s => ?_
  cases s.deadline with
  | none => exact oblivious_pure _
  | some deadline =>
    have hleft : ∀ now : Rat, Oblivious (do
        if deadline - now ≤ 0 then throw (.timeout .deadlineExpired)
        return some (deadline - now) : Operation Stream (Option Rat)) := by
      intro now
      refine oblivious_ite ?_ (oblivious_pure _)
      exact oblivious_bind (oblivious_throw _) fun _ => oblivious_pure _
    exact oblivious_clock hleft

theorem oblivious_receive (wait : Option Rat) : Oblivious (receive wait) := by
  refine oblivious_bind oblivious_subject fun s => ?_
  refine oblivious_bind (oblivious_streamAct _) fun _ => ?_
  refine oblivious_bind (oblivious_change _) fun _ => ?_
  exact oblivious_bind (oblivious_elapse _) fun _ => oblivious_pure _

theorem oblivious_accept (delivery : Delivery) : Oblivious (accept delivery) := by
  cases delivery with
  | chunk bytes => exact oblivious_change _
  | localClose =>
    refine oblivious_bind oblivious_shut fun fault => ?_
    cases fault with
    | none => exact oblivious_throw _
    | some reason => exact oblivious_throw _
  | failed reason => exact oblivious_throw _
  | timedOut => exact oblivious_throw _
  | stalled => exact oblivious_throw _

theorem oblivious_fill : Oblivious fill := by
  refine oblivious_bind oblivious_requireOpen fun _ => ?_
  refine oblivious_bind oblivious_timeLeft fun wait => ?_
  exact oblivious_bind (oblivious_receive wait) oblivious_accept

theorem oblivious_read (n : Nat) : Oblivious (read n) := by
  intro s env past
  rw [on_read, on_read]
  -- whether the socket is asked depends on the buffer alone
  by_cases hempty : s.unread.isEmpty
  · rw [if_pos hempty, if_pos hempty, oblivious_fill s env past]
    rcases fill.on s env with ⟨e | ⟨⟩, s', env'⟩ <;> rfl
  · rw [if_neg hempty, if_neg hempty]

/-- **Whatever a reader reads** from a stream, it does not look back. -/
theorem oblivious_run {σ α : Type} (r : Reader σ α) (state : σ) :
    Oblivious (Operation.mk (r.run state) : Operation Stream α) := by
  intro s env past
  -- the induction is on the bytes that may still arrive, as each round reads some
  induction hpending : s.pending using Nat.strongRecOn generalizing state s env with
  | ind pending ih =>
    subst hpending
    have hsource : ∀ env, ByteSource.read (r.demand state) (s, env) =
        (read (r.demand state)).on s env := fun _ => rfl
    rw [Operation.on_mk, Operation.on_mk, r.run_eq, r.run_eq state (s, env), hsource, hsource,
      oblivious_read _ s env past]
    rcases hon : (read (r.demand state)).on s env with ⟨e | _ | ⟨b, rest⟩, s', env'⟩
    · rfl
    · rfl
    · dsimp only
      cases r.scan state (b :: rest) with
      | done result unused => rfl
      -- the next round begins with the same stream and clock in both runs
      | more next =>
        have hfewer := pending_read hon
        rw [List.length_cons] at hfewer
        exact ih s'.pending (by omega) next s' env' rfl

theorem oblivious_readFrame (version : Text) : Oblivious (readFrame version) := by
  intro s env past
  unfold readFrame Frame.read
  cases Version.parse? version with
  | none => rfl
  | some v => exact oblivious_run (Frame.decoder v.dialect) .start s env past

theorem oblivious_readText (state : Frame.RawState) : Oblivious (readText state) :=
  oblivious_run Frame.rawReader state

/-! ### Writing -/

theorem oblivious_write (bytes : Bytes) : Oblivious (write bytes) :=
  oblivious_bind oblivious_requireOpen fun _ => oblivious_change _

theorem oblivious_flush : Oblivious flush := by
  refine oblivious_bind oblivious_requireOpen fun _ => ?_
  refine oblivious_bind oblivious_subject fun s => ?_
  refine oblivious_ite (oblivious_pure _) ?_
  -- whether it can send is known to the socket, not to the past
  rcases s.socket.peer.send with ⟨fault, peer⟩
  refine oblivious_bind (oblivious_change _) fun _ => ?_
  refine oblivious_bind (oblivious_change _) fun _ => ?_
  cases fault with
  | none => exact oblivious_streamAct _
  | some reason => exact oblivious_bind (oblivious_streamAct _) fun _ => oblivious_throw _

end Stomp.Stream
