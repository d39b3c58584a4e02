import Stomp.Proofs.Operation
import Stomp.Stream

/-!
# What can happen to a stream

Whatever is done with a stream is a chain of a few kinds of steps. Reading and closing consist of
`Reads`: bytes are taken from the buffer or put there, the deadline is set, the socket is asked, or
the stream is shut. Writing consists of `Writes`: bytes are put where `flush` finds them, or all of
these are sent. The socket is touched on an open stream only, and a stream that is shut stays shut.

* `follows_readFrame`, `follows_readText`, `follows_setReadTimeout`, `follows_close` — these follow
  `Reads`;
* `on_write`, `on_flush` — what writing comes to.
-/

namespace Stomp.Stream

open Network (Delivery Peer)
open Operation (Follows Keeps follows_bind follows_of_step follows_of_unchanged follows_pure
  follows_throw)

/-- One step of reading from a stream or of closing it. -/
inductive Reads : Stream × Environment → Stream × Environment → Prop
  /-- The bytes that wait to be read change. -/
  | buffer (s : Stream) (env : Environment) (unread : Bytes) :
    Reads (s, env) ({ s with unread }, env)
  | limit (s : Stream) (env : Environment) (deadline : Option Rat) :
    Reads (s, env) ({ s with deadline }, env)
  /-- The socket is asked for bytes. -/
  | ask (s : Stream) (env : Environment) (wait : Option Rat) {delivery : Delivery} {elapsed : Rat}
    {peer : Peer} (hopen : s.closed = false)
    (hreceive : s.socket.peer.receive s.readSize wait = (delivery, elapsed, peer)) :
    Reads (s, env) ({ s with socket := { s.socket with peer } },
      { env with
          acts := env.acts ++ [⟨env.clock, some s.socket.number, .receive wait delivery⟩]
          clock := env.clock + elapsed })
  | shut (s : Stream) (env : Environment) (hopen : s.closed = false) :
    Reads (s, env) ({ s with closed := true, unread := [], unsent := [] },
      { env with
          acts := env.acts ++ [⟨env.clock, some s.socket.number, .shutdown⟩,
            ⟨env.clock, some s.socket.number, .close⟩]
          notices := env.notices ++
            (s.socket.peer.shutdownFault.map Notice.shutdownFailed).toList })

/-- What an attempt to send comes to. -/
def sendAct (peer : Peer) (bytes : Bytes) : Network.Act :=
  match peer.send.1 with
  | none => .send bytes
  | some _ => .sendFailed bytes

/-- One step of writing to a stream. -/
inductive Writes : Stream × Environment → Stream × Environment → Prop
  /-- The bytes that wait to be sent grow. -/
  | stage (s : Stream) (env : Environment) (bytes : Bytes) (hopen : s.closed = false) :
    Writes (s, env) ({ s with unsent := s.unsent ++ bytes }, env)
  /-- All that wait are sent, or cannot be sent. -/
  | send (s : Stream) (env : Environment) (hopen : s.closed = false) :
    Writes (s, env)
      ({ s with unsent := [], socket := { s.socket with peer := s.socket.peer.send.2 } },
        { env with
            acts := env.acts ++
              [⟨env.clock, some s.socket.number, sendAct s.socket.peer s.unsent⟩] })

/-- One step of whatever is done with a stream. -/
inductive Step : Stream × Environment → Stream × Environment → Prop
  | reads {x y : Stream × Environment} (h : Reads x y) : Step x y
  | writes {x y : Stream × Environment} (h : Writes x y) : Step x y

/-- No step changes the socket for another. -/
theorem Step.number_eq {s s' : Stream} {env env' : Environment} (h : Step (s, env) (s', env')) :
    s'.socket.number = s.socket.number := by
  cases h with
  | reads h => cases h <;> rfl
  | writes h => cases h <;> rfl

/-- Acts are kept for good. -/
theorem keeps_acts (before : List Network.Entry) : Keeps Step fun _ env => before <+: env.acts := by
  intro s env s' env' hstep h
  cases hstep with
  | reads hreads =>
    cases hreads with
    | buffer | limit => exact h
    | ask | shut => exact h.trans (List.prefix_append _ _)
  | writes hwrites =>
    cases hwrites with
    | stage => exact h
    | send => exact h.trans (List.prefix_append _ _)

/-! ### Reading and closing -/

theorem follows_requireOpen {R : Stream × Environment → Stream × Environment → Prop} :
    Follows R requireOpen :=
  follows_of_unchanged fun s env => by
    rw [on_requireOpen]
    split <;> rfl

theorem follows_setReadTimeout (timeout : Option Rat) : Follows Reads (setReadTimeout timeout) := by
  refine follows_bind follows_requireOpen fun _ => ?_
  refine follows_bind (fun _ _ => .refl) fun env => ?_
  exact fun s env => .single (.limit s env _)

theorem follows_shut : Follows Reads shut := by
  refine follows_of_step fun s env => ?_
  rw [on_shut]
  by_cases hclosed : s.closed = true
  · -- a stream is shut once, and after that nothing is done
    exact .inl (by rw [if_pos hclosed])
  · rw [if_neg hclosed]
    exact .inr (.shut s env (Bool.eq_false_iff.mpr hclosed))

theorem follows_close : Follows Reads close := by
  refine follows_bind follows_shut fun fault => ?_
  cases fault with
  | none => exact follows_pure _
  | some reason => exact follows_throw _

theorem follows_accept (delivery : Delivery) : Follows Reads (accept delivery) := by
  cases delivery with
  | chunk bytes => exact fun s env => .single (.buffer s env _)
  -- only this delivery shuts the stream; others fill the buffer or do nothing
  | localClose =>
    refine follows_bind follows_shut fun fault => ?_
    cases fault with
    | none => exact follows_throw _
    | some reason => exact follows_throw _
  | failed reason => exact follows_throw _
  | timedOut => exact follows_throw _
  | stalled => exact follows_throw _

/-- On an open stream, asking the socket and taking what it delivers. -/
theorem reaches_receive_accept (wait : Option Rat) {s : Stream} (hopen : s.closed = false)
    (env : Environment) :
    Relation.ReflTransGen Reads (s, env) ((receive wait >>= accept).on s env).2 := by
  rw [Operation.on_bind, on_receive]
  -- asking is one step, and what is delivered is taken in some more
  exact .head (.ask s env wait hopen rfl) (follows_accept _ _ _)

theorem follows_fill : Follows Reads fill := by
  intro s env
  rw [on_fill]
  by_cases hclosed : s.closed = true
  · rw [if_pos hclosed]
  · have hopen := Bool.eq_false_iff.mpr hclosed
    rw [if_neg hclosed]
    cases s.deadline with
    | none => exact reaches_receive_accept _ hopen env
    | some deadline =>
      dsimp only
      -- with the deadline gone the socket is not asked
      split
      · exact .refl
      · exact reaches_receive_accept _ hopen env

theorem follows_read (n : Nat) : Follows Reads (read n) := by
  intro s env
  rw [on_read]
  -- first the buffer is filled if it is empty
  have hfilled : Relation.ReflTransGen Reads (s, env)
      (if s.unread.isEmpty then fill.on s env else (.ok (), s, env)).2 := by
    split
    · exact follows_fill s env
    · exact .refl
  generalize (if s.unread.isEmpty then fill.on s env else (.ok (), s, env)) = filled at hfilled ⊢
  obtain ⟨_ | _, s', env'⟩ := filled
  · exact hfilled
  · -- then bytes are taken from it, which is one step more
    exact hfilled.tail (.buffer s' env' _)

/-- **Whatever a reader reads** from a stream is read in steps of the stream. -/
theorem follows_run {σ α : Type} (r : Reader σ α) (state : σ) :
    Follows Reads (Operation.mk (r.run state)) := by
  intro s env
  -- the induction is on the bytes that may still arrive, as each round reads some
  induction hpending : s.pending using Nat.strongRecOn generalizing state s env with
  | ind pending ih =>
    subst hpending
    have hread := follows_read (r.demand state) s env
    have hsource : ByteSource.read (r.demand state) (s, env) =
        (read (r.demand state)).on s env := rfl
    rw [Operation.on_mk, r.run_eq, hsource]
    rcases hon : (read (r.demand state)).on s env with ⟨e | _ | ⟨b, rest⟩, left⟩
    · -- the read failed, or the bytes end: this round is the last in either case
      rwa [hon] at hread
    · rwa [hon] at hread
    · rw [hon] at hread
      cases hscan : r.scan state (b :: rest) with
      | done result unused =>
        simp only [hscan]
        exact hread
      | more next =>
        simp only [hscan]
        have hfewer := ByteSource.pending_read_lt (r.demand state) (s, env) b rest
          (congrArg Prod.fst (hsource.trans hon))
        rw [hsource, hon] at hfewer
        exact hread.trans (ih _ hfewer next left.1 left.2 rfl)

theorem follows_readFrame (version : Text) : Follows Reads (readFrame version) := by
  intro s env
  unfold readFrame Frame.read
  cases Version.parse? version with
  | none => exact .refl
  | some v => exact follows_run (Frame.decoder v.dialect) .start s env

theorem follows_readText (state : Frame.RawState) : Follows Reads (readText state) :=
  follows_run Frame.rawReader state

/-! ### Writing -/

theorem on_write (bytes : Bytes) (s : Stream) (env : Environment) :
    (write bytes).on s env =
      if s.closed then (.error (.connection .streamClosed), s, env)
      else (.ok (), { s with unsent := s.unsent ++ bytes }, env) := by
  rw [write, Operation.on_bind, on_requireOpen]
  by_cases hclosed : s.closed = true
  · rw [if_pos hclosed, if_pos hclosed]
  · rw [if_neg hclosed, if_neg hclosed]
    rfl

/-- On an open stream, and on no other, writing only adds to what waits. -/
theorem write_eq_ok_iff {bytes : Bytes} {s s' : Stream} {env env' : Environment} :
    (write bytes).on s env = (.ok (), s', env') ↔
      s.closed = false ∧ s' = { s with unsent := s.unsent ++ bytes } ∧ env' = env := by
  rw [on_write]
  cases s.closed <;> simp [eq_comm]

/-- Flushing an open stream sends all that waits, if anything does, and whether that succeeds or
not nothing waits afterwards. -/
theorem on_flush (s : Stream) (env : Environment) :
    flush.on s env =
      if s.closed then (.error (.connection .streamClosed), s, env)
      else if s.unsent = [] then (.ok (), s, env)
      else
        (match s.socket.peer.send.1 with
          | none => .ok ()
          | some reason => .error (.connection (.writeFailed reason)),
        { s with unsent := [], socket := { s.socket with peer := s.socket.peer.send.2 } },
        { env with
            acts := env.acts ++
              [⟨env.clock, some s.socket.number, sendAct s.socket.peer s.unsent⟩] }) := by
  rw [flush, Operation.on_bind, on_requireOpen]
  by_cases hclosed : s.closed = true
  · rw [if_pos hclosed, if_pos hclosed]
  rw [if_neg hclosed, if_neg hclosed]
  simp only [Operation.on_bind, Operation.on_subject, List.isEmpty_iff, Operation.on_ite]
  -- where nothing waits, nothing is sent and no act is recorded
  by_cases hempty : s.unsent = []
  · rw [if_pos hempty, if_pos hempty]
    rfl
  · rw [if_neg hempty, if_neg hempty, sendAct]
    cases s.socket.peer.send.1 <;> rfl

theorem follows_write (bytes : Bytes) : Follows Writes (write bytes) := by
  refine follows_of_step fun s env => ?_
  rw [on_write]
  by_cases hclosed : s.closed = true
  · exact .inl (by rw [if_pos hclosed])
  · rw [if_neg hclosed]
    exact .inr (.stage s env bytes (Bool.eq_false_iff.mpr hclosed))

theorem follows_flush : Follows Writes flush := by
  refine follows_of_step fun s env => ?_
  rw [on_flush]
  by_cases hclosed : s.closed = true
  · exact .inl (by rw [if_pos hclosed])
  · rw [if_neg hclosed]
    split
    · exact .inl rfl
    · exact .inr (.send s env (Bool.eq_false_iff.mpr hclosed))

end Stomp.Stream
