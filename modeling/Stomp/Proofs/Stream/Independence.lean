import Stomp.Proofs.Connection.Sending
import Stomp.Proofs.Independence

/-!
# Reading from a stream and writing to it

The two directions of a stream share its socket and the flag that says that it is closed. Writing
looks at what waits to be sent and at the faults that sending will meet (`Stream.outlet`), and
reading at all the rest (`Stream.inlet`) and at the clock. As long as nothing closes the socket from
its own side, neither of them changes what the other one looks at: `directions` is the division, and

* `keepsTo_write`, `keepsTo_flush` — writing keeps to its part;
* `keepsTo_setReadTimeout`, `keepsTo_readFrame`, `keepsTo_readText` — reading keeps to the rest.
-/

namespace Stomp

open Network (Arrival Delivery Entry Event Peer)
open Operation (Division KeepsAt KeepsTo keepsTo_bind keepsTo_change keepsTo_ofExcept
  keepsTo_of_eq keepsTo_of_unchanged keepsTo_throw)

namespace Network

/-- None of the events closes the socket from its own side. -/
def NoLocalClose (events : List Event) : Prop := ∀ delay, Event.arrival delay .localClose ∉ events

theorem noLocalClose_stall_iff {later : List Event} :
    NoLocalClose (.stall :: later) ↔ NoLocalClose later :=
  forall_congr' fun _ => not_congr (by simp)

theorem noLocalClose_arrival_iff {delay : Rat} {what : Arrival} {later : List Event} :
    NoLocalClose (.arrival delay what :: later) ↔ what ≠ .localClose ∧ NoLocalClose later := by
  constructor
  · intro h
    refine ⟨?_, fun delay' hmem => h delay' (List.mem_cons_of_mem _ hmem)⟩
    rintro rfl
    exact h delay (List.mem_cons_self ..)
  · rintro ⟨hwhat, hlater⟩ delay' hmem
    rcases List.mem_cons.mp hmem with heq | hmem
    · cases heq
      exact hwhat rfl
    · exact hlater delay' hmem

/-- What arrives has nothing to do with the faults that sending will meet, and leaves them. -/
theorem Peer.receive_withSendFaults (size : Nat) (wait : Option Rat) (peer : Peer)
    (sendFaults : List (Option Text)) :
    Peer.receive size wait { peer with sendFaults } =
      ((peer.receive size wait).1, (peer.receive size wait).2.1,
        { (peer.receive size wait).2.2 with sendFaults }) := by
  cases hevents : peer.events with
  | nil => simp only [receive, hevents]
  | cons event later =>
    cases event with
    | stall => cases wait <;> simp only [receive, hevents]
    | arrival delay what =>
      cases wait with
      | none => cases what <;> simp only [receive, hevents]
      | some limit =>
        cases hfits : fits delay (some limit) with
        | false => simp only [receive, hevents, hfits]
        | true => cases what <;> simp only [receive, hevents, hfits]

theorem Peer.sendFaults_receive (size : Nat) (wait : Option Rat) (peer : Peer) :
    (peer.receive size wait).2.2.sendFaults = peer.sendFaults :=
  congrArg (fun x => x.2.2.sendFaults) (peer.receive_withSendFaults size wait peer.sendFaults)

/-- Where nothing closes the socket from its own side, this is not what a wait ends in, nor is it to
come afterwards. -/
theorem Peer.receive_of_noLocalClose {peer : Peer} (h : NoLocalClose peer.events) (size : Nat)
    (wait : Option Rat) :
    (peer.receive size wait).1 ≠ .localClose ∧
      NoLocalClose (peer.receive size wait).2.2.events := by
  unfold receive
  split
  · exact ⟨Delivery.noConfusion, h⟩
  · next later hevents =>
    rw [hevents, noLocalClose_stall_iff] at h
    cases wait with
    | none | some _ => exact ⟨Delivery.noConfusion, h⟩
  · next delay what later hevents =>
    rw [hevents, noLocalClose_arrival_iff] at h
    obtain ⟨hwhat, hlater⟩ := h
    split
    · -- it is too late for this wait
      exact ⟨Delivery.noConfusion, noLocalClose_arrival_iff.mpr ⟨hwhat, hlater⟩⟩
    · cases what with
      | data bytes =>
        refine ⟨Delivery.noConfusion, ?_⟩
        -- what does not fit into the request stays in front
        dsimp only
        split
        · exact hlater
        · exact noLocalClose_arrival_iff.mpr ⟨Arrival.noConfusion, hlater⟩
      | peerClosed => exact ⟨Delivery.noConfusion, hlater⟩
      | failure reason => exact ⟨Delivery.noConfusion, hlater⟩
      | localClose => exact absurd rfl hwhat

/-- Attempts to send are told in the order in which they were made. -/
theorem attempts_append (acts later : List Entry) :
    attempts (acts ++ later) = attempts acts ++ attempts later := List.filterMap_append

end Network

namespace Stream

/-- What writing to a stream looks at. -/
structure Outlet where
  closed : Bool
  unsent : Bytes
  /-- The socket that is written to. -/
  number : Nat
  sendFaults : List (Option Text)

def outlet (s : Stream) : Outlet :=
  ⟨s.closed, s.unsent, s.socket.number, s.socket.peer.sendFaults⟩

/-- What reading from a stream looks at: all but what waits to be sent and the faults that sending
will meet. -/
def inlet (s : Stream) : Stream :=
  { s with
      unsent := []
      socket := { s.socket with peer := { s.socket.peer with sendFaults := [] } } }

/-- The two together are the whole of a stream. -/
theorem eq_of_outlet_eq {s s' : Stream} (hout : s.outlet = s'.outlet) (hin : s.inlet = s'.inlet) :
    s = s' := by
  obtain ⟨⟨number, events, faults, connect, shutdown, close⟩, size, unread, unsent, closed,
    deadline⟩ := s
  obtain ⟨⟨number', events', faults', connect', shutdown', close'⟩, size', unread', unsent',
    closed', deadline'⟩ := s'
  -- each field stands in one of the two
  cases hout
  cases hin
  rfl

/-- **The two directions of a stream**, where nothing closes the socket from its own side: writing
looks at the outlet and makes attempts to send, reading looks at all the rest and at the clock. -/
def directions : Division Stream (Outlet × List (Option Nat × Bytes)) (Stream × Rat) where
  known s _ := Network.NoLocalClose s.socket.peer.events
  part x := (x.1.outlet, Network.attempts x.2.acts)
  rest x := (x.1.inlet, x.2.clock)

/-- Whether a stream is closed is seen from both sides. -/
theorem keepsTo_requireOpen {γ δ : Type} {d : Division Stream γ δ}
    (hclosed : ∀ s env s' env', d.part (s, env) = d.part (s', env') → s.closed = s'.closed) :
    KeepsTo d requireOpen := by
  refine keepsTo_of_unchanged (fun s env => ?_) fun s env s' env' hpart => ?_
  · rw [on_requireOpen]
    split <;> rfl
  · rw [on_requireOpen, on_requireOpen, hclosed s env s' env' hpart]
    split <;> rfl

/-! ### Writing -/

theorem keepsTo_write (bytes : Bytes) : KeepsTo directions (write bytes) := by
  refine keepsTo_bind (keepsTo_requireOpen fun _ _ _ _ h => congrArg (·.1.closed) h) fun _ => ?_
  refine keepsTo_change (fun _ _ h => h) (fun _ _ => rfl) fun _ _ _ _ h => ?_
  exact congrArg (fun x => ({ x.1 with unsent := x.1.unsent ++ bytes }, x.2)) h

/-- What flushing does, as writing sees it: where something waits, one attempt to send it, which the
next fault is for. -/
def Outlet.flush (o : Outlet) (tried : List (Option Nat × Bytes)) :
    Except Error Unit × Outlet × List (Option Nat × Bytes) :=
  if o.closed then (.error (.connection .streamClosed), o, tried)
  else if o.unsent = [] then (.ok (), o, tried)
  else
    (match o.sendFaults.head?.join with
      | none => .ok ()
      | some reason => .error (.connection (.writeFailed reason)),
    { o with unsent := [], sendFaults := o.sendFaults.tail }, tried ++ [(some o.number, o.unsent)])

theorem attempts_sendAct (time : Rat) (socket : Option Nat) (peer : Peer) (bytes : Bytes) :
    Network.attempts [⟨time, socket, sendAct peer bytes⟩] = [(socket, bytes)] := by
  rw [sendAct]
  cases peer.send.1 <;> rfl

theorem keepsTo_flush : KeepsTo directions flush := by
  refine keepsTo_of_eq (f := fun x => x.1.flush x.2) (fun s env hs => ?_) (fun s env => ?_)
    fun s env => ?_
  · -- no attempt to send changes the script of what arrives
    rw [on_flush]
    split
    · exact hs
    · split <;> exact hs
  · rw [on_flush]
    split
    · rfl
    · split <;> rfl
  · show _ = s.outlet.flush (Network.attempts env.acts)
    rw [on_flush, Outlet.flush]
    by_cases hclosed : s.closed = true
    · rw [if_pos hclosed, if_pos (show s.outlet.closed = true from hclosed)]
      rfl
    · rw [if_neg hclosed, if_neg (show ¬ s.outlet.closed = true from hclosed)]
      by_cases hempty : s.unsent = []
      · rw [if_pos hempty, if_pos (show s.outlet.unsent = [] from hempty)]
        rfl
      · rw [if_neg hempty, if_neg (show ¬ s.outlet.unsent = [] from hempty)]
        dsimp only [directions]
        rw [Network.attempts_append, attempts_sendAct]
        rfl

/-! ### Reading -/

theorem keepsTo_setReadTimeout (timeout : Option Rat) :
    KeepsTo directions.swap (setReadTimeout timeout) := by
  refine keepsTo_bind (keepsTo_requireOpen fun _ _ _ _ h => congrArg (·.1.closed) h) fun _ => ?_
  -- the deadline goes by the clock, which belongs to reading
  exact keepsTo_of_eq
    (f := fun x => (.ok (), { x.1 with deadline := timeout.map (x.2 + ·) }, x.2))
    (fun _ _ hs => hs) (fun _ _ => rfl) fun _ _ => rfl

theorem keepsTo_timeLeft : KeepsTo directions.swap timeLeft := by
  refine keepsTo_of_unchanged (fun s env => ?_) fun s env s' env' h => ?_
  · rw [on_timeLeft]
    split
    · rfl
    · split <;> rfl
  · have hdeadline : s.deadline = s'.deadline := congrArg (·.1.deadline) h
    have hclock : env.clock = env'.clock := congrArg Prod.snd h
    rw [on_timeLeft, on_timeLeft, hdeadline, hclock]
    split
    · rfl
    · split <;> rfl

/-- What asking the socket does, as reading sees it. -/
def receiveAt (wait : Option Rat) (s : Stream) (clock : Rat) :
    Except Error Delivery × Stream × Rat :=
  (.ok (s.socket.peer.receive s.readSize wait).1,
    { s with socket := { s.socket with peer := (s.socket.peer.receive s.readSize wait).2.2 } },
    clock + (s.socket.peer.receive s.readSize wait).2.1)

theorem keepsTo_receive (wait : Option Rat) : KeepsTo directions.swap (receive wait) := by
  refine keepsTo_of_eq (f := fun x => receiveAt wait x.1 x.2) (fun s env hs => ?_)
    (fun s env => ?_) fun s env => ?_
  · rw [on_receive]
    exact (Network.Peer.receive_of_noLocalClose hs s.readSize wait).2
  · rw [on_receive]
    refine Prod.ext ?_ ?_
    · simp only [directions, Division.swap, outlet, Network.Peer.sendFaults_receive]
    · -- the act that is kept is no attempt to send
      simp only [directions, Division.swap, Network.attempts_append]
      exact List.append_nil _
  · have hinlet : s.inlet.socket.peer.receive s.inlet.readSize wait = _ :=
      Network.Peer.receive_withSendFaults s.readSize wait s.socket.peer []
    -- what arrives is the same without the faults of sending
    show _ = receiveAt wait s.inlet env.clock
    rw [on_receive, receiveAt, hinlet]
    rfl

theorem keepsTo_accept {delivery : Delivery} (h : delivery ≠ .localClose) :
    KeepsTo directions.swap (accept delivery) := by
  cases delivery with
  | chunk bytes =>
    show KeepsTo directions.swap
      (Operation.change fun s : Stream => { s with unread := s.unread ++ bytes })
    refine keepsTo_change (fun _ _ h => h) (fun _ _ => rfl) fun _ _ _ _ h => ?_
    exact congrArg (fun x => ({ x.1 with unread := x.1.unread ++ bytes }, x.2)) h
  | localClose => exact absurd rfl h
  | failed reason => exact keepsTo_throw _
  | timedOut => exact keepsTo_throw _
  | stalled => exact keepsTo_throw _

theorem keepsTo_fill : KeepsTo directions.swap fill := by
  refine keepsTo_bind (keepsTo_requireOpen fun _ _ _ _ h => congrArg (·.1.closed) h) fun _ => ?_
  refine keepsTo_bind keepsTo_timeLeft fun wait s env hs => ?_
  refine .bind (keepsTo_receive wait) hs fun delivery s₁ env₁ hon hs₁ => ?_
  -- nothing closes the socket, so no delivery says so
  refine keepsTo_accept ?_ s₁ env₁ hs₁
  rw [on_receive] at hon
  cases hon
  exact (Network.Peer.receive_of_noLocalClose hs s.readSize wait).1

/-- What is read is taken from what waits, once something does. -/
def takeUnread (n : Nat) : Operation Stream Bytes := do
  let unread := (← Operation.subject).unread
  Operation.change fun s => { s with unread := unread.drop n }
  return unread.take n

theorem keepsTo_takeUnread (n : Nat) : KeepsTo directions.swap (takeUnread n) :=
  keepsTo_of_eq
    (f := fun x => (.ok (x.1.unread.take n), { x.1 with unread := x.1.unread.drop n }, x.2))
    (fun _ _ hs => hs) (fun _ _ => rfl) fun _ _ => rfl

theorem keepsTo_read (n : Nat) : KeepsTo directions.swap (read n) := by
  have hread : read n = Operation.subject >>= fun s =>
      (if s.unread.isEmpty then fill else pure ()) >>= fun _ => takeUnread n := by
    -- the socket is asked only if nothing waits
    refine Operation.ext fun s env => ?_
    rw [on_read, Operation.on_bind, Operation.on_subject]
    dsimp only
    rw [Operation.on_bind]
    by_cases hempty : s.unread.isEmpty
    · rw [if_pos hempty, if_pos hempty]
      rcases fill.on s env with ⟨e | ⟨⟩, s', env'⟩ <;> rfl
    · rw [if_neg hempty, if_neg hempty]
      rfl
  rw [hread]
  refine Operation.keepsTo_subject_bind (fun s => ?_) fun s env s' env' h => ?_
  · refine keepsTo_bind ?_ fun _ => keepsTo_takeUnread n
    split
    · exact keepsTo_fill
    · exact Operation.keepsTo_pure ()
  · -- whether something waits is seen from the inlet
    have hunread : s.unread = s'.unread := congrArg (·.1.unread) h
    rw [hunread]

/-- What a reader makes of a block that was read. -/
def goOn {σ α : Type} (r : Reader σ α) (state : σ) : Bytes → Operation Stream α
  | [] => throw (r.ended state)
  | b :: rest =>
    match r.scan state (b :: rest) with
    | .done result _ => Operation.ofExcept result
    | .more next => Operation.mk (r.run next)

/-- One round of reading. -/
theorem run_eq_bind {σ α : Type} (r : Reader σ α) (state : σ) :
    (Operation.mk (r.run state) : Operation Stream α) = read (r.demand state) >>= goOn r state := by
  refine Operation.ext fun s env => ?_
  have hsource : ByteSource.read (r.demand state) (s, env) = (read (r.demand state)).on s env := rfl
  rw [Operation.on_mk, r.run_eq, hsource, Operation.on_bind]
  rcases (read (r.demand state)).on s env with ⟨e | _ | ⟨b, rest⟩, s', env'⟩
  · rfl
  · rfl
  · dsimp only [goOn]
    cases r.scan state (b :: rest) with
    | done result unused => simp only [Operation.on_ofExcept]
    | more next => rfl

/-- **Whatever a reader reads** from a stream, it keeps to what reading looks at. -/
theorem keepsTo_run {σ α : Type} (r : Reader σ α) (state : σ) :
    KeepsTo directions.swap (Operation.mk (r.run state) : Operation Stream α) := by
  intro s env hs
  -- the induction is on the bytes that may still arrive, as each round reads some
  induction hpending : s.pending using Nat.strongRecOn generalizing state s env with
  | ind pending ih =>
    subst hpending
    rw [run_eq_bind]
    refine .bind (keepsTo_read _) hs fun block s₁ env₁ hon hs₁ => ?_
    cases block with
    | nil => exact keepsTo_throw _ s₁ env₁ hs₁
    | cons b rest =>
      -- a block that is not empty leaves fewer of them
      have hfewer := pending_read hon
      rw [List.length_cons] at hfewer
      rw [goOn]
      cases r.scan state (b :: rest) with
      | done result unused => exact keepsTo_ofExcept _ s₁ env₁ hs₁
      | more next => exact ih s₁.pending (by omega) next s₁ env₁ hs₁ rfl

/-- Nothing is read at a version that is none. -/
theorem readFrame_of_eq_none {version : Text} (h : Version.parse? version = none) :
    readFrame version = throw (.protocol (.unsupportedVersion version)) :=
  Operation.ext fun s env => by simp [readFrame, Frame.read, h]

theorem readFrame_of_eq_some {version : Text} {v : Version} (h : Version.parse? version = some v) :
    readFrame version = Operation.mk ((Frame.decoder v.dialect).run .start) :=
  Operation.ext fun s env => by simp [readFrame, Frame.read, h]

theorem keepsTo_readFrame (version : Text) : KeepsTo directions.swap (readFrame version) := by
  cases hversion : Version.parse? version with
  | none =>
    rw [readFrame_of_eq_none hversion]
    exact keepsTo_throw _
  | some v =>
    rw [readFrame_of_eq_some hversion]
    exact keepsTo_run _ _

theorem keepsTo_readText (state : Frame.RawState) : KeepsTo directions.swap (readText state) :=
  keepsTo_run Frame.rawReader state

end Stream

end Stomp
