import Mathlib.Algebra.Order.Ring.Rat
import Mathlib.Tactic.Linarith
import Stomp.Stream

/-!
# A deadline on a whole run

A run of a reader on a stream with a deadline is compared with the run of the same reader, from the
same moment, on the same stream without one. The two go side by side as long as every request for
data begins before the deadline and is answered by then; the first that is not ends the run with a
deadline, at the deadline.

* `Peer.receive_some` — one request with a limit on its time, against one without;
* `Prompt` — no request of the run without a deadline is late;
* `Raced` — what is known of two runs side by side. It holds of one read (`raced_read`), and two
  stretches of a run make one (`Raced.trans`), so that it holds of a whole run (`raced_run`).
-/

namespace Stomp

namespace Network

/-! ### Requests for data -/

/-- The requests for data among some acts: when each began, and what it ended in. -/
def requests (acts : List Entry) : List (Rat × Delivery) :=
  acts.filterMap fun entry =>
    match entry.act with
    | .receive _ delivery => some (entry.time, delivery)
    | _ => none

@[simp] theorem requests_nil : requests [] = [] := rfl

@[simp] theorem requests_append (acts later : List Entry) :
    requests (acts ++ later) = requests acts ++ requests later :=
  List.filterMap_append

/-- Delays are durations: nothing arrives before it is waited for. -/
def DelaysNonneg (events : List Event) : Prop :=
  ∀ delay what, .arrival delay what ∈ events → 0 ≤ delay

namespace Peer

/-- A request without a limit takes no negative time and is not given up, and the delays that are
left are durations again. -/
theorem receive_none (size : Nat) {peer : Peer} (hdelays : DelaysNonneg peer.events) :
    (peer.receive size none).1 ≠ .timedOut ∧ 0 ≤ (peer.receive size none).2.1 ∧
      DelaysNonneg (peer.receive size none).2.2.events := by
  obtain ⟨events, sendFaults, connectFault, shutdownFault, closeFault⟩ := peer
  cases events with
  | nil => exact ⟨Delivery.noConfusion, le_refl 0, hdelays⟩
  | cons event rest =>
    have hrest : DelaysNonneg rest := fun delay what hmem =>
      hdelays delay what (List.mem_cons_of_mem _ hmem)
    cases event with
    | stall => exact ⟨Delivery.noConfusion, le_refl 0, hrest⟩
    | arrival delay what =>
      have hdelay : 0 ≤ delay := hdelays delay what (List.mem_cons_self ..)
      cases what with
      | data bytes =>
        refine ⟨Delivery.noConfusion, hdelay, ?_⟩
        -- what is left of the data is there at once
        show DelaysNonneg (if (bytes.drop size).isEmpty then rest
          else .arrival 0 (.data (bytes.drop size)) :: rest)
        split
        · exact hrest
        · intro delay' what' hmem
          rcases List.mem_cons.mp hmem with heq | hmem
          · cases heq
            exact le_refl 0
          · exact hrest delay' what' hmem
      | peerClosed => exact ⟨Delivery.noConfusion, hdelay, hrest⟩
      | failure reason => exact ⟨Delivery.noConfusion, hdelay, hrest⟩
      | localClose => exact ⟨Delivery.noConfusion, hdelay, hrest⟩

/-- **One request with a limit.** If the request without a limit is answered within the limit, it
is the same; else it takes all of the limit and gets nothing. -/
theorem receive_some (size : Nat) (peer : Peer) {limit : Rat} (hlimit : 0 < limit) :
    ((peer.receive size none).1 ≠ .stalled → (peer.receive size none).2.1 ≤ limit →
      peer.receive size (some limit) = peer.receive size none) ∧
    (¬ ((peer.receive size none).1 ≠ .stalled ∧ (peer.receive size none).2.1 ≤ limit) →
      (peer.receive size (some limit)).1 = .timedOut ∧
        (peer.receive size (some limit)).2.1 = limit) := by
  obtain ⟨events, sendFaults, connectFault, shutdownFault, closeFault⟩ := peer
  cases events with
  | nil =>
    refine ⟨fun _ _ => rfl, fun hlate => absurd ⟨Delivery.noConfusion, le_of_lt hlimit⟩ hlate⟩
  | cons event rest =>
    cases event with
    | stall => exact ⟨fun hstalled => absurd rfl hstalled, fun _ => ⟨rfl, rfl⟩⟩
    | arrival delay what =>
      by_cases hfits : delay ≤ limit
      · -- the arrival is in time, with a limit or without
        have hsame : ∀ peer : Peer, peer.events = .arrival delay what :: rest →
            peer.receive size (some limit) = peer.receive size none := by
          intro peer hevents
          simp [receive, fits, hfits, hevents]
        refine ⟨fun _ _ => hsame _ rfl, fun hlate => absurd ⟨?_, ?_⟩ hlate⟩
        · cases what <;> exact Delivery.noConfusion
        · cases what <;> exact hfits
      · have hnot : ¬ (Peer.receive size none
            ⟨.arrival delay what :: rest, sendFaults, connectFault, shutdownFault,
              closeFault⟩).2.1 ≤ limit := by
          cases what <;> exact hfits
        refine ⟨fun _ hle => absurd hle hnot, fun _ => ?_⟩
        simp [receive, fits, hfits]

end Peer

end Network

open Network (Delivery DelaysNonneg Entry Peer requests requests_append)

namespace Stream

/-! ### Stretches of a run -/

/-- **A stretch of a run**, between two moments, in which the given acts are done. -/
structure Spans (start : Environment) (acts : List Entry) (finish : Environment) : Prop where
  acts_eq : finish.acts = start.acts ++ acts
  /-- Requests begin one after another. -/
  ordered : (start.clock :: (requests acts).map Prod.fst ++ [finish.clock]).Pairwise (· ≤ ·)
  /-- Time passes in requests only. -/
  clock_eq : requests acts = [] → finish.clock = start.clock

namespace Spans

variable {start middle finish : Environment} {acts later : List Entry}

theorem refl (env : Environment) : Spans env [] env where
  acts_eq := (List.append_nil _).symm
  ordered := List.pairwise_pair.mpr (le_refl env.clock)
  clock_eq _ := rfl

theorem clock_le (h : Spans start acts finish) : start.clock ≤ finish.clock := by
  have hle := (List.pairwise_cons.mp h.ordered).1
  exact hle finish.clock (List.mem_append_right _ (List.mem_singleton_self _))

/-- Two stretches, one after the other, are one. -/
theorem trans (h : Spans start acts middle) (h' : Spans middle later finish) :
    Spans start (acts ++ later) finish where
  acts_eq := by rw [h'.acts_eq, h.acts_eq, List.append_assoc]
  ordered := by
    obtain ⟨hbefore, -, hle⟩ := List.pairwise_append.mp h.ordered
    obtain ⟨hmiddle, hafter⟩ := List.pairwise_cons.mp h'.ordered
    rw [requests_append, List.map_append, ← List.cons_append, List.append_assoc]
    refine List.pairwise_append.mpr ⟨hbefore, hafter, fun time htime time' htime' => ?_⟩
    -- what began in the first stretch began before its end, and all else after it
    exact le_trans (hle time htime _ (List.mem_singleton_self _)) (hmiddle time' htime')
  clock_eq hnone := by
    rw [requests_append, List.append_eq_nil_iff] at hnone
    rw [h'.clock_eq hnone.2, h.clock_eq hnone.1]

end Spans

/-- **No request is late**: each begins before the limit, none is stalled, and all is over by the
limit. -/
def Prompt (limit : Rat) (requests : List (Rat × Delivery)) (finish : Rat) : Prop :=
  ∀ r ∈ requests, r.1 < limit ∧ r.2 ≠ .stalled ∧ finish ≤ limit

theorem prompt_nil {limit finish : Rat} : Prompt limit [] finish :=
  fun _ hmem => absurd hmem List.not_mem_nil

theorem prompt_singleton {limit start finish : Rat} {delivery : Delivery} :
    Prompt limit [(start, delivery)] finish ↔
      start < limit ∧ delivery ≠ .stalled ∧ finish ≤ limit := by
  rw [Prompt, List.forall_mem_singleton]

/-- No request of two stretches is late if and only if none is in either. -/
theorem prompt_append {middle finish : Environment} {later : List Entry}
    (h : Spans middle later finish) (acts : List Entry) {limit : Rat} :
    Prompt limit (requests (acts ++ later)) finish.clock ↔
      Prompt limit (requests acts) middle.clock ∧ Prompt limit (requests later) finish.clock := by
  rw [requests_append, Prompt, List.forall_mem_append]
  refine and_congr_left fun hlater => forall₂_congr fun r hr => ?_
  have hle := h.clock_le
  refine and_congr_right fun _ => and_congr_right fun _ => ⟨fun hfinish => ?_, fun hmiddle => ?_⟩
  · linarith
  · -- the end of the second stretch is in time as well, if it is not that of the first
    rcases hrequests : requests later with _ | ⟨r', rest⟩
    · rw [h.clock_eq hrequests]
      exact hmiddle
    · exact (hlater r' (hrequests ▸ List.mem_cons_self ..)).2.2

/-- If no request is late, then the later of a moment and the limit is the same before the stretch
and after it. -/
theorem Prompt.max_clock {start finish : Environment} {acts : List Entry} {limit : Rat}
    (hprompt : Prompt limit (requests acts) finish.clock) (h : Spans start acts finish) :
    max finish.clock limit = max start.clock limit := by
  rcases hrequests : requests acts with _ | ⟨r, rest⟩
  · rw [h.clock_eq hrequests]
  · have hfinish : finish.clock ≤ limit := (hprompt r (hrequests ▸ List.mem_cons_self ..)).2.2
    rw [max_eq_right hfinish, max_eq_right (le_trans h.clock_le hfinish)]

/-! ### Two runs side by side -/

/-- **Two runs side by side**, the first without a deadline and the second with one, from the same
moment on. The acts of the first since then are `acts`. -/
structure Raced {α : Type} (limit : Rat) (start : Environment) (acts : List Entry)
    (untimed timed : Except Error α × Stream × Environment) : Prop where
  spans : Spans start acts untimed.2.2
  deadline_eq : untimed.2.1.deadline = none
  delays : DelaysNonneg untimed.2.1.socket.peer.events
  /-- As long as no request is late, the runs are the same but for the deadline. -/
  of_prompt : Prompt limit (requests acts) untimed.2.2.clock →
    timed.1 = untimed.1 ∧ timed.2.1 = { untimed.2.1 with deadline := some limit } ∧
      timed.2.2.clock = untimed.2.2.clock
  /-- A request that is late ends the run with a deadline when the deadline has come. -/
  of_late : ¬ Prompt limit (requests acts) untimed.2.2.clock →
    (∃ fault, timed.1 = .error (.timeout fault)) ∧ timed.2.2.clock = max start.clock limit

namespace Raced

variable {α β : Type} {limit : Rat} {start : Environment} {acts : List Entry}
  {untimed timed : Except Error α × Stream × Environment}

/-- The run with a deadline lasts no longer than to the deadline, if that is still to come. -/
theorem clock_le (h : Raced limit start acts untimed timed) :
    timed.2.2.clock ≤ max start.clock limit := by
  by_cases hprompt : Prompt limit (requests acts) untimed.2.2.clock
  · calc timed.2.2.clock = untimed.2.2.clock := (h.of_prompt hprompt).2.2
      _ ≤ max untimed.2.2.clock limit := le_max_left _ _
      _ = max start.clock limit := hprompt.max_clock h.spans
  · exact le_of_eq (h.of_late hprompt).2

/-- Doing something with the result keeps runs side by side. -/
theorem map (h : Raced limit start acts untimed timed) (f : α → β) :
    Raced limit start acts (untimed.1.map f, untimed.2) (timed.1.map f, timed.2) where
  spans := h.spans
  deadline_eq := h.deadline_eq
  delays := h.delays
  of_prompt hprompt := by
    obtain ⟨hresult, hsame⟩ := h.of_prompt hprompt
    exact ⟨congrArg (Except.map f) hresult, hsame⟩
  of_late hlate := by
    obtain ⟨⟨fault, hfault⟩, hclock⟩ := h.of_late hlate
    exact ⟨⟨fault, congrArg (Except.map f) hfault⟩, hclock⟩

end Raced

/-- Goes on with what a stretch of a run gave, unless it failed. -/
def andThen {α β : Type} (first : Except Error α × Stream × Environment)
    (next : α → Stream × Environment → Except Error β × Stream × Environment) :
    Except Error β × Stream × Environment :=
  match first with
  | (.ok a, left) => next a left
  | (.error e, left) => (.error e, left)

/-- **Two stretches, one after the other.** Runs that are side by side go on side by side; a run
that was late has ended. -/
theorem Raced.andThen {α β : Type} {limit : Rat} {start : Environment} {acts : List Entry}
    {untimed timed : Except Error α × Stream × Environment}
    (h : Raced limit start acts untimed timed)
    {next : α → Stream × Environment → Except Error β × Stream × Environment}
    (hnext : ∀ a, untimed.1 = .ok a → ∀ env, env.clock = untimed.2.2.clock →
      ∃ later, Raced limit untimed.2.2 later (next a untimed.2)
        (next a ({ untimed.2.1 with deadline := some limit }, env))) :
    ∃ acts, Raced limit start acts (Stream.andThen untimed next) (Stream.andThen timed next) := by
  obtain ⟨outcome, s₁, env₁⟩ := untimed
  obtain ⟨outcome', s₂, env₂⟩ := timed
  have hprompt := h.of_prompt
  have hlate := h.of_late
  cases outcome with
  | error e =>
    refine ⟨acts, ⟨h.spans, h.deadline_eq, h.delays, fun hp => ?_, fun hl => ?_⟩⟩
    · obtain ⟨rfl, rfl, hclock⟩ := hprompt hp
      exact ⟨rfl, rfl, hclock⟩
    · obtain ⟨⟨fault, rfl⟩, hclock⟩ := hlate hl
      exact ⟨⟨fault, rfl⟩, hclock⟩
  | ok a =>
    by_cases hp : Prompt limit (requests acts) env₁.clock
    · -- both go on, from the same moment and the same stream but for the deadline
      obtain ⟨rfl, rfl, hclock⟩ := hprompt hp
      obtain ⟨later, h'⟩ := hnext a rfl env₂ hclock
      refine ⟨acts ++ later, ⟨h.spans.trans h'.spans, h'.deadline_eq, h'.delays, fun hp' => ?_,
        fun hl' => ?_⟩⟩
      · exact h'.of_prompt ((prompt_append h'.spans acts).mp hp').2
      · -- the late request is one of the second stretch
        have hl : ¬ Prompt limit (requests later) (next a (s₁, env₁)).2.2.clock :=
          fun hlater => hl' ((prompt_append h'.spans acts).mpr ⟨hp, hlater⟩)
        obtain ⟨hfault, hend⟩ := h'.of_late hl
        exact ⟨hfault, hend.trans (hp.max_clock h.spans)⟩
    · obtain ⟨⟨fault, rfl⟩, hclock⟩ := hlate hp
      -- the run without a deadline goes on alone
      obtain ⟨later, h'⟩ := hnext a rfl env₁ rfl
      refine ⟨acts ++ later, ⟨h.spans.trans h'.spans, h'.deadline_eq, h'.delays, fun hp' => ?_,
        fun _ => ⟨⟨fault, rfl⟩, hclock⟩⟩⟩
      exact absurd ((prompt_append h'.spans acts).mp hp').1 hp

/-- Taking a delivery takes no time and makes no request, and a deadline makes no difference. -/
theorem accept_deadline (delivery : Delivery) (s : Stream) (limit : Rat) (env env' : Environment)
    (hclock : env'.clock = env.clock) :
    ∃ outcome after acts env₁ env₂,
      (accept delivery).on s env = (outcome, after, env₁) ∧
      (accept delivery).on { s with deadline := some limit } env' =
        (outcome, { after with deadline := some limit }, env₂) ∧
      env₁.acts = env.acts ++ acts ∧ requests acts = [] ∧ env₁.clock = env.clock ∧
      env₂.clock = env.clock ∧ after.deadline = s.deadline ∧ after.socket = s.socket := by
  cases delivery with
  | localClose =>
    obtain ⟨socket, readSize, unread, unsent, closed, deadline⟩ := s
    simp only [on_accept_localClose, on_shut]
    cases closed with
    | true =>
      exact ⟨_, _, [], _, _, rfl, rfl, (List.append_nil _).symm, rfl, rfl, hclock, rfl, rfl⟩
    | false =>
      cases socket.peer.closeFault with
      | none => exact ⟨_, _, _, _, _, rfl, rfl, rfl, rfl, rfl, hclock, rfl, rfl⟩
      | some reason => exact ⟨_, _, _, _, _, rfl, rfl, rfl, rfl, rfl, hclock, rfl, rfl⟩
  | _ => exact ⟨_, _, [], _, _, rfl, rfl, (List.append_nil _).symm, rfl, rfl, hclock, rfl, rfl⟩

/-- Where no request is made, the runs stay side by side. -/
theorem raced_of_no_request {α : Type} {s : Stream} (hdeadline : s.deadline = none)
    (hdelays : DelaysNonneg s.socket.peer.events) (limit : Rat) {env env' : Environment}
    (hclock : env'.clock = env.clock) (outcome : Except Error α) :
    Raced limit env [] (outcome, s, env) (outcome, { s with deadline := some limit }, env') where
  spans := Spans.refl env
  deadline_eq := hdeadline
  delays := hdelays
  of_prompt _ := ⟨rfl, rfl, hclock⟩
  of_late hlate := absurd prompt_nil hlate

/-- **Getting bytes**: one request, unless the stream is closed or, on the side with a deadline, the
deadline has passed. -/
theorem raced_fill {s : Stream} (hdeadline : s.deadline = none)
    (hdelays : DelaysNonneg s.socket.peer.events) (limit : Rat) {env env' : Environment}
    (hclock : env'.clock = env.clock) :
    ∃ acts, Raced limit env acts (fill.on s env)
      (fill.on { s with deadline := some limit } env') := by
  rw [on_fill, on_fill]
  by_cases hclosed : s.closed = true
  · rw [if_pos hclosed, if_pos hclosed]
    exact ⟨[], raced_of_no_request hdeadline hdelays limit hclock _⟩
  rw [if_neg hclosed, if_neg hclosed, hdeadline]
  simp only [Operation.on_bind, on_receive]
  obtain ⟨-, helapsed, hdelaysAfter⟩ := Peer.receive_none s.readSize hdelays
  rcases hanswer : s.socket.peer.receive s.readSize none with ⟨delivery, elapsed, peer⟩
  rw [hanswer] at helapsed hdelaysAfter
  -- the answer is taken at the same moment on both sides
  obtain ⟨outcome, after, acts, env₁, env₂, huntimed, htimed, hacts, hrequests, hclock₁, hclock₂,
      hdeadlineAfter, hsocket⟩ :=
    accept_deadline delivery { s with socket := { s.socket with peer } } limit
      { env with
        acts := env.acts ++ [⟨env.clock, some s.socket.number, .receive none delivery⟩]
        clock := env.clock + elapsed }
      { env' with
        acts := env'.acts ++ [⟨env'.clock, some s.socket.number,
          .receive (some (limit - env'.clock)) delivery⟩]
        clock := env'.clock + elapsed }
      (by rw [hclock])
  have hone : requests (⟨env.clock, some s.socket.number, .receive none delivery⟩ :: acts) =
      [(env.clock, delivery)] := by
    rw [← List.singleton_append, requests_append, hrequests]
    rfl
  have hfinish : env₁.clock = env.clock + elapsed := hclock₁
  refine ⟨⟨env.clock, some s.socket.number, .receive none delivery⟩ :: acts, ?_⟩
  rw [huntimed]
  refine
    { spans :=
        { acts_eq := by rw [hacts, List.append_assoc]; rfl
          ordered := ?_
          clock_eq := fun hnone => absurd (hone.symm.trans hnone) (List.cons_ne_nil _ _) }
      deadline_eq := hdeadlineAfter.trans hdeadline
      delays := by rw [hsocket]; exact hdelaysAfter
      of_prompt := ?_
      of_late := ?_ }
  · have hle : env.clock ≤ env₁.clock := by linarith
    rw [hone]
    show [env.clock, env.clock, env₁.clock].Pairwise (· ≤ ·)
    simp [hle]
  · rw [hone, prompt_singleton, hfinish]
    rintro ⟨hbefore, hstalled, hintime⟩
    -- there is time left, and the answer comes within it
    have hleft : ¬ limit - env'.clock ≤ 0 := by linarith
    have hsame := (Peer.receive_some s.readSize s.socket.peer (not_le.mp hleft)).1
    rw [hanswer] at hsame
    rw [if_neg hleft, hsame hstalled (by linarith)]
    exact ⟨congrArg (·.1) htimed, congrArg (·.2.1) htimed, by rw [htimed, hclock₂]⟩
  · rw [hone, prompt_singleton, hfinish]
    intro hnot
    by_cases hleft : limit - env'.clock ≤ 0
    · -- the deadline had passed before the socket was asked
      rw [if_pos hleft]
      refine ⟨⟨_, rfl⟩, ?_⟩
      rw [max_eq_left (by linarith)]
      exact hclock
    · have hlate := (Peer.receive_some s.readSize s.socket.peer (not_le.mp hleft)).2
      rw [hanswer] at hlate
      have hbefore : env.clock < limit := by linarith [not_le.mp hleft]
      obtain ⟨hdelivery, hwaited⟩ := hlate fun h => hnot ⟨hbefore, h.1, by linarith [h.2]⟩
      rw [if_neg hleft, hdelivery, on_accept_timedOut]
      refine ⟨⟨_, rfl⟩, ?_⟩
      -- what was left of the time has been waited for
      calc env'.clock + (Peer.receive s.readSize (some (limit - env'.clock)) s.socket.peer).2.1
          = env'.clock + (limit - env'.clock) := by rw [hwaited]
        _ = limit := by linarith
        _ = max env.clock limit := (max_eq_right (le_of_lt hbefore)).symm

/-- **One read.** -/
theorem raced_read (n : Nat) {s : Stream} (hdeadline : s.deadline = none)
    (hdelays : DelaysNonneg s.socket.peer.events) (limit : Rat) {env env' : Environment}
    (hclock : env'.clock = env.clock) :
    ∃ acts, Raced limit env acts ((read n).on s env)
      ((read n).on { s with deadline := some limit } env') := by
  have htake : ∀ (t : Stream) (e : Environment), (read n).on t e =
      Stream.andThen (if t.unread.isEmpty then fill.on t e else (.ok (), t, e)) fun _ left =>
        (.ok (left.1.unread.take n), { left.1 with unread := left.1.unread.drop n }, left.2) := by
    intro t e
    rw [on_read]
    rcases (if t.unread.isEmpty then fill.on t e else (.ok (), t, e)) with ⟨_ | _, t', e'⟩ <;> rfl
  have hfilled : ∃ acts, Raced limit env acts
      (if s.unread.isEmpty then fill.on s env else (.ok (), s, env))
      (if s.unread.isEmpty then fill.on { s with deadline := some limit } env'
        else (.ok (), { s with deadline := some limit }, env')) := by
    split
    · exact raced_fill hdeadline hdelays limit hclock
    · exact ⟨[], raced_of_no_request hdeadline hdelays limit hclock _⟩
  obtain ⟨acts, hraced⟩ := hfilled
  rw [htake, htake]
  -- taking from what waits is no request
  refine hraced.andThen fun _ _ env₂ hclock₂ => ⟨[], ?_⟩
  refine raced_of_no_request ?_ ?_ limit hclock₂ _
  · exact hraced.deadline_eq
  · exact hraced.delays

/-- What a reader does with the bytes that a read gave: it ends if there are none, or if it is done
with them, and else it reads on. -/
def afterRead {σ α : Type} (r : Reader σ α) (state : σ) (block : Bytes)
    (left : Stream × Environment) : Except Error α × Stream × Environment :=
  match block with
  | [] => (.error (r.ended state), left)
  | b :: rest =>
    match r.scan state (b :: rest) with
    | .done result _ => (result, left)
    | .more next => r.run next left

/-- One round of a run is a read and what the reader does after it. -/
theorem run_eq_andThen {σ α : Type} (r : Reader σ α) (state : σ) (source : Stream × Environment) :
    r.run state source =
      Stream.andThen ((read (r.demand state)).on source.1 source.2) (afterRead r state) := by
  have hread : ByteSource.read (r.demand state) source =
      (read (r.demand state)).on source.1 source.2 := rfl
  rw [r.run_eq, hread]
  rcases (read (r.demand state)).on source.1 source.2 with ⟨_ | _ | _, left⟩ <;> rfl

/-- **Whole runs.** The run of a reader with a deadline and the run without one, from the same
moment on, are side by side. -/
theorem raced_run {σ α : Type} (r : Reader σ α) (state : σ) {s : Stream}
    (hdeadline : s.deadline = none) (hdelays : DelaysNonneg s.socket.peer.events) (limit : Rat)
    {env env' : Environment} (hclock : env'.clock = env.clock) :
    ∃ acts, Raced limit env acts (r.run state (s, env))
      (r.run state ({ s with deadline := some limit }, env')) := by
  -- the induction is on the bytes that may still arrive, as each round reads some
  induction hpending : s.pending using Nat.strongRecOn generalizing state s env env' with
  | ind pending ih =>
    subst hpending
    obtain ⟨acts, hraced⟩ := raced_read (r.demand state) hdeadline hdelays limit hclock
    rw [run_eq_andThen, run_eq_andThen r state (_, env')]
    refine hraced.andThen fun block hblock env₂ hclock₂ => ?_
    cases block with
    | nil => exact ⟨[], raced_of_no_request hraced.deadline_eq hraced.delays limit hclock₂ _⟩
    | cons b rest =>
      -- whether the reader goes on depends on the bytes alone, which are the same on both sides
      simp only [afterRead]
      cases hscan : r.scan state (b :: rest) with
      | done result unused =>
        exact ⟨[], raced_of_no_request hraced.deadline_eq hraced.delays limit hclock₂ _⟩
      | more next =>
        have hfewer := ByteSource.pending_read_lt (r.demand state) (s, env) b rest hblock
        exact ih _ hfewer next hraced.deadline_eq hraced.delays hclock₂ rfl

end Stream

end Stomp
