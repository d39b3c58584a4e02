import Mathlib.Data.List.Basic
import Stomp.Proofs.Connection.Receiving
import Stomp.Proofs.Stream.Deadline

/-!
# The time limit of a call

A call that receives has one limit on its time, however many times the socket is asked and in
however small pieces data comes. What a call with a limit does is told by the same call without
one:

* `InTime` — the call without a limit asks the socket for the last time before the limit, is never
  stalled, and is over by the limit; or it does not ask at all;
* `receive_timeout` — a call in time is the same with the limit and without; any other ends with a
  deadline, at the very moment at which the limit is over.
-/

namespace Stomp.Connection

open Network (Delivery DelaysNonneg Entry requests)
open Stomp.Stream (Prompt Raced Spans raced_of_no_request raced_run)

/-- **A call is in time**: it makes no request; or its last request begins before the limit, it is
not stalled, and it is over by the limit. -/
def InTime (limit : Rat) (requests : List (Rat × Delivery)) (finish : Rat) : Prop :=
  requests = [] ∨
    (∃ last, requests.getLast? = some last ∧ last.1 < limit) ∧
      (∀ r ∈ requests, r.2 ≠ .stalled) ∧ finish ≤ limit

/-- As requests begin one after another, it is enough to look at the last of them. -/
theorem prompt_iff_inTime {start finish : Environment} {acts : List Entry}
    (h : Spans start acts finish) (limit : Rat) :
    Prompt limit (requests acts) finish.clock ↔ InTime limit (requests acts) finish.clock := by
  -- the requests of a stretch begin in order, so the last begins latest
  have hordered : ((requests acts).map Prod.fst).Pairwise (· ≤ ·) :=
    (List.pairwise_append.mp (List.pairwise_cons.mp h.ordered).2).1
  rcases List.eq_nil_or_concat' (requests acts) with hnil | ⟨front, last, hconcat⟩
  · rw [hnil]
    exact ⟨fun _ => .inl rfl, fun _ => Stream.prompt_nil⟩
  · rw [hconcat] at hordered ⊢
    have hmem : last ∈ front ++ [last] := List.mem_append_right _ (List.mem_singleton_self last)
    constructor
    · intro hprompt
      exact .inr ⟨⟨last, List.getLast?_concat, (hprompt last hmem).1⟩,
        fun r hr => (hprompt r hr).2.1, (hprompt last hmem).2.2⟩
    · rintro (hnil | ⟨⟨last', hlast', hbefore⟩, hstalled, hfinish⟩) r hr
      · exact absurd hnil (List.append_ne_nil_of_right_ne_nil front (List.cons_ne_nil last []))
      · -- all others begin no later than the last
        obtain rfl : last = last' := Option.some.inj (List.getLast?_concat.symm.trans hlast')
        refine ⟨lt_of_le_of_lt ?_ hbefore, hstalled r hr, hfinish⟩
        rcases List.mem_append.mp hr with hfront | hlast
        · rw [List.map_append] at hordered
          exact (List.pairwise_append.mp hordered).2.2 r.1 (List.mem_map_of_mem hfront) last.1
            (List.mem_singleton_self _)
        · rw [List.mem_singleton.mp hlast]

/-- What a call reads with a deadline and without is side by side. -/
theorem raced_call (call : Call) (version : Text) (kept : Array UInt8) {s : Stream}
    (hdeadline : s.deadline = none) (hdelays : DelaysNonneg s.socket.peer.events) (limit : Rat)
    (env : Environment) :
    ∃ acts, Raced limit env acts (call.read version kept (s, env))
      (call.read version kept ({ s with deadline := some limit }, env)) := by
  rcases call.read_cases version kept with ⟨e, hread⟩ | ⟨σ, α, r, state, f, -, hread⟩
  · rw [hread, hread]
    exact ⟨[], raced_of_no_request hdeadline hdelays limit rfl _⟩
  · rw [hread, hread]
    obtain ⟨acts, hraced⟩ := raced_run r state hdeadline hdelays limit (Eq.refl env.clock)
    exact ⟨acts, hraced.map f⟩

/-- The call with a limit and the call without are what is read side by side, and what each of them
tells the log. -/
theorem raced_on_action (call : Call) (timeout : Rat) {c : Connection} {s : Stream}
    (hstream : c.stream = some s) (hopen : s.closed = false)
    (hdelays : DelaysNonneg s.socket.peer.events) (env : Environment) :
    ∃ acts outcome₁ s₁ env₁ notices₁ outcome₂ s₂ env₂ notices₂,
      (call.action none).operation.on c env =
        (outcome₁, call.after c s₁, { env₁ with notices := notices₁ }) ∧
      (call.action (some timeout)).operation.on c env =
        (outcome₂, call.after c s₂, { env₂ with notices := notices₂ }) ∧
      Raced (env.clock + timeout) env acts (outcome₁, s₁, env₁) (outcome₂, s₂, env₂) := by
  obtain ⟨outcome₁, s₁, env₁, hread₁, hon₁⟩ := call.on_action none hstream hopen env
  obtain ⟨outcome₂, s₂, env₂, hread₂, hon₂⟩ := call.on_action (some timeout) hstream hopen env
  have huntimed : (s.withTimeout none env.clock).deadline = none := rfl
  obtain ⟨acts, hraced⟩ := raced_call call c.version c.inputBuffer huntimed hdelays
    (env.clock + timeout) env
  -- the two streams that are read differ in the deadline alone
  have hlimited : { s.withTimeout none env.clock with deadline := some (env.clock + timeout) } =
      s.withTimeout (some timeout) env.clock := rfl
  rw [hlimited, hread₁, hread₂] at hraced
  exact ⟨acts, outcome₁, s₁, env₁, _, outcome₂, s₂, env₂, _, hon₁, hon₂, hraced⟩

/-- **One limit covers the whole of a call.** Let a call that receives be made on an open stream,
whatever waits in its buffer and whatever is to arrive when, as long as no delay is negative.
Without a limit, its requests for data begin one after another. With a limit, it lasts no longer
than the limit, or no time at all if that is negative. If the call without the limit is in time,
then the call with the limit gives the same, leaves the same but for the deadline, and ends at the
same moment. Otherwise it ends with a deadline, at the very moment at which the limit is over. -/
theorem receive_timeout (call : Call) (timeout : Rat) {c : Connection} {s : Stream}
    (hstream : c.stream = some s) (hopen : s.closed = false)
    (hdelays : DelaysNonneg s.socket.peer.events) (env : Environment) :
    let untimed := (call.action none).operation.on c env
    let timed := (call.action (some timeout)).operation.on c env
    let asked := requests (untimed.2.2.acts.drop env.acts.length)
    (env.clock :: asked.map Prod.fst ++ [untimed.2.2.clock]).Pairwise (· ≤ ·) ∧
    timed.2.2.clock ≤ env.clock + max timeout 0 ∧
    (InTime (env.clock + timeout) asked untimed.2.2.clock →
      timed.1 = untimed.1 ∧
      timed.2.1 = { untimed.2.1 with
        stream := untimed.2.1.stream.map fun t =>
          { t with deadline := some (env.clock + timeout) } } ∧
      timed.2.2.clock = untimed.2.2.clock) ∧
    (¬ InTime (env.clock + timeout) asked untimed.2.2.clock →
      (∃ fault, timed.1 = .error (.timeout fault)) ∧
      timed.2.2.clock = env.clock + max timeout 0) := by
  obtain ⟨acts, outcome₁, s₁, env₁, notices₁, outcome₂, s₂, env₂, notices₂, hon₁, hon₂, hraced⟩ :=
    raced_on_action call timeout hstream hopen hdelays env
  have hlimit : max env.clock (env.clock + timeout) = env.clock + max timeout 0 := by
    rw [max_comm, ← max_add_add_left, add_zero]
  -- what was asked since the beginning of the call
  have hasked : requests (env₁.acts.drop env.acts.length) = requests acts := by
    rw [hraced.spans.acts_eq, List.drop_left]
  have hprompt := prompt_iff_inTime hraced.spans (env.clock + timeout)
  rw [hon₁, hon₂]
  simp only [hasked]
  refine ⟨hraced.spans.ordered, hraced.clock_le.trans_eq hlimit, fun hin => ?_, fun hlate => ?_⟩
  · -- in time: what was read is the same, and what is told follows from it
    obtain ⟨houtcome, hsame, hclock⟩ := hraced.of_prompt (hprompt.mpr hin)
    refine ⟨houtcome, ?_, hclock⟩
    rw [show s₂ = _ from hsame]
    cases call <;> rfl
  · obtain ⟨hfault, hclock⟩ := hraced.of_late fun hin => hlate (hprompt.mp hin)
    exact ⟨hfault, hclock.trans hlimit⟩

/-- A connection to which a frame comes in three pieces, one second apart. -/
def trickling : Connection where
  stream := some
    { socket :=
        { number := 0
          peer :=
            { events :=
                [.arrival 1 (.data [82, 69, 67, 69]), .arrival 1 (.data [73, 80, 84, 10]),
                  .arrival 1 (.data [10, 0])] } } }

theorem receive_timeout_trickling :
    (((Call.frame.action (some 3)).operation.on trickling {}).1 =
        .ok (.frame { command := "RECEIPT" }) ∧
      ((Call.frame.action (some 3)).operation.on trickling {}).2.2.clock = 3) ∧
    (∃ fault, ((Call.frame.action (some 2)).operation.on trickling {}).1 =
        .error (.timeout fault)) ∧
      ((Call.frame.action (some 2)).operation.on trickling {}).2.2.clock = 2 := by
  have hdelays : DelaysNonneg
      [.arrival 1 (.data [82, 69, 67, 69]), .arrival 1 (.data [73, 80, 84, 10]),
        .arrival 1 (.data [10, 0])] := by
    intro delay what hmem
    simp only [List.mem_cons, Network.Event.arrival.injEq, List.not_mem_nil, or_false] at hmem
    rcases hmem with ⟨rfl, -⟩ | ⟨rfl, -⟩ | ⟨rfl, -⟩ <;> exact zero_le_one
  have hresult : ((Call.frame.action none).operation.on trickling {}).1 =
      .ok (.frame { command := "RECEIPT" }) := by decide +kernel
  have hfinish : ((Call.frame.action none).operation.on trickling {}).2.2.clock = 3 := by
    decide +kernel
  have hasked : requests (((Call.frame.action none).operation.on trickling {}).2.2.acts.drop
      ({} : Environment).acts.length) =
        [(0, .chunk [82, 69, 67, 69]), (1, .chunk [73, 80, 84, 10]), (2, .chunk [10, 0])] := by
    decide +kernel
  obtain ⟨-, -, hin, -⟩ := receive_timeout .frame 3 (c := trickling) rfl rfl hdelays {}
  obtain ⟨-, -, -, hlate⟩ := receive_timeout .frame 2 (c := trickling) rfl rfl hdelays {}
  rw [hasked, hfinish] at hin hlate
  constructor
  · -- the last piece comes at the very deadline
    have hintime : InTime (0 + 3)
        [(0, .chunk [82, 69, 67, 69]), (1, .chunk [73, 80, 84, 10]), (2, .chunk [10, 0])] 3 := by
      refine .inr ⟨⟨_, rfl, ?_⟩, ?_, ?_⟩
      · norm_num
      · simp
      · norm_num
    obtain ⟨hsame, -, hclock⟩ := hin hintime
    exact ⟨hsame.trans hresult, hclock⟩
  · -- with a second less, the last request begins at the limit and not before
    have hlast : ¬ InTime (0 + 2)
        [(0, .chunk [82, 69, 67, 69]), (1, .chunk [73, 80, 84, 10]), (2, .chunk [10, 0])] 3 := by
      rintro (hnil | ⟨⟨last, hlast, hbefore⟩, -⟩)
      · cases hnil
      · cases hlast
        norm_num at hbefore
    obtain ⟨hfault, hclock⟩ := hlate hlast
    refine ⟨hfault, hclock.trans ?_⟩
    norm_num

end Stomp.Connection
