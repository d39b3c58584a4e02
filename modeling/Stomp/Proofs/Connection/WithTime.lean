import Stomp.Proofs.Connection.Chunking
import Stomp.Proofs.Connection.Serving
import Stomp.Proofs.Connection.TimeLimit

/-!
# Calls that have time

A call with a limit on its time does what the call without a limit does, if that is over before the
limit; and what the call without a limit does is told by the bytes that are available. So a call
that has time is told by these bytes too, and by how the line ends after them.

* `Call.HasTime` — a call has no limit, or would be over within it;
* `Call.Undisturbed` — a call is made on an open stream, with nothing kept and with time;
* `Undisturbed.on_action_of_enough` — where the bytes that are available are enough, the outcome and
  what is left are as on bytes that are all at hand;
* `Undisturbed.on_action_of_overrun` — where they are not, and the peer closes its end after them,
  the call takes all of them and ends as an input that is too short.
-/

namespace Stomp

namespace Network

/-- What comes after the data, if anything does, is that the peer closes its end. -/
def EndsAfterData (events : List Event) : Prop :=
  ∀ event ∈ (afterData events).head?, ∃ delay, event = .arrival delay .peerClosed

/-- Where the peer closes its end after the data, the end of the data is the end of the input. -/
theorem Peer.afterwards_of_endsAfterData {peer : Peer} (h : EndsAfterData peer.events) (e : Error) :
    peer.afterwards e = e := by
  unfold afterwards
  cases hnext : (afterData peer.events).head? with
  | none => rfl
  | some event =>
    obtain ⟨delay, rfl⟩ := h event hnext
    rfl

end Network

/-- The deadline of the stream has no part in how reading from it agrees with a tape. -/
theorem Stream.Agrees.withoutDeadline {α : Type} {peer : Network.Peer}
    {onTape : Except Error α × Tape} {outcome : Except Error α} {s : Stream} {env : Environment}
    (h : Agrees peer onTape (outcome, s, env)) (env' : Environment) :
    Agrees peer onTape (outcome, { s with deadline := none }, env') where
  of_enough henough := by
    obtain ⟨hsame, hlistening, havailable⟩ := h.of_enough henough
    exact ⟨hsame, ⟨hlistening.closed_eq, rfl, hlistening.readSize_pos, hlistening.data_nonempty,
      hlistening.afterData_eq, hlistening.closeFault_eq⟩, havailable⟩
  of_overrun hoverrun := by
    obtain ⟨e, htape, hstream, hpast⟩ := h.of_overrun hoverrun
    exact ⟨e, htape, hstream, hpast.unread_eq, hpast.events_eq⟩

namespace Connection

open Network (DelaysNonneg EndsAfterData requests)
open Stomp.Stream (Agrees Listening Live PastData)

namespace Call

/-- **A call has time**: there is no limit on it, or the call without a limit would be over in
time. -/
def HasTime (call : Call) (timeout : Option Rat) (c : Connection) (env : Environment) : Prop :=
  ∀ limit ∈ timeout,
    let untimed := (call.action none).operation.on c env
    (∀ s ∈ c.stream, DelaysNonneg s.socket.peer.events) ∧
      InTime (env.clock + limit) (requests (untimed.2.2.acts.drop env.acts.length))
        untimed.2.2.clock

theorem hasTime_none (call : Call) (c : Connection) (env : Environment) :
    call.HasTime none c env :=
  fun _ hlimit => nomatch hlimit

/-- **A call is undisturbed**: it is made on an open stream, with nothing kept of a text, and it has
time. -/
structure Undisturbed (call : Call) (timeout : Option Rat) (c : Connection) (s : Stream)
    (env : Environment) : Prop where
  stream_eq : c.stream = some s
  live : Live s
  inputBuffer_eq : c.inputBuffer = #[]
  hasTime : call.HasTime timeout c env

namespace Undisturbed

variable {call : Call} {timeout : Option Rat} {c : Connection} {s : Stream} {env : Environment}

/-- **A call that has time agrees with the call on a tape** that holds the bytes which are
available. -/
theorem agrees (h : call.Undisturbed timeout c s env) :
    ∃ outcome s' env', (call.action timeout).operation.on c env =
        (outcome, { c with stream := some s' }, env') ∧
      Agrees s.socket.peer (call.read c.version #[] (⟨s.available, false⟩ : Tape))
        (outcome, { s' with deadline := none }, env') := by
  -- without a limit the stream listens, and the call is told by the tape
  have hlistening : Listening s.socket.peer (s.withTimeout none env.clock) :=
    { closed_eq := h.live.closed_eq
      deadline_eq := rfl
      readSize_pos := h.live.readSize_pos
      data_nonempty := h.live.data_nonempty
      afterData_eq := rfl
      closeFault_eq := rfl }
  obtain ⟨outcome, s', env', hon, hagrees⟩ :=
    agrees_on_action call h.stream_eq h.inputBuffer_eq env hlistening
  cases timeout with
  | none => exact ⟨outcome, s', env', hon, hagrees.withoutDeadline env'⟩
  | some limit =>
    obtain ⟨hdelays, hintime⟩ := h.hasTime limit rfl
    obtain ⟨acts, outcome₁, s₁, env₁, notices₁, outcome₂, s₂, env₂, notices₂, hon₁, hon₂, hraced⟩ :=
      raced_on_action call limit h.stream_eq h.live.closed_eq (hdelays s h.stream_eq) env
    -- the call with the limit is in time, so it is the call without
    have hprompt : Stream.Prompt (env.clock + limit) (requests acts) env₁.clock := by
      rw [prompt_iff_inTime hraced.spans]
      rw [hon₁] at hintime
      have hasked : requests (env₁.acts.drop env.acts.length) = requests acts := by
        rw [hraced.spans.acts_eq, List.drop_left]
      rw [← hasked]
      exact hintime
    obtain ⟨houtcome, hstream, -⟩ := hraced.of_prompt hprompt
    dsimp only at houtcome hstream
    subst houtcome hstream
    rw [call.after_of_kept h.inputBuffer_eq] at hon₁ hon₂
    refine ⟨_, _, _, hon₂, ?_⟩
    rw [hon] at hon₁
    -- both say what the call without the limit leaves, so it is one outcome and one stream
    obtain ⟨rfl, hafter⟩ := Prod.mk.inj hon₁
    obtain rfl : s' = s₁ :=
      Option.some.inj (congrArg Connection.stream (Prod.mk.inj hafter).1)
    exact hagrees.withoutDeadline _

/-- **The bytes that are available are enough**: the outcome is theirs, and what they leave stays
available. -/
theorem on_action_of_enough (h : call.Undisturbed timeout c s env)
    {outcome : Except Error Outcome} {rest : Bytes}
    (htape : call.read c.version #[] (⟨s.available, false⟩ : Tape) = (outcome, ⟨rest, false⟩)) :
    ∃ s' env', (call.action timeout).operation.on c env =
        (outcome, { c with stream := some s' }, env') ∧ Live s' ∧ s'.available = rest := by
  obtain ⟨outcome', s', env', hon, hagrees⟩ := h.agrees
  rw [htape] at hagrees
  obtain ⟨houtcome, hlistening, havailable⟩ := hagrees.of_enough rfl
  obtain rfl : outcome' = outcome := houtcome
  exact ⟨s', env', hon,
    ⟨hlistening.closed_eq, hlistening.readSize_pos, hlistening.data_nonempty⟩, havailable⟩

/-- **The bytes that are available are not enough**, and the peer closes its end after them: all of
them are taken, and the call ends in the error of an input that ends too early. -/
theorem on_action_of_overrun (h : call.Undisturbed timeout c s env)
    (hends : EndsAfterData s.socket.peer.events) {e : Error} {left : Bytes}
    (htape : call.read c.version #[] (⟨s.available, false⟩ : Tape) = (.error e, ⟨left, true⟩)) :
    ∃ s' env', (call.action timeout).operation.on c env =
        (.error e, { c with stream := some s' }, env') ∧ PastData s.socket.peer s' := by
  obtain ⟨outcome', s', env', hon, hagrees⟩ := h.agrees
  rw [htape] at hagrees
  obtain ⟨e', he, houtcome, hpast⟩ := hagrees.of_overrun rfl
  obtain rfl : e = e' := Except.error.inj he
  -- the line ends as the tape does
  rw [Network.Peer.afterwards_of_endsAfterData hends] at houtcome
  obtain rfl : outcome' = .error e := houtcome
  exact ⟨s', env', hon, hpast.unread_eq, hpast.events_eq⟩

end Undisturbed

end Call

end Connection

end Stomp
