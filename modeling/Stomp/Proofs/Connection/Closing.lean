import Stomp.Proofs.Connection.Receiving
import Stomp.Proofs.Connection.Steps
import Stomp.Proofs.History
import Stomp.Proofs.Stream.Closing

/-!
# What is left to do with a closed stream

A stream is used directly or through the connection that holds it (`Use`), and it may be closed in
the middle: by asking for it, or from another side while a use waits for the socket. From then on it
is dead, and whatever else is asked for is refused and does nothing at all (`on_use_of_dead`). The
use under which an open stream is closed fails itself, with an error of the connection and no other
(`ended_use`).

The main statement, `dead_for_good`, says both of every history.
-/

namespace Stomp.Connection

open Operation (Preserves after after_preserves history history_cons)
open Stomp.Stream (Dead Ended)

/-- Something that is done with the stream that a connection holds. -/
inductive Use
  | write (bytes : Bytes)
  | flush
  | setReadTimeout (timeout : Option Rat)
  | read (n : Nat)
  | readAllBut (kept : Nat)
  | readByte
  /-- Reads one frame, as a version has it. -/
  | readFrame (version : Text)
  /-- Receives through the connection. -/
  | receive (call : Call) (timeout : Option Rat)
  | close
deriving DecidableEq, Repr

/-- What a use gives. -/
inductive Yield
  | outcome (outcome : Outcome)
  | bytes (bytes : Bytes)
  /-- No byte if the peer has closed its end. -/
  | byte (byte : Option UInt8)
deriving DecidableEq, Repr

/-- It is done. -/
def Yield.ofDone (_ : Unit) : Yield := .outcome .done

namespace Use

/-- Does what is asked for. -/
def operation : Use → Operation Connection Yield
  | write bytes => .ofDone <$> onStream (Stream.write bytes)
  | flush => .ofDone <$> onStream Stream.flush
  | setReadTimeout timeout => .ofDone <$> onStream (Stream.setReadTimeout timeout)
  | read n => .bytes <$> onStream (Stream.read n)
  | readAllBut kept => .bytes <$> onStream (Stream.readAllBut kept)
  | readByte => .byte <$> onStream Stream.readByte
  | readFrame version => (fun f => .outcome (.frame f)) <$> onStream (Stream.readFrame version)
  | receive call timeout => .outcome <$> (call.action timeout).operation
  | close => .ofDone <$> onStream Stream.close

/-- **What a closed stream refuses**: all but to be closed again. At a version that is none, a frame
is not read in the first place. -/
def Refused : Use → Prop
  | close => False
  | readFrame version => (Version.parse? version).isSome
  | _ => True

end Use

variable {c : Connection} {s : Stream}

/-- What is done with the stream that is held. -/
theorem on_map_onStream {α β : Type} (f : α → β) (op : Operation Stream α)
    (hstream : c.stream = some s) (env : Environment) :
    (f <$> onStream op).on c env =
      ((op.on s env).1.map f, { c with stream := some (op.on s env).2.1 },
        (op.on s env).2.2) := by
  rw [Operation.on_map, on_onStream_of_some hstream]

/-! ### On a dead stream -/

/-- What refuses dead streams does so where a connection holds one. -/
theorem on_onStream_of_dead {α : Type} {op : Operation Stream α} (hop : Stream.RefusesDead op)
    (hstream : c.stream = some s) (hdead : s.Dead) (env : Environment) :
    (onStream op).on c env = (.error (.connection .streamClosed), c, env) := by
  rw [on_onStream_of_some hstream, hop s env hdead, ← hstream]

/-- Receiving sets the time limit first, and comes no further. -/
theorem on_receive_of_dead (call : Call) (timeout : Option Rat) (hstream : c.stream = some s)
    (hdead : s.Dead) (env : Environment) :
    (call.action timeout).operation.on c env = (.error (.connection .streamClosed), c, env) := by
  cases call with
  | frame =>
    -- the time limit is set on the stream, before anything is read
    have hinput : Stream.RefusesDead (input timeout c.version) :=
      Stream.refusesDead_bind (Stream.refusesDead_setReadTimeout timeout)
    have hreceive : (Connection.receive timeout).on c env =
        (.error (.connection .streamClosed), c, env) := by
      rw [on_receive, on_onStream_of_dead hinput hstream hdead]
    show (Connection.receive timeout >>= fun f => pure (Outcome.frame f)).on c env = _
    rw [Operation.on_bind, hreceive]
  | text =>
    have hreceive : (Connection.receiveText timeout).on c env =
        (.error (.connection .streamClosed), c, env) := by
      rw [Connection.receiveText, Operation.on_bind,
        on_onStream_of_dead (Stream.refusesDead_setReadTimeout timeout) hstream hdead]
    show (Connection.receiveText timeout >>= fun t => pure (Outcome.text t)).on c env = _
    rw [Operation.on_bind, hreceive]

/-- **On a dead stream nothing is done**, and what is refused fails. -/
theorem on_use_of_dead (use : Use) (hstream : c.stream = some s) (hdead : s.Dead)
    (env : Environment) :
    (use.operation.on c env).2 = (c, env) ∧
      (use.Refused → (use.operation.on c env).1 = .error (.connection .streamClosed)) := by
  -- to use the stream and wrap what comes of it fails as the use does
  have hrefuses : ∀ {α : Type} (f : α → Yield) {op : Operation Connection α},
      op.on c env = (.error (.connection .streamClosed), c, env) →
        ((f <$> op).on c env).2 = (c, env) ∧
          (use.Refused → ((f <$> op).on c env).1 = .error (.connection .streamClosed)) := by
    intro α f op hop
    rw [Operation.on_map, hop]
    exact ⟨rfl, fun _ => rfl⟩
  cases use with
  | write bytes =>
    exact hrefuses _ (on_onStream_of_dead (Stream.refusesDead_write bytes) hstream hdead env)
  | flush => exact hrefuses _ (on_onStream_of_dead Stream.refusesDead_flush hstream hdead env)
  | setReadTimeout timeout =>
    exact hrefuses _
      (on_onStream_of_dead (Stream.refusesDead_setReadTimeout timeout) hstream hdead env)
  | read n => exact hrefuses _ (on_onStream_of_dead (Stream.refusesDead_read n) hstream hdead env)
  | readAllBut kept =>
    exact hrefuses _ (on_onStream_of_dead (Stream.refusesDead_readAllBut kept) hstream hdead env)
  | readByte =>
    exact hrefuses _ (on_onStream_of_dead Stream.refusesDead_readByte hstream hdead env)
  | readFrame version =>
    cases hversion : Version.parse? version with
    | some v =>
      exact hrefuses _
        (on_onStream_of_dead (Stream.refusesDead_readFrame hversion) hstream hdead env)
    | none =>
      -- the stream is not even looked at
      refine ⟨?_, fun h => by simp [Use.Refused, hversion] at h⟩
      rw [Use.operation, on_map_onStream _ _ hstream, Stream.readFrame_of_eq_none hversion,
        Operation.on_throw, ← hstream]
  | receive call timeout =>
    exact hrefuses _ (on_receive_of_dead call timeout hstream hdead env)
  | close =>
    -- closing once more is not refused, but it does nothing
    refine ⟨?_, False.elim⟩
    rw [Use.operation, on_map_onStream _ _ hstream, Stream.on_close_of_dead hdead, ← hstream]

/-! ### On an open stream -/

/-- What a call reads dies with the stream. -/
theorem ended_read (call : Call) (version : Text) (kept : Array UInt8) (hopen : s.closed = false)
    (env : Environment) : Ended env (call.read version kept (s, env)) := by
  rcases call.read_cases version kept with ⟨e, hread⟩ | ⟨σ, α, r, state, f, -, hread⟩
  · -- nothing is read
    rw [hread]
    exact Stream.ended_of_unchanged hopen _
  · rw [hread]
    exact (Stream.diesWith_run r state s env hopen).map f

/-- Receiving through the connection dies with the stream as well. -/
theorem ended_receive (call : Call) (timeout : Option Rat) (hstream : c.stream = some s)
    (hopen : s.closed = false) (env : Environment) :
    ∃ s' outcome env', (call.action timeout).operation.on c env =
        (outcome, call.after c s', env') ∧ Ended env (outcome, s', env') := by
  obtain ⟨outcome, s', env', hread, hon⟩ := call.on_action timeout hstream hopen env
  have hended := ended_read call c.version c.inputBuffer
    (s := s.withTimeout timeout env.clock) hopen env
  rw [hread] at hended
  -- what the log is told makes no difference
  exact ⟨s', outcome, _, hon, hended.closed_iff, hended.dead, hended.failed⟩

/-- **On an open stream** nothing survives the end of the stream, and closing ends it. -/
theorem ended_use (use : Use) (hstream : c.stream = some s) (hopen : s.closed = false)
    (env : Environment) :
    ∃ s', (use.operation.on c env).2.1.stream = some s' ∧ (use = .close → s'.Dead) ∧
      (use ≠ .close →
        Ended env ((use.operation.on c env).1, s', (use.operation.on c env).2.2)) := by
  -- all but closing and receiving are one operation on the stream, and die with it
  have hdies : ∀ {α : Type} (f : α → Yield) {op : Operation Stream α}, Stream.DiesWith op →
      use ≠ .close → ∃ s', ((f <$> onStream op).on c env).2.1.stream = some s' ∧
        (use = .close → s'.Dead) ∧
        (use ≠ .close → Ended env (((f <$> onStream op).on c env).1, s',
          ((f <$> onStream op).on c env).2.2)) := by
    intro α f op hop hne
    rw [on_map_onStream f op hstream]
    exact ⟨_, rfl, fun h => absurd h hne, fun _ => (hop s env hopen).map f⟩
  cases use with
  | write bytes => exact hdies _ (Stream.diesWith_write bytes) Use.noConfusion
  | flush => exact hdies _ Stream.diesWith_flush Use.noConfusion
  | setReadTimeout timeout =>
    exact hdies _ (Stream.diesWith_setReadTimeout timeout) Use.noConfusion
  | read n => exact hdies _ (Stream.diesWith_read n) Use.noConfusion
  | readAllBut kept => exact hdies _ (Stream.diesWith_readAllBut kept) Use.noConfusion
  | readByte => exact hdies _ Stream.diesWith_readByte Use.noConfusion
  | readFrame version => exact hdies _ (Stream.diesWith_readFrame version) Use.noConfusion
  | receive call timeout =>
    obtain ⟨s', outcome, env', hon, hended⟩ := ended_receive call timeout hstream hopen env
    have hstream' : (call.after c s').stream = some s' := by cases call <;> rfl
    rw [Use.operation, Operation.on_map, hon]
    exact ⟨s', hstream', Use.noConfusion, fun _ => hended.map _⟩
  | close =>
    rw [Use.operation, on_map_onStream _ _ hstream]
    exact ⟨_, rfl, fun _ => Stream.dead_close hopen env, fun hne => absurd rfl hne⟩

/-! ### Every history -/

/-- The connection holds a stream, and if that is closed it is dead. -/
def Holds (c : Connection) : Prop := ∃ s, c.stream = some s ∧ (s.closed = true → s.Dead)

theorem holds_use (use : Use) : Preserves (fun c _ => Holds c) use.operation := by
  rintro c env ⟨s, hstream, hdead⟩
  cases hclosed : s.closed with
  | true =>
    -- nothing is done any more
    rw [(on_use_of_dead use hstream (hdead hclosed) env).1]
    exact ⟨s, hstream, hdead⟩
  | false =>
    obtain ⟨s', hstream', hclose, hended⟩ := ended_use use hstream hclosed env
    refine ⟨s', hstream', ?_⟩
    by_cases huse : use = .close
    · exact fun _ => hclose huse
    · exact (hended huse).dead

/-- **A dead stream stays as it is**, and nothing is done to the network or told to the log. -/
theorem history_of_dead (hstream : c.stream = some s) (hdead : s.Dead) (env : Environment)
    (later : List Use) :
    after Use.operation later c env = (c, env) ∧
      ∀ d ∈ history Use.operation later c env, d.acts = [] ∧ d.notices = [] ∧
        (d.asked.Refused → d.outcome = .error (.connection .streamClosed)) := by
  induction later with
  | nil => exact ⟨rfl, by simp⟩
  -- the first use left everything as it was, so the rest begins where it began
  | cons use later ih =>
    obtain ⟨hsame, hrefused⟩ := on_use_of_dead use hstream hdead env
    rw [after, history_cons, hsame]
    refine ⟨ih.1, List.forall_mem_cons.mpr ⟨⟨?_, ?_, hrefused⟩, ih.2⟩⟩
    · rw [Operation.deed, hsame]
      exact List.drop_length
    · rw [Operation.deed, hsame]
      exact List.drop_length

/-- **A closed stream is dead for good.** Let a stream be used in any way, directly or through the
connection that holds it, beginning with an open stream in whatever state and whatever its socket
will do. Once it is closed, nothing waits on either side of it, and nothing that is asked for later
changes it, does anything to the network or gives anything: all is refused. As long as it is open,
asking to close it closes it, even if the socket fails; and any other use finds it closed at its end
exactly if the socket was closed while the use waited for it, and then fails with an error of the
connection. -/
theorem dead_for_good (hstream : c.stream = some s) (hopen : s.closed = false) (env : Environment)
    (earlier : List Use) :
    let last := after Use.operation earlier c env
    ∃ t, last.1.stream = some t ∧
      (t.closed = true → t.Dead ∧ ∀ later,
        after Use.operation later last.1 last.2 = last ∧
          ∀ d ∈ history Use.operation later last.1 last.2, d.acts = [] ∧ d.notices = [] ∧
            (d.asked.Refused → d.outcome = .error (.connection .streamClosed))) ∧
      (t.closed = false → ∀ use : Use,
        let done := use.operation.on last.1 last.2
        ∃ t', done.2.1.stream = some t' ∧ (use = .close → t'.Dead) ∧
          (use ≠ .close → Ended last.2 (done.1, t', done.2.2))) := by
  intro last
  -- that the stream is held, and dead once it is closed, is what every use preserves
  have hstart : Holds c := ⟨s, hstream, fun hclosed => by simp [hopen] at hclosed⟩
  obtain ⟨t, ht, hdead⟩ : Holds last.1 :=
    after_preserves Use.operation (P := fun c _ => Holds c) (fun use _ => holds_use use) hstart
  refine ⟨t, ht, fun hclosed => ?_, fun hopen' use => ended_use use ht hopen' last.2⟩
  exact ⟨hdead hclosed, history_of_dead ht (hdead hclosed) last.2⟩

/-- A connection to which half a frame has come and more is to come, on a socket that is closed from
its own side in between, and then can be neither shut down nor closed without a fault. -/
def closedMidway : Connection where
  stream := some
    { socket :=
        { number := 0
          peer :=
            { events := [.arrival 1 (.data [69, 10, 97]), .arrival 1 .localClose,
                .arrival 0 (.data [58, 10, 10, 0])]
              shutdownFault := some "busy"
              closeFault := some "broken" } }
      unread := [77, 69, 83, 83, 65, 71]
      unsent := [10] }

theorem dead_for_good_closedMidway :
    (∃ fault, ((Use.receive .frame (some 10)).operation.on closedMidway {}).1 =
      .error (.connection fault)) ∧
    let last := after Use.operation [.receive .frame (some 10)] closedMidway {}
    (∃ t, last.1.stream = some t ∧ t.Dead) ∧
      ∀ d ∈ history Use.operation [.read 1, .readFrame "1.2", .receive .text none, .flush]
          last.1 last.2,
        d.acts = [] ∧ d.outcome = .error (.connection .streamClosed) := by
  have hclosed : (after Use.operation [.receive .frame (some 10)] closedMidway {}).1.stream.map
      Stream.closed = some true := by decide +kernel
  have hversion : (Version.parse? "1.2").isSome := by decide +kernel
  obtain ⟨t, ht, hdead, -⟩ :=
    dead_for_good (c := closedMidway) rfl rfl {} [.receive .frame (some 10)]
  obtain ⟨s, hs, -, hopen⟩ := dead_for_good (c := closedMidway) rfl rfl {} []
  obtain rfl := Option.some.inj hs
  rw [ht] at hclosed
  obtain ⟨hdead, hlater⟩ := hdead (Option.some.inj hclosed)
  obtain ⟨s', hs', -, hended⟩ := hopen rfl (.receive .frame (some 10))
  obtain rfl : t = s' := Option.some.inj (ht.symm.trans hs')
  refine ⟨(hended Use.noConfusion).failed (Option.some.inj hclosed), ⟨t, ht, hdead⟩, ?_⟩
  intro d hd
  obtain ⟨hacts, -, hrefused⟩ := (hlater _).2 d hd
  refine ⟨hacts, hrefused ?_⟩
  simp only [history_cons, Operation.history_nil, List.mem_cons, List.not_mem_nil, or_false] at hd
  rcases hd with rfl | rfl | rfl | rfl
  · trivial
  · exact hversion
  · trivial
  · trivial

end Stomp.Connection
