import Stomp.Connection.Action
import Stomp.Proofs.Operation

/-!
# The two calls that receive

A connection receives in two ways: a decoded frame (`Connection.receive`) and the text of a frame
(`Connection.receiveText`). Each sets the deadline of the stream, reads from the stream with one
reader, and tells the log of a frame.

* `Call` — the two calls, and `Call.action` the action that each is;
* `Call.read` — what a call reads, from any source of bytes; a run of one reader, unless the
  version is none (`Call.read_cases`);
* `Call.on_action` — a call on an open stream is `Call.read` on the stream.
-/

namespace Stomp

/-- The stream with its deadline set to so many seconds from a moment on. -/
def Stream.withTimeout (s : Stream) (timeout : Option Rat) (now : Rat) : Stream :=
  { s with deadline := timeout.map (now + ·) }

/-- On an open stream, setting the time limit sets the deadline. -/
theorem Stream.on_setReadTimeout (timeout : Option Rat) {s : Stream} (h : s.closed = false)
    (env : Environment) :
    (setReadTimeout timeout).on s env = (.ok (), s.withTimeout timeout env.clock, env) := by
  have hnot : ¬ s.closed = true := by
    rw [h]
    exact Bool.false_ne_true
  rw [setReadTimeout, Operation.on_bind, on_requireOpen, if_neg hnot]
  rfl

namespace Connection

/-- A call that receives. -/
inductive Call
  /-- Receives a frame. -/
  | frame
  /-- Receives the text of a frame. -/
  | text
deriving DecidableEq, Repr

namespace Call

/-- The action that the call is, with a limit on its time or none. -/
def action : Call → Option Rat → Action
  | frame, timeout => .receive timeout
  | text, timeout => .receiveText timeout

/-- Receiving a frame is an action, and its outcome is the frame. -/
theorem on_receive_iff {timeout : Option Rat} {c c' : Connection} {env env' : Environment}
    {outcome : Except Error Frame} :
    (frame.action timeout).operation.on c env = (outcome.map .frame, c', env') ↔
      (Connection.receive timeout).on c env = (outcome, c', env') :=
  Operation.on_map_eq_iff fun _ _ => Outcome.frame.inj

/-- Receiving a text is an action, and its outcome is the text. -/
theorem on_receiveText_iff {timeout : Option Rat} {c c' : Connection} {env env' : Environment}
    {outcome : Except Error Text} :
    (text.action timeout).operation.on c env = (outcome.map .text, c', env') ↔
      (Connection.receiveText timeout).on c env = (outcome, c', env') :=
  Operation.on_map_eq_iff fun _ _ => Outcome.text.inj

/-- **What a call reads from a source**, in a version, if `kept` is the frame text that was received
so far. -/
def read {τ : Type} [ByteSource τ] (version : Text) (kept : Array UInt8) :
    Call → τ → Except Error Outcome × τ
  | frame, source =>
    ((Frame.read version source).1.map .frame, (Frame.read version source).2)
  | text, source =>
    ((Frame.rawReader.run { text := kept } source).1.map .text,
      (Frame.rawReader.run { text := kept } source).2)

/-- **A call reads with one reader**, and with the same one from every source, unless it fails
before it reads. If the source ends too early, that is an error of the protocol. -/
theorem read_cases (call : Call) (version : Text) (kept : Array UInt8) :
    (∃ e, ∀ {τ : Type} [ByteSource τ] (source : τ),
        call.read version kept source = (.error e, source)) ∨
      ∃ (σ α : Type) (r : Reader σ α) (state : σ) (f : α → Outcome),
        (∀ state, ∃ fault, r.ended state = .protocol fault) ∧
        ∀ {τ : Type} [ByteSource τ] (source : τ),
          call.read version kept source =
            ((r.run state source).1.map f, (r.run state source).2) := by
  cases call with
  | frame =>
    cases hversion : Version.parse? version with
    -- with a version that is none, a call fails before it reads
    | none =>
      refine .inl ⟨.protocol (.unsupportedVersion version), fun source => ?_⟩
      simp only [read, Frame.read, hversion]
      rfl
    | some v =>
      refine .inr ⟨_, _, Frame.decoder v.dialect, .start, .frame, fun _ => ⟨_, rfl⟩,
        fun source => ?_⟩
      simp only [read, Frame.read, hversion]
  | text =>
    exact .inr ⟨_, _, Frame.rawReader, { text := kept }, .text, fun _ => ⟨_, rfl⟩, fun _ => rfl⟩

/-- What a call leaves of the connection, with the stream that it leaves. -/
def after : Call → Connection → Stream → Connection
  | frame, c, s => { c with stream := some s }
  | text, c, s => { c with stream := some s, inputBuffer := #[] }

/-- A call leaves nothing of a text, so where nothing was kept, only the stream is different. -/
theorem after_of_kept (call : Call) {c : Connection} (h : c.inputBuffer = #[]) (s : Stream) :
    call.after c s = { c with stream := some s } := by
  cases call with
  | frame => rfl
  | text => rw [after, ← h]

/-- What a call tells the log. -/
def told : Except Error Outcome → List Notice
  | .ok (.frame f) => [.received f]
  | _ => []

/-- **A call on an open stream reads from the stream**, with the deadline that its time limit
gives. -/
theorem on_action (call : Call) (timeout : Option Rat) {c : Connection} {s : Stream}
    (hstream : c.stream = some s) (hopen : s.closed = false) (env : Environment) :
    ∃ outcome s' env',
      call.read c.version c.inputBuffer (s.withTimeout timeout env.clock, env) =
        (outcome, s', env') ∧
      (call.action timeout).operation.on c env =
        (outcome, call.after c s', { env' with notices := env'.notices ++ told outcome }) := by
  have hset := Stream.on_setReadTimeout timeout hopen env
  cases call with
  | frame =>
    have hread : (Stream.readFrame c.version).on (s.withTimeout timeout env.clock) env =
        Frame.read c.version (s.withTimeout timeout env.clock, env) := rfl
    simp only [action, Action.operation, Connection.receive, Operation.on_bind,
      Operation.on_subject, on_onStream_of_some hstream, hset, read, hread]
    rcases Frame.read c.version (s.withTimeout timeout env.clock, env) with ⟨e | f, s', env'⟩
    · refine ⟨_, _, _, rfl, ?_⟩
      -- nothing is told to the log
      simp [Except.map, told, after]
    · exact ⟨_, _, _, rfl, rfl⟩
  | text =>
    -- between the deadline and the text, the connection is looked up; only its stream has changed
    have hread : ∀ c' : Connection, c'.stream = some (s.withTimeout timeout env.clock) →
        (onStream (Stream.readText { text := c.inputBuffer })).on c' env =
          ((Frame.rawReader.run { text := c.inputBuffer }
              (s.withTimeout timeout env.clock, env)).1,
            { c' with stream := some (Frame.rawReader.run { text := c.inputBuffer }
              (s.withTimeout timeout env.clock, env)).2.1 },
            (Frame.rawReader.run { text := c.inputBuffer }
              (s.withTimeout timeout env.clock, env)).2.2) := fun c' h =>
      on_onStream_of_some h _ env
    simp only [action, Action.operation, Connection.receiveText, Operation.on_bind,
      Operation.on_subject, on_onStream_of_some hstream, hset, Operation.on_attempt, hread, read]
    -- whatever came of the text, the connection keeps none of it
    rcases Frame.rawReader.run { text := c.inputBuffer } (s.withTimeout timeout env.clock, env)
      with ⟨e | t, s', env'⟩ <;>
      exact ⟨_, _, _, rfl, by simp [Except.map, told, after]⟩

end Call

end Connection

end Stomp
