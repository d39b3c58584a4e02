import Stomp.Connection.Action
import Stomp.Proofs.History

/-!
# Nothing of a frame text is kept

While the text of a frame is received, the connection holds what it has of it. No operation leaves
any of this behind (`nothingKept_operation`): either it does not touch it, or it drops it, whatever
came of the text. So after every history the next receive begins with nothing
(`inputBuffer_after`).
-/

namespace Stomp.Connection

open Operation (Preserves after after_preserves preserves_attempt preserves_bind preserves_change
  preserves_changeEnvironment preserves_ite preserves_ofExcept preserves_pure preserves_subject
  preserves_throw)

/-- Nothing of a frame text is kept. -/
abbrev NothingKept (c : Connection) (_ : Environment) : Prop := c.inputBuffer = #[]

theorem nothingKept_onStream {α : Type} (op : Operation Stream α) :
    Preserves NothingKept (onStream op) := by
  intro c env h
  cases hstream : c.stream with
  | none => rwa [on_onStream_of_none hstream]
  | some stream => rwa [on_onStream_of_some hstream]

theorem nothingKept_close : Preserves NothingKept close := by
  intro c env h
  cases hstream : c.stream with
  | none => rwa [on_close_of_none hstream]
  | some stream =>
    simp only [close, Operation.on_bind, Operation.on_subject, hstream, Operation.on_apart]
    -- a failing socket only adds a notice
    cases (Stream.close.on stream env).1 <;> simpa [Operation.on_bind] using h

theorem nothingKept_notify (notice : Notice) :
    Preserves NothingKept (Operation.notify notice) :=
  preserves_changeEnvironment fun _ _ h => h

theorem nothingKept_hold (stream : Stream) : Preserves NothingKept (hold stream) :=
  preserves_change fun _ _ _ => rfl

theorem nothingKept_dial (peer : Network.Peer) (host : Text) (port : Int)
    (timeout : Option Seconds) : Preserves NothingKept (dial peer host port timeout) := by
  refine preserves_bind nothingKept_close fun _ => ?_
  cases peer.connectFault with
  | some reason =>
    exact preserves_bind (preserves_changeEnvironment fun _ _ h => h) fun _ => preserves_throw _
  | none =>
    -- whatever was kept before, holding a new stream drops it
    exact fun _ _ _ => rfl

theorem nothingKept_adoptSocket (peer : Network.Peer) :
    Preserves NothingKept (adoptSocket peer) := by
  refine preserves_bind (fun _ _ h => h) fun socket => ?_
  exact preserves_bind nothingKept_close fun _ => nothingKept_hold _

theorem nothingKept_closeStream : Preserves NothingKept closeStream := by
  refine preserves_bind preserves_subject fun c => ?_
  exact preserves_ite (nothingKept_onStream _) (preserves_pure _)

theorem nothingKept_sendFrame (f : Frame) : Preserves NothingKept (sendFrame f) := by
  refine preserves_bind (nothingKept_notify _) fun _ => ?_
  exact preserves_bind (preserves_ofExcept _) fun _ => nothingKept_onStream _

theorem nothingKept_receive (timeout : Option Rat) : Preserves NothingKept (receive timeout) := by
  refine preserves_bind preserves_subject fun c => ?_
  refine preserves_bind (nothingKept_onStream _) fun f => ?_
  exact preserves_bind (nothingKept_notify _) fun _ => preserves_pure _

/-- Whatever came of it, a text that was being received is dropped. -/
theorem nothingKept_receiveText (timeout : Option Rat) :
    Preserves NothingKept (receiveText timeout) := by
  refine preserves_bind (nothingKept_onStream _) fun _ => ?_
  refine preserves_bind preserves_subject fun c => ?_
  refine preserves_bind (preserves_attempt (nothingKept_onStream _)) fun outcome => ?_
  refine preserves_bind ?_ fun _ => preserves_ofExcept _
  exact preserves_change fun _ _ _ => rfl

theorem nothingKept_agree (reply : Frame) : Preserves NothingKept (agree reply) := by
  unfold agree
  split
  · exact preserves_pure _
  · split
    · exact preserves_throw _
    · exact preserves_change fun _ _ h => h

theorem nothingKept_handshake (f : Frame) : Preserves NothingKept (handshake f) := by
  refine preserves_bind (nothingKept_sendFrame _) fun _ => ?_
  refine preserves_bind (nothingKept_receive _) fun reply => ?_
  -- what is done if the reply accepts
  have haccepted : Preserves NothingKept (do
      agree reply
      Operation.change fun c => { c with connected := true }
      Operation.notify (.established (← Operation.subject).version)) := by
    refine preserves_bind (nothingKept_agree reply) fun _ => ?_
    refine preserves_bind (preserves_change fun _ _ h => h) fun _ => ?_
    exact preserves_bind preserves_subject fun c => nothingKept_notify _
  exact preserves_ite (preserves_bind (preserves_throw _) fun _ => haccepted) haccepted

theorem nothingKept_request (r : Request) : Preserves NothingKept (request r) := by
  refine preserves_bind (preserves_ofExcept _) fun f => ?_
  cases r with
  | connect => exact nothingKept_handshake f
  | connectWith => exact nothingKept_handshake f
  | disconnect =>
    exact preserves_bind (nothingKept_sendFrame f) fun _ => preserves_change fun _ _ h => h
  | _ => exact nothingKept_sendFrame f

/-- **Nothing of a frame text is kept**, whatever is done. -/
theorem nothingKept_operation (action : Action) : Preserves NothingKept action.operation := by
  -- what an operation gives has no part in what the connection keeps
  have hdone : ∀ {op : Operation Connection Unit}, Preserves NothingKept op →
      Preserves NothingKept (asDone op) :=
    fun h => preserves_bind h fun _ => preserves_pure _
  cases action with
  | dial peer host port timeout => exact hdone (nothingKept_dial peer host port timeout)
  | adopt peer => exact hdone (nothingKept_adoptSocket peer)
  | adoptStream stream =>
    exact hdone (preserves_bind nothingKept_close fun _ => nothingKept_hold stream)
  | close => exact hdone nothingKept_close
  | closeStream => exact hdone nothingKept_closeStream
  | request r => exact hdone (nothingKept_request r)
  | sendBytes destination data transaction headers =>
    refine hdone (preserves_bind (preserves_ofExcept _) fun f => ?_)
    exact preserves_bind (nothingKept_notify _) fun _ => nothingKept_onStream _
  | sendText text bytes => exact hdone (nothingKept_onStream _)
  | keepAlive => exact hdone (nothingKept_onStream _)
  | receive timeout => exact preserves_bind (nothingKept_receive timeout) fun _ => preserves_pure _
  | receiveText timeout =>
    exact preserves_bind (nothingKept_receiveText timeout) fun _ => preserves_pure _

/-- **After every history** of a connection that kept nothing, it keeps nothing. -/
theorem inputBuffer_after (actions : List Action) {c : Connection} (h : c.inputBuffer = #[])
    (env : Environment) : (after Action.operation actions c env).1.inputBuffer = #[] :=
  after_preserves (P := NothingKept) Action.operation (fun action _ => nothingKept_operation action)
    h

end Stomp.Connection
