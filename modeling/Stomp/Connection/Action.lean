import Stomp.Connection

/-!
# Actions on a connection

Everything that can be done with a connection, as values, so that a history of
a connection is a list. Each action has its operation (`Action.operation`) and
gives an `Outcome` if it does not fail.
-/

namespace Stomp.Connection

open Network (Peer)

/-- Something to do with a connection. -/
inductive Action
  /-- Opens a new stream to a host; `peer` is what will answer there. -/
  | dial (peer : Peer) (host : Text) (port : Int) (timeout : Option Seconds)
  /-- Opens the connection on a new stream that was set up elsewhere. -/
  | adopt (peer : Peer)
  /-- Opens the connection on a stream that exists already, in whatever state it is. -/
  | adoptStream (stream : Stream)
  | close
  | closeStream
  | request (r : Request)
  | sendBytes (destination : Text) (data : Bytes) (transaction : Option Text) (headers : Headers)
  | sendText (text : Text) (bytes : Bytes)
  | keepAlive
  | receive (timeout : Option Rat)
  | receiveText (timeout : Option Rat)
deriving DecidableEq, Repr

/-- What an action gives. -/
inductive Outcome
  | done
  | frame (frame : Frame)
  | text (text : Text)
deriving DecidableEq, Repr

/-- An operation that gives nothing but that it is done. -/
def asDone (op : Operation Connection Unit) : Operation Connection Outcome := do
  op
  return .done

/-- Begins afresh on a new socket to a peer. -/
def adoptSocket (peer : Peer) : Operation Connection Unit := do
  let socket ← Operation.newSocket peer
  adopt { socket }

/-- Does the action. -/
def Action.operation : Action → Operation Connection Outcome
  | dial peer host port timeout => asDone (Connection.dial peer host port timeout)
  | adopt peer => asDone (adoptSocket peer)
  | adoptStream stream => asDone (Connection.adopt stream)
  | close => asDone Connection.close
  | closeStream => asDone Connection.closeStream
  | request r => asDone (Connection.request r)
  | sendBytes destination data transaction headers =>
    asDone (Connection.sendBytes destination data transaction headers)
  | sendText text bytes => asDone (Connection.sendText text bytes)
  | keepAlive => asDone Connection.keepAlive
  | receive timeout => do return .frame (← Connection.receive timeout)
  | receiveText timeout => do return .text (← Connection.receiveText timeout)

end Stomp.Connection
