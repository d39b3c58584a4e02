import Stomp.Tools

/-!
# Calls of tools

Everything that a caller can ask the tools, as values, so that a history of the
tools is a list. A call that may dial brings along what will answer there.
-/

namespace Stomp.Tools

open Network (Peer)

/-- Something to ask the tools. -/
inductive Call
  | connect (peer : Peer) (login passcode : Text) (broker : Broker) (clientId : Option Text)
  | disconnect (receiptId : Option Text)
  | send (destination body : Text) (transaction : Option Text) (headers : Headers)
  | subscribe (destination : Text) (mode : Option Text) (headers : Headers)
  | unsubscribe (destination : Text) (headers : Headers)
  | receive (timeout : Option Seconds)
  | receiveRaw (timeout : Option Seconds)
  | ack (messageId : Text) (transaction : Option Text)
  | nack (messageId : Text) (transaction : Option Text)
  | begin (id : Text)
  | commit (id : Text)
  | abort (id : Text)
  | keepAlive
  /-- Asks for the document on the state of the session. -/
  | status
  /-- Asks for the document on the protocol. -/
  | commands
deriving DecidableEq, Repr

/-- Answers the call. -/
def Call.operation : Call → Operation Tools Answer
  | connect peer login passcode broker clientId =>
    Tools.connect peer login passcode broker clientId
  | disconnect receiptId => Tools.disconnect receiptId
  | send destination body transaction headers => Tools.send destination body transaction headers
  | subscribe destination mode headers => Tools.subscribe destination mode headers
  | unsubscribe destination headers => Tools.unsubscribe destination headers
  | receive timeout => Tools.receive timeout
  | receiveRaw timeout => Tools.receiveRaw timeout
  | ack messageId transaction => Tools.ack messageId transaction
  | nack messageId transaction => Tools.nack messageId transaction
  | begin id => Tools.begin id
  | commit id => Tools.commit id
  | abort id => Tools.abort id
  | keepAlive => Tools.keepAlive
  | status => do return .document (← Operation.subject).status
  | commands => return .document protocolCommands

end Stomp.Tools
