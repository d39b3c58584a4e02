import Stomp.Frame.Wire

/-!
# Requests

A request is what a client asks of a broker, and `Request.frame` is the frame
that asks it. Headers that the caller brings along come first and in their
order; the request's own headers are set over them and win a clash of names.
-/

namespace Stomp

/-- The acknowledgement modes of a subscription. -/
def ackModes : List Text := ["auto", "client", "client-individual"]

/-- The message that an acknowledgement is about. -/
inductive MessageRef
  | absent
  | id (id : Text)
  /-- A message as it was received. -/
  | frame (frame : Frame)
deriving DecidableEq, Repr, Inhabited

/-- The id of the message, if it has one. -/
def MessageRef.id? : MessageRef → Option Text
  | absent => none
  | id i => some i
  | frame f => f.headers.get? Headers.Name.messageId

/-- What a client asks of a broker. -/
inductive Request
  | connect (login passcode : Text) (clientId : Option Text)
  | connectWith (headers : Headers)
  | disconnect (receiptId : Option Text)
  | send (destination : Text) (body : Body) (transaction : Option Text) (headers : Headers)
  | subscribe (destination : Text) (mode : Option Text) (headers : Headers)
  | unsubscribe (destination : Text) (headers : Headers)
  | begin (transaction : Text)
  | commit (transaction : Text)
  | abort (transaction : Text)
  | ack (message : MessageRef) (transaction : Option Text)
  | nack (message : MessageRef) (transaction : Option Text)
deriving DecidableEq, Repr

namespace Request

/-- A receipt is asked for by an id that is not empty. -/
def wantedReceipt? : Option Text → Option Text
  | some [] => none
  | id => id

/-- The headers of an acknowledgement; the message has to have an id. -/
def ackHeaders (message : MessageRef) (transaction : Option Text) : Except Error Headers :=
  match message.id? with
  | none => .error .unidentifiedMessage
  | some id =>
    .ok ((Headers.empty.set Headers.Name.messageId id).setSome Headers.Name.transaction transaction)

/-- The headers of a request about a transaction. -/
def transactionHeaders (transaction : Text) : Headers :=
  Headers.empty.set Headers.Name.transaction transaction

/-- The frame that makes a request. -/
def frame : Request → Except Error Frame
  | connect login passcode clientId => .ok {
      command := Command.connect.name
      headers := ((Headers.empty.set Headers.Name.login login).set
        Headers.Name.passcode passcode).setSome Headers.Name.clientId clientId }
  | connectWith headers => .ok { command := Command.connect.name, headers }
  | disconnect receiptId => .ok {
      command := Command.disconnect.name
      headers := Headers.empty.setSome Headers.Name.receipt (wantedReceipt? receiptId) }
  | send destination body transaction headers =>
    Frame.ofBody Command.send.name
      ((headers.set Headers.Name.destination destination).setSome
        Headers.Name.transaction transaction) body
  | subscribe destination mode headers => .ok {
      command := Command.subscribe.name
      headers := (headers.set Headers.Name.destination destination).setSome Headers.Name.ack mode }
  | unsubscribe destination headers => .ok {
      command := Command.unsubscribe.name
      headers := headers.set Headers.Name.destination destination }
  | begin transaction => .ok {
      command := Command.begin.name, headers := transactionHeaders transaction }
  | commit transaction => .ok {
      command := Command.commit.name, headers := transactionHeaders transaction }
  | abort transaction => .ok {
      command := Command.abort.name, headers := transactionHeaders transaction }
  | ack message transaction =>
    (ackHeaders message transaction).map fun headers => { command := Command.ack.name, headers }
  | nack message transaction =>
    (ackHeaders message transaction).map fun headers => { command := Command.nack.name, headers }

end Request

/-- The frame with its body length announced, so that the body may hold any
bytes. -/
def Frame.withBodyLength (f : Frame) : Frame :=
  { f with headers := f.headers.set Headers.Name.contentLength (Text.ofNat f.body.length) }

end Stomp
