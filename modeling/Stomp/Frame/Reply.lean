import Stomp.Frame.Basic
import Stomp.Headers.Name
import Stomp.Text.Utf8
import Stomp.Version

/-!
# Replies

The frames of a broker, with their headers read. A frame whose command is none
of the broker's is a reply as it stands.
-/

namespace Stomp

namespace Reply

/-- The broker has accepted the client. -/
structure Connected where
  version : Text
  session : Option Text
  server : Option Text
  heartBeat : Option Text
deriving DecidableEq, Repr

/-- The broker delivers a message. -/
structure Message where
  destination : Option Text
  messageId : Option Text
  subscription : Option Text
  body : Bytes
  headers : Headers
deriving DecidableEq, Repr

/-- The broker has handled a request. -/
structure Receipt where
  receiptId : Option Text
deriving DecidableEq, Repr

/-- The broker has given up. -/
structure Failure where
  message : Text
  body : Text
deriving DecidableEq, Repr

end Reply

/-- A frame of a broker. -/
inductive Reply
  | connected (reply : Reply.Connected)
  | message (reply : Reply.Message)
  | receipt (reply : Reply.Receipt)
  | failure (reply : Reply.Failure)
  | other (frame : Frame)
deriving DecidableEq, Repr

namespace Frame

/-- A CONNECTED frame; without a version it speaks the default one. -/
def connected? (f : Frame) : Option Reply.Connected :=
  if f.command? = some .connected then some {
    version := (f.headers.get? Headers.Name.version).getD defaultVersion
    session := f.headers.get? Headers.Name.session
    server := f.headers.get? Headers.Name.server
    heartBeat := f.headers.get? Headers.Name.heartBeat }
  else none

/-- A MESSAGE frame. -/
def message? (f : Frame) : Option Reply.Message :=
  if f.command? = some .message then some {
    destination := f.headers.get? Headers.Name.destination
    messageId := f.headers.get? Headers.Name.messageId
    subscription := f.headers.get? Headers.Name.subscription
    body := f.body
    headers := f.headers }
  else none

/-- A RECEIPT frame. -/
def receipt? (f : Frame) : Option Reply.Receipt :=
  if f.command? = some .receipt then some ⟨f.headers.get? Headers.Name.receiptId⟩ else none

/-- An ERROR frame; its body is shown as text whatever it holds. -/
def failure? (f : Frame) : Option Reply.Failure :=
  if f.command? = some .error then some {
    message := (f.headers.get? Headers.Name.message).getD []
    body := Utf8.decodeLossy f.body }
  else none

end Frame

namespace Reply

/-- The reply that a frame is. -/
def ofFrame (f : Frame) : Reply :=
  match f.connected?, f.message?, f.receipt?, f.failure? with
  | some reply, _, _, _ => .connected reply
  | _, some reply, _, _ => .message reply
  | _, _, some reply, _ => .receipt reply
  | _, _, _, some reply => .failure reply
  | _, _, _, _ => .other f

/-- A value in one line: the kind, and the fields in parentheses. -/
def summaryOf (kind : Text) (fields : List (Text × Text)) : Text :=
  kind ++ "(" ++ Text.joined ", " (fields.map fun (name, value) => name ++ "=" ++ value) ++ ")"

/-- A reply in one line, for messages; the body of a message is given by its
size alone. -/
def summary : Reply → Text
  | connected r => summaryOf "ConnectedResponse" [
      ("version", r.version.quoted), ("session", Text.quotedOrNone r.session),
      ("server", Text.quotedOrNone r.server), ("heart_beat", Text.quotedOrNone r.heartBeat)]
  | message r => summaryOf "MessageResponse" [
      ("destination", Text.quotedOrNone r.destination),
      ("message_id", Text.quotedOrNone r.messageId), ("body_len", Text.ofNat r.body.length)]
  | receipt r => summaryOf "ReceiptResponse" [("receipt_id", Text.quotedOrNone r.receiptId)]
  | failure r => summaryOf "ErrorResponse" [
      ("message", r.message.quoted), ("body", r.body.quoted)]
  | other f => f.summary

end Reply

end Stomp
