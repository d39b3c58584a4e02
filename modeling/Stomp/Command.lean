import Stomp.Text.Basic

/-!
# Commands

The commands that begin a frame: those a client sends and those a broker
answers with.
-/

namespace Stomp

/-- A command, the client's first, then the broker's. -/
inductive Command
  | connect | stomp | send | subscribe | unsubscribe | begin | commit | abort | ack | nack
  | disconnect
  | connected | message | receipt | error
deriving DecidableEq, Repr

namespace Command

/-- The word on the command line. -/
def name : Command → Text
  | connect => "CONNECT"
  | stomp => "STOMP"
  | send => "SEND"
  | subscribe => "SUBSCRIBE"
  | unsubscribe => "UNSUBSCRIBE"
  | begin => "BEGIN"
  | commit => "COMMIT"
  | abort => "ABORT"
  | ack => "ACK"
  | nack => "NACK"
  | disconnect => "DISCONNECT"
  | connected => "CONNECTED"
  | message => "MESSAGE"
  | receipt => "RECEIPT"
  | error => "ERROR"

/-- The commands that a client sends. -/
def ofClient : List Command :=
  [connect, stomp, send, subscribe, unsubscribe, begin, commit, abort, ack, nack, disconnect]

/-- The commands that a broker sends. -/
def ofBroker : List Command := [connected, message, receipt, error]

/-- Every command. -/
def all : List Command := ofClient ++ ofBroker

/-- The command of a command line. -/
def ofName? (t : Text) : Option Command := all.find? fun c => c.name = t

/-- The header text of the two frames that settle the version is not escaped,
whatever the dialect. -/
def isHandshake (c : Command) : Bool := c = connect || c = connected

/-- A command line is read as the command that it names. -/
theorem name_of_ofName? {t : Text} {c : Command} (h : ofName? t = some c) : c.name = t := by
  simpa using List.find?_some h

end Command

end Stomp
