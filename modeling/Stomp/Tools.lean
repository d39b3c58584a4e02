import Stomp.Connection
import Stomp.Text.Json

/-!
# Tools

The tools drive a broker for a caller who sees plain answers only. They share at
most one **session**: a connection and the address of its broker. A session
begins when `connect` has been accepted and ends with `disconnect`, whatever
becomes of the farewell; a `connect` that fails leaves no socket open behind it.

A tool that waits for a frame answers that none came when the time is up; every
other failure is passed on. Two documents describe the session and the protocol,
and two prompts tell a caller how to go about a task.
-/

namespace Stomp

open Network (Peer)

/-- The address of a broker. -/
structure Broker where
  host : Text
  port : Int
deriving DecidableEq, Repr

/-- The address in one word. -/
def Broker.address (b : Broker) : Text := b.host ++ ":" ++ Text.ofInt b.port

/-- A connection that was accepted once, and by whom. A server of tools keeps the
two as globals, `_connection` and `_broker`, which are always written together:
`connect` sets both and `disconnect` clears both. This type carries the pairing,
so that neither is there without the other. -/
structure Session where
  connection : Connection
  broker : Broker
deriving DecidableEq, Repr

/-- What the tools share. -/
structure Tools where
  session : Option Session := none
deriving DecidableEq, Repr

instance : Inhabited Tools := ⟨{}⟩

/-- What has become of a transaction. -/
inductive TransactionState
  | begun
  | committed
  | aborted
deriving DecidableEq, Repr

/-- The word for it. -/
def TransactionState.name : TransactionState → Text
  | begun => "begun"
  | committed => "committed"
  | aborted => "aborted"

/-- The answer of a tool. -/
inductive Answer
  | alreadyConnected (broker : Broker)
  | connected (broker : Broker) (version : Text)
  /-- With the id on the receipt that was waited for, if one was; the id is
  absent if no receipt with an id came. -/
  | disconnected (receipt : Option (Option Text))
  /-- With the length of the body in bytes. -/
  | sent (destination : Text) (length : Nat)
  | subscribed (destination : Text) (mode : Text)
  | unknownMode (mode : Text)
  | unsubscribed (destination : Text)
  /-- With the message id, absent or not, if the frame delivers a message. -/
  | received (frame : Frame.View) (messageId : Option (Option Text))
  | receivedText (text : Text)
  | nothingReceived (timeout : Seconds)
  | acknowledged (messageId : Text)
  | rejected (messageId : Text)
  | transaction (id : Text) (state : TransactionState)
  | keptAlive
  /-- A document that was asked for. -/
  | document (text : Text)
deriving DecidableEq, Repr

namespace Answer

/-- The remark that goes with some answers. -/
def remark? : Answer → Option Text
  | alreadyConnected _ => some "Already connected"
  | unknownMode mode => some <|
    "Unknown ack mode '" ++ mode ++ "'. Valid: [" ++
      Text.joined ", " (ackModes.map Text.quoted) ++ "]"
  | nothingReceived timeout => some <| "No frame received within " ++ timeout.text ++ " seconds"
  | _ => none

end Answer

namespace Tools

open Operation (subject change)

/-! ### The session -/

/-- Works on the connection of the session, if there is a session. -/
def onSession {α : Type} (otherwise : Operation Tools α) (op : Operation Connection α) :
    Operation Tools α :=
  .mk fun (tools, env) =>
    match tools.session with
    | none => otherwise.on tools env
    | some session =>
      let (outcome, connection, env) := op.on session.connection env
      (outcome, { session := some { session with connection } }, env)

/-- Works on the connection of the session; it has to be open. -/
def onConnection {α : Type} (op : Operation Connection α) : Operation Tools α := do
  match (← subject).session with
  | none => throw .noBroker
  | some session =>
    if session.connection.isOpen then onSession (throw .noBroker) op else throw .noBroker

/-- Makes a request on the connection of the session. -/
def request (r : Request) : Operation Tools Unit := onConnection (Connection.request r)

/-- Opens a connection and has it accepted; a connection that is not accepted
is closed again. -/
def enter (peer : Peer) (broker : Broker) (r : Request) : Operation Connection Unit := do
  Connection.dial peer broker.host broker.port none
  match ← Operation.attempt (Connection.request r) with
  | .ok () => pure ()
  | .error e =>
    Connection.close
    throw e

/-- Begins a session with a broker, unless there is a session that the broker has
accepted. A session that it has not is closed, and stays as it is if the new one
does not come about. -/
def connect (peer : Peer) (login passcode : Text) (broker : Broker) (clientId : Option Text) :
    Operation Tools Answer := do
  match (← subject).session with
  | some session =>
    if session.connection.connected then return .alreadyConnected session.broker
    onSession (pure ()) Connection.close
  | none => pure ()
  let (outcome, connection) ←
    Operation.apart {} (enter peer broker (.connect login passcode clientId))
  -- a failure ends the call here, and the tools are as they were
  Operation.ofExcept outcome
  change fun _ => { session := some { connection, broker } }
  return .connected broker connection.version

/-- Takes leave of the broker. Where a receipt is asked for, one frame is waited
for, and gives its receipt id if it is a receipt. -/
def farewell (receiptId : Option Text) : Operation Connection (Option (Option Text)) := do
  if (← subject).isOpen then
    Connection.request (.disconnect receiptId)
    match Request.wantedReceipt? receiptId with
    | none => return none
    | some _ =>
      match ← Operation.attempt (Connection.receive (some defaultTimeout.value)) with
      | .ok reply => return some (reply.receipt?.bind Reply.Receipt.receiptId)
      | .error (.timeout _) => return some none
      | .error e => throw e
  else return none

/-- Ends the session. -/
def disconnect (receiptId : Option Text) : Operation Tools Answer := do
  let outcome ← Operation.attempt (onSession (pure none) (farewell receiptId))
  -- the session ends even if the farewell failed
  onSession (pure ()) Connection.close
  change fun _ => { session := none }
  return .disconnected (← Operation.ofExcept outcome)

/-! ### Messages -/

/-- Sends a text message. -/
def send (destination body : Text) (transaction : Option Text) (headers : Headers) :
    Operation Tools Answer := do
  request (.send destination (.text body) transaction headers)
  let bytes ← Operation.ofExcept body.encode
  return .sent destination bytes.length

/-- Subscribes to a destination, in a mode that has to be a known one. -/
def subscribe (destination : Text) (mode : Option Text) (headers : Headers) :
    Operation Tools Answer := do
  match mode with
  | some m =>
    -- this is answered without a broker too
    if m ∉ ackModes then return .unknownMode m
    request (.subscribe destination mode headers)
    return .subscribed destination m
  | none =>
    request (.subscribe destination none headers)
    return .subscribed destination "auto"

/-- Ends a subscription. -/
def unsubscribe (destination : Text) (headers : Headers) : Operation Tools Answer := do
  request (.unsubscribe destination headers)
  return .unsubscribed destination

/-- Answers that nothing was received if the time was up, and passes on every
other failure. Without a limit the time is never up. -/
def unlessTimeout (timeout : Option Seconds) (outcome : Except Error Answer) :
    Operation Tools Answer :=
  match outcome, timeout with
  | .error (.timeout _), some limit => return .nothingReceived limit
  | _, _ => Operation.ofExcept outcome

/-- Waits for a frame and shows it. -/
def receive (timeout : Option Seconds) : Operation Tools Answer := do
  let outcome ← Operation.attempt (onConnection (Connection.receive (timeout.map Seconds.value)))
  unlessTimeout timeout <| outcome.map fun f =>
    .received f.view (f.message?.map Reply.Message.messageId)

/-- Waits for a frame and gives its text as it came. -/
def receiveRaw (timeout : Option Seconds) : Operation Tools Answer := do
  let outcome ←
    Operation.attempt (onConnection (Connection.receiveText (timeout.map Seconds.value)))
  unlessTimeout timeout (outcome.map .receivedText)

/-- Acknowledges a message. -/
def ack (messageId : Text) (transaction : Option Text) : Operation Tools Answer := do
  request (.ack (.id messageId) transaction)
  return .acknowledged messageId

/-- Rejects a message. -/
def nack (messageId : Text) (transaction : Option Text) : Operation Tools Answer := do
  request (.nack (.id messageId) transaction)
  return .rejected messageId

/-! ### Transactions and heartbeats -/

/-- Begins a transaction. -/
def begin (id : Text) : Operation Tools Answer := do
  request (.begin id)
  return .transaction id .begun

/-- Makes a transaction take effect. -/
def commit (id : Text) : Operation Tools Answer := do
  request (.commit id)
  return .transaction id .committed

/-- Undoes a transaction. -/
def abort (id : Text) : Operation Tools Answer := do
  request (.abort id)
  return .transaction id .aborted

/-- Sends a heartbeat. -/
def keepAlive : Operation Tools Answer := do
  onConnection Connection.keepAlive
  return .keptAlive

/-! ### What the operations do -/

theorem on_onSession_of_none {α : Type} {tools : Tools} (h : tools.session = none)
    (otherwise : Operation Tools α) (op : Operation Connection α) (env : Environment) :
    (onSession otherwise op).on tools env = otherwise.on tools env := by
  simp [onSession, h]

/-- In a session, an operation does what it does to the connection, and the
broker stays the same. -/
theorem on_onSession_of_some {α : Type} {tools : Tools} {session : Session}
    (h : tools.session = some session) (otherwise : Operation Tools α)
    (op : Operation Connection α) (env : Environment) :
    (onSession otherwise op).on tools env =
      ((op.on session.connection env).1,
        { session := some ⟨(op.on session.connection env).2.1, session.broker⟩ },
        (op.on session.connection env).2.2) := by
  simp [onSession, h]

/-! ### Documents -/

/-- The state of the session, as a document on one line. -/
def status (tools : Tools) : Text :=
  match tools.session with
  | none => closedStatus
  | some session =>
    if session.connection.isOpen then
      Json.object [
        ("open", Json.bool true), ("connected", Json.bool session.connection.connected),
        ("host", Json.string session.broker.host), ("port", Text.ofInt session.broker.port),
        ("version", Json.string session.connection.version)]
    else closedStatus
where
  /-- The state without an open connection. -/
  closedStatus : Text := Json.object [("open", Json.bool false), ("connected", Json.bool false)]

/-- The names of commands in alphabetical order: none stands before one that is
smaller, code point by code point. -/
def sortedNames (commands : List Command) : List Text :=
  (commands.map Command.name).mergeSort fun a b => !b.lex a fun c d => c.val < d.val

/-- The commands and the acknowledgement modes, as a document over several
lines. -/
def protocolCommands : Text :=
  Json.objectLines 0 [
    ("client", Json.stringLines 1 (sortedNames Command.ofClient)),
    ("server", Json.stringLines 1 (sortedNames Command.ofBroker)),
    ("ack_modes", Json.stringLines 1 ackModes)]

/-! ### Prompts -/

/-- How to drain the messages of a destination. -/
def consumeQueuePrompt (destination : Text) : Text :=
  "Consume messages from " ++ destination ++ ".\nSteps:\n- subscribe to " ++ destination ++
    " with ack mode \"client\"\n" ++
    "- call receive repeatedly; for each MESSAGE frame, summarize the body\n" ++
    "- ack each message by its message_id once handled\n" ++
    "- stop when receive reports that no frame arrived in time\n" ++
    "- unsubscribe from " ++ destination

/-- How to send messages as one unit. -/
def transactionalSendPrompt (destination : Text) : Text :=
  "Send several messages to " ++ destination ++ " as one unit.\nSteps:\n" ++
    "- begin a transaction with a fresh id, e.g. \"tx-1\"\n" ++
    "- send each message with that transaction id\n" ++
    "- commit when every send succeeded, otherwise abort\n\n" ++
    "Nothing is delivered to consumers before commit."

end Tools

end Stomp
