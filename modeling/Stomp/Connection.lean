import Stomp.Frame.Reply
import Stomp.Frame.Request
import Stomp.Stream

/-!
# Connections

A connection is one conversation with a broker. It holds at most one stream at
a time, knows whether the broker has accepted it on that stream (`connected`),
and speaks the version that the last accepting broker agreed to.

Opening drops the stream that is held and begins afresh, except that the version
stays. Closing never fails: a socket that fails while it is closed is only told
to the log. A request is one frame, sent at once; only a handshake waits for the
reply, and it leaves the connection as it was unless the broker accepts.
-/

namespace Stomp

open Network (Peer Socket)

/-- The host of a broker, unless told otherwise. -/
def defaultHost : Text := "localhost"

/-- The port of a broker, unless told otherwise. -/
def defaultPort : Int := 61613

/-- How long a frame is waited for, unless told otherwise. -/
def defaultTimeout : Seconds := .pointed ⟨false, 10, 0⟩

@[simp] theorem value_defaultTimeout : defaultTimeout.value = 10 := by
  simp [defaultTimeout, Seconds.value, Decimal.value]

/-- One conversation with a broker. -/
structure Connection where
  stream : Option Stream := none
  /-- The frame text that is being received; empty between operations. -/
  inputBuffer : Array UInt8 := #[]
  connected : Bool := false
  version : Text := defaultVersion
deriving DecidableEq, Repr

instance : Inhabited Connection := ⟨{}⟩

namespace Connection

open Operation (subject change notify)

/-- Whether the connection holds a stream. -/
def isOpen (c : Connection) : Bool := c.stream.isSome

/-- Works on the stream that the connection holds; it has to hold one. -/
def onStream {α : Type} (op : Operation Stream α) : Operation Connection α :=
  .mk fun (c, env) =>
    match c.stream with
    | none => (.error (.connection .notConnected), c, env)
    | some stream =>
      let (outcome, stream, env) := op.on stream env
      (outcome, { c with stream := some stream }, env)

/-! ### Opening and closing -/

/-- Closes the stream and lets go of it, if there is one. -/
def close : Operation Connection Unit := do
  if let some stream := (← subject).stream then
    if let (.error e, _) ← Operation.apart stream Stream.close then notify (.closeFailed e.message)
    change fun c => { c with stream := none, connected := false }
    notify .disconnected

/-- Begins afresh on a stream. -/
def hold (stream : Stream) : Operation Connection Unit :=
  change fun c => { c with stream := some stream, inputBuffer := #[], connected := false }

/-- Opens the connection on a stream that exists already. -/
def adopt (stream : Stream) : Operation Connection Unit := do
  close
  hold stream

/-- Opens the connection on a new stream to a host. The stream that was held is
closed even if the host cannot be reached. -/
def dial (peer : Peer) (host : Text) (port : Int) (timeout : Option Seconds) :
    Operation Connection Unit := do
  close
  match peer.connectFault with
  | some reason =>
    Operation.act none (.dial host port timeout)
    throw (.connection (.dialFailed host port reason))
  | none =>
    let socket ← Operation.newSocket peer
    Operation.act (some socket.number) (.dial host port timeout)
    notify (.opened host port)
    hold { socket }

/-- Closes the stream that is held, but goes on holding it. -/
def closeStream : Operation Connection Unit := do
  if (← subject).isOpen then onStream Stream.close

/-! ### Sending -/

/-- Sends a text, and after it the given bytes as they are. -/
def sendText (text : Text) (bytes : Bytes) : Operation Connection Unit :=
  onStream do
    -- text that cannot be encoded fails before anything is written
    let head ← Operation.ofExcept text.encode
    Stream.write head
    Stream.write bytes
    Stream.flush

/-- Sends a frame whose body is text. -/
def sendFrame (f : Frame) : Operation Connection Unit := do
  notify (.sending f)
  let text ← Operation.ofExcept f.toText
  sendText text []

/-- Sends a message of any bytes; its length is announced. -/
def sendBytes (destination : Text) (data : Bytes) (transaction : Option Text)
    (headers : Headers) : Operation Connection Unit := do
  let f ← Operation.ofExcept (Request.send destination (.bytes data) transaction headers).frame
  let f := f.withBodyLength
  notify (.sending f)
  sendText f.head (f.body ++ [Octet.nul])

/-- Sends a heartbeat. -/
def keepAlive : Operation Connection Unit :=
  onStream do
    Stream.write [Octet.lineFeed]
    Stream.flush

/-! ### Receiving -/

/-- Receives one frame, in the version that the connection speaks. The time
limit is on the whole of it. -/
def receive (timeout : Option Rat) : Operation Connection Frame := do
  let version := (← subject).version
  let f ← onStream do
    Stream.setReadTimeout timeout
    Stream.readFrame version
  notify (.received f)
  return f

/-- Receives the text of one frame, up to a NUL that a line feed follows. Nothing
of a text that is not received in full is kept. -/
def receiveText (timeout : Option Rat) : Operation Connection Text := do
  onStream (Stream.setReadTimeout timeout)
  let text := (← subject).inputBuffer
  let outcome ← Operation.attempt (onStream (Stream.readText { text }))
  -- whatever came of it, the next text begins with nothing
  change fun c => { c with inputBuffer := #[] }
  Operation.ofExcept outcome

/-! ### Requests -/

/-- Takes over the version that an accepting reply names, if it names one. -/
def agree (reply : Frame) : Operation Connection Unit := do
  match reply.headers.get? Headers.Name.version with
  | none => pure ()
  | some version =>
    match Version.parse? version with
    | none => throw (.protocol (.unusableVersion reply version))
    | some _ => change fun c => { c with version }

/-- Sends a frame that asks to be accepted, and waits for the answer. -/
def handshake (f : Frame) : Operation Connection Unit := do
  sendFrame f
  let reply ← receive (some defaultTimeout.value)
  if reply.command? ≠ some .connected then throw (.protocol (.refused reply))
  -- up to here nothing has changed but the stream
  agree reply
  change fun c => { c with connected := true }
  notify (.established (← subject).version)

/-- Makes a request. -/
def request (r : Request) : Operation Connection Unit := do
  let f ← Operation.ofExcept r.frame
  match r with
  | .connect .. | .connectWith _ => handshake f
  | .disconnect _ =>
    sendFrame f
    change fun c => { c with connected := false }
  | _ => sendFrame f

/-! ### What the operations do -/

theorem on_onStream_of_none {α : Type} {c : Connection} (h : c.stream = none)
    (op : Operation Stream α) (env : Environment) :
    (onStream op).on c env = (.error (.connection .notConnected), c, env) := by
  simp [onStream, h]

/-- On a stream that is held, an operation does what it does to the stream. -/
theorem on_onStream_of_some {α : Type} {c : Connection} {stream : Stream}
    (h : c.stream = some stream) (op : Operation Stream α) (env : Environment) :
    (onStream op).on c env =
      ((op.on stream env).1, { c with stream := some (op.on stream env).2.1 },
        (op.on stream env).2.2) := by
  simp [onStream, h]

theorem on_close_of_none {c : Connection} (h : c.stream = none) (env : Environment) :
    close.on c env = (.ok (), c, env) := by
  simp [close, Operation.on_bind, h]

/-- Closing lets go of the stream and never fails. -/
theorem on_close (c : Connection) (env : Environment) :
    (close.on c env).1 = .ok () ∧ (close.on c env).2.1.stream = none := by
  cases h : c.stream with
  | none => simp [on_close_of_none h, h]
  | some stream =>
    simp only [close, Operation.on_bind, Operation.on_subject, h, Operation.on_apart]
    -- a failing socket only adds a notice
    cases (Stream.close.on stream env).1 <;> simp [Operation.on_bind]

end Connection

end Stomp
