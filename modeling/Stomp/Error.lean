import Stomp.Frame.Basic
import Stomp.Text.Utf8

/-!
# Errors

What can go wrong, by cause. A cause carries the values that its wording needs,
and the wording is in one function, `Error.message`. The kinds are

* `protocol`: the peer, or a text to be read, breaks the rules of frames, or a
  handshake is refused (then the cause holds the peer's reply);
* `encoding`: text cannot be written as UTF-8, or bytes cannot be read as it;
* `connection`: there is no usable stream, or its socket failed;
* `timeout`: a deadline passed before a frame was complete;
* `unidentifiedMessage`, `noBroker`, `socket`: a caller acknowledges a message
  that has no id, uses a tool without a broker, or sees a socket fail on close.
-/

namespace Stomp

/-- The lines before the body of a frame. -/
inductive HeadLine
  | command
  | header
deriving DecidableEq, Repr

/-- What the line is called in messages. -/
def HeadLine.name : HeadLine → Text
  | command => "command"
  | header => "header"

/-- The longest such line, in bytes. -/
def HeadLine.maxLength : HeadLine → Nat
  | command => Frame.maxCommandLength
  | header => Frame.maxHeaderLength

/-- A broken rule of frames or of the handshake. -/
inductive ProtocolFault
  /-- A frame text begins with no command line. -/
  | noCommandLine
  /-- The header block of a frame text has no end. -/
  | unterminatedHeaders
  /-- A header line of a frame text has no colon. -/
  | invalidHeaderLine (line : Bytes)
  /-- The byte source ended inside a line. -/
  | endedInLine (line : HeadLine)
  /-- The byte source ended inside a body. -/
  | endedInBody
  /-- The byte source ended inside a raw frame text. -/
  | endedInText
  | lineTooLong (line : HeadLine)
  | tooManyHeaders
  | bodyTooLong
  | unknownCommand (command : Text)
  /-- A header line from a byte source has no colon. -/
  | unparsableHeaderLine (line : Bytes)
  | invalidEscape (value : Text)
  /-- The content length is no integer. -/
  | lengthNotInteger (value : Text)
  /-- The content length is negative or above the longest body. -/
  | lengthOutOfRange (size : Int)
  /-- No NUL stands after a body of announced length. -/
  | missingTerminator
  | unsupportedVersion (version : Text)
  /-- The broker answered a handshake with another frame than CONNECTED. -/
  | refused (reply : Frame)
  /-- The broker agreed to a version that is none. -/
  | unusableVersion (reply : Frame) (version : Text)
deriving DecidableEq, Repr

/-- Text and bytes that do not fit together. -/
inductive EncodingFault
  | unencodable (text : Text) (run : Utf8.SurrogateRun)
  | undecodable (malformed : Utf8.Malformed)
deriving DecidableEq, Repr

/-- A stream that cannot be opened or used. -/
inductive ConnectionFault
  | dialFailed (host : Text) (port : Int) (reason : Text)
  /-- The connection holds no stream. -/
  | notConnected
  | streamClosed
  /-- The stream was closed here while a read was waiting. -/
  | closedDuringRead
  | readFailed (reason : Text)
  | writeFailed (reason : Text)
deriving DecidableEq, Repr

/-- A deadline that passed. -/
inductive TimeoutFault
  /-- It had passed before the socket was asked. -/
  | deadlineExpired
  /-- It passed while the socket was waited for. -/
  | noData
deriving DecidableEq, Repr

/-- A failed operation. -/
inductive Error
  | protocol (fault : ProtocolFault)
  | encoding (fault : EncodingFault)
  | connection (fault : ConnectionFault)
  | timeout (fault : TimeoutFault)
  /-- The message to acknowledge has no id. -/
  | unidentifiedMessage
  /-- A tool needs a broker and there is none. -/
  | noBroker
  /-- The socket failed while it was closed. -/
  | socket (reason : Text)
deriving DecidableEq, Repr

/-! ### Wording -/

/-- Why no character begins or goes on there. -/
def Utf8.Flaw.message : Utf8.Flaw → Text
  | .startByte => "invalid start byte"
  | .continuationByte => "invalid continuation byte"
  | .truncated => "unexpected end of data"

/-- `P` for a stretch of length one at `P`, else `P-Q` with both ends included. -/
def positionText (position length : Nat) : Text :=
  if length ≤ 1 then Text.ofNat position
  else Text.ofNat position ++ "-" ++ Text.ofNat (position + length - 1)

/-- A malformed stretch; a single byte is shown. -/
def Utf8.Malformed.message (m : Utf8.Malformed) : Text :=
  "'utf-8' codec can't decode " ++
    (match m.bytes with
      | [b] => "byte 0x" ++ Bytes.hex [b]
      | _ => "bytes") ++
    " in position " ++ positionText m.position m.bytes.length ++ ": " ++ m.flaw.message

/-- A run of surrogates; a single one is shown. -/
def Utf8.SurrogateRun.message (run : Utf8.SurrogateRun) : Text :=
  "'utf-8' codec can't encode " ++
    (if run.length = 1 then "character '" ++ run.first.numericEscape ++ "'" else "characters") ++
    " in position " ++ positionText run.position run.length ++ ": surrogates not allowed"

def ProtocolFault.message : ProtocolFault → Text
  | noCommandLine => "frame has no command line"
  | unterminatedHeaders => "frame header block is not terminated"
  | invalidHeaderLine line => "invalid header line: " ++ line.quoted
  | endedInLine line => "Stream closed while reading " ++ line.name
  | endedInBody => "Stream closed mid-frame while reading body"
  | endedInText => "Stream closed mid-frame"
  | lineTooLong line =>
    "The maximum " ++ line.name ++ " length was exceeded (" ++ Text.ofNat line.maxLength ++ ")"
  | tooManyHeaders =>
    "The maximum number of headers was exceeded (" ++ Text.ofNat Frame.maxHeaders ++ ")"
  | bodyTooLong =>
    "The maximum data length was exceeded (" ++ Text.ofNat Frame.maxBodyLength ++ ")"
  | unknownCommand command => "Unknown STOMP command " ++ command.quoted
  | unparsableHeaderLine line => "Unable to parse header line [" ++ line.quoted ++ "]"
  | invalidEscape value => "Invalid escape sequence in header value " ++ value.quoted
  | lengthNotInteger value =>
    "Specified content-length is not a valid integer: " ++ value.quoted
  | lengthOutOfRange size => "Specified content-length " ++ Text.ofInt size ++ " is out of range"
  | missingTerminator => "Expected frame terminator after content-length body"
  | unsupportedVersion version => "Unsupported STOMP version " ++ version.quoted
  | refused reply => "Not connected: " ++ Utf8.decodeLossy reply.body
  | unusableVersion _ version => "Not connected: Unsupported STOMP version " ++ version.quoted

def EncodingFault.message : EncodingFault → Text
  | unencodable text run => "cannot encode " ++ text.quoted ++ " as UTF-8: " ++ run.message
  | undecodable malformed => "invalid UTF-8 in frame data: " ++ malformed.message

def ConnectionFault.message : ConnectionFault → Text
  | dialFailed host port reason =>
    "Could not connect to STOMP broker at " ++ host ++ ":" ++ Text.ofInt port ++
      ". Last error: " ++ reason
  | notConnected => "Not connected to broker"
  | streamClosed => "Stream is closed"
  | closedDuringRead => "Stream closed during read"
  | readFailed reason => "Read failed: " ++ reason
  | writeFailed reason => "Write failed: " ++ reason

def TimeoutFault.message : TimeoutFault → Text
  | deadlineExpired => "Read deadline expired before a frame completed"
  | noData => "Timed out waiting for data from broker"

/-- The wording of an error. -/
def Error.message : Error → Text
  | protocol fault => fault.message
  | encoding fault => fault.message
  | connection fault => fault.message
  | timeout fault => fault.message
  | unidentifiedMessage => "Frame has no message-id header to acknowledge"
  | noBroker => "Not connected to a broker. Use the 'connect' tool first."
  | socket reason => reason

/-- The frame that the peer sent in place of the expected one. -/
def Error.reply? : Error → Option Frame
  | protocol (.refused reply) => some reply
  | protocol (.unusableVersion reply _) => some reply
  | _ => none

end Stomp
