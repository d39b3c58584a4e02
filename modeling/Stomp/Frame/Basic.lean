import Stomp.Bytes
import Stomp.Command
import Stomp.Headers.Basic
import Stomp.Text.Numeral
import Stomp.Text.Quoted

/-!
# Frames

A frame is a command, headers and a body. The command is kept as text: a frame
may carry a word that is no command of the protocol, and it is the readers that
refuse such a frame or let it pass. The body is bytes; where it is text, it is
UTF-8.
-/

namespace Stomp

/-- One frame. -/
structure Frame where
  command : Text
  headers : Headers := Headers.empty
  body : Bytes := []
deriving DecidableEq, Repr, Inhabited

/-- The headers as a quoted mapping, for messages. -/
def Headers.quoted (h : Headers) : Text :=
  "\x7b" ++ Text.joined ", " (h.entries.map fun (n, v) => n.quoted ++ ": " ++ v.quoted) ++ "\x7d"

namespace Frame

/-- A frame in one line, for messages: the body is given by its size alone. -/
def summary (f : Frame) : Text :=
  "Frame(command=" ++ f.command ++ ", headers=" ++ f.headers.quoted ++ ", body=" ++
    Text.ofNat f.body.length ++ " bytes)"

/-- The command that the frame carries, if it is one of the protocol's. -/
def command? (f : Frame) : Option Command := Command.ofName? f.command

/-! ### Limits of the frames that are read from a byte source -/

/-- The longest command line, in bytes. -/
def maxCommandLength : Nat := 1024

/-- The longest header line, in bytes. -/
def maxHeaderLength : Nat := 10240

/-- The most header lines. -/
def maxHeaders : Nat := 1000

/-- The longest body, in bytes. -/
def maxBodyLength : Nat := 104857600

end Frame

end Stomp
