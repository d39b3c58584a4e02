import Stomp.Headers.Name
import Stomp.Text.Encoded

/-!
# The written forms of a frame

On the wire a frame is a **head** (a line for the command, a line `name:value`
for each header, and an empty line), then the body, then a NUL. Nothing is
escaped or checked here: the frame that a peer reads back is the same only if
its texts keep clear of the marks.

A frame is also shown as a **view**, with the body as text where it is UTF-8 and
in hexadecimal elsewhere.
-/

namespace Stomp

/-- What a caller gives as the body of a frame. -/
inductive Body
  | empty
  | text (text : Text)
  | bytes (bytes : Bytes)
deriving DecidableEq, Repr, Inhabited

/-- The body as bytes; text is written as UTF-8. -/
def Body.encode : Body → Except Error Bytes
  | empty => .ok []
  | text t => t.encode
  | bytes b => .ok b

namespace Frame

/-- The frame of a command, headers and a body to be encoded. -/
def ofBody (command : Text) (headers : Headers) (body : Body) : Except Error Frame :=
  body.encode.map fun bytes => { command, headers, body := bytes }

/-- The line of one header. -/
def headerLine (name value : Text) : Text := name ++ ":" ++ value ++ "\n"

/-- The command line, the header lines and the empty line. -/
def head (f : Frame) : Text :=
  f.command ++ "\n" ++ (f.headers.entries.flatMap fun (n, v) => headerLine n v) ++ "\n"

/-- The body as text. -/
def bodyText (f : Frame) : Except Error Text := f.body.decode

/-- The whole frame as text, up to and with the NUL; the body has to be UTF-8. -/
def toText (f : Frame) : Except Error Text :=
  f.bodyText.map fun body => f.head ++ body ++ "\x00"

/-- The whole frame as bytes, up to and with the NUL. -/
def toBytes (f : Frame) : Except Error Bytes :=
  f.head.encode.map fun head => head ++ f.body ++ [Octet.nul]

/-- A body as it is shown. -/
inductive BodyView
  | text (text : Text)
  | hex (digits : Text)
deriving DecidableEq, Repr

/-- A frame as it is shown. -/
structure View where
  command : Text
  headers : Headers
  body : BodyView
deriving DecidableEq, Repr

/-- A body is shown as text where it is text. -/
def BodyView.ofBytes (body : Bytes) : BodyView :=
  match body.decode with
  | .ok t => .text t
  | .error _ => .hex body.hex

/-- The frame as it is shown. -/
def view (f : Frame) : View := ⟨f.command, f.headers, .ofBytes f.body⟩

end Frame

end Stomp
