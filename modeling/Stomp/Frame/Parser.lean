import Stomp.Cut
import Stomp.Frame.Wire

/-!
# Reading a frame from its whole text

`Frame.parse` reads the bytes of one frame that are at hand as a whole: line
feeds in front and one NUL at the end are dropped, the lines are taken as they
stand, the first value of a repeated name wins, and all that follows the empty
line is the body, whatever it holds. Any word is a command here.
-/

namespace Stomp.Frame

/-- Reads header lines up to the empty line; what follows is the body. -/
def headerBlock (headers : Headers) (data : Bytes) : Except Error (Headers × Bytes) :=
  match h : cut? Octet.lineFeed data with
  | none => .error (.protocol .unterminatedHeaders)
  | some ([], body) => .ok (headers, body)
  | some (line, rest) => do
    -- what follows the line is shorter, so the recursion ends
    have := length_lt_of_cut? h
    let text ← Bytes.decode line
    match cut? (CodePoint.ofChar ':') text with
    | none => .error (.protocol (.invalidHeaderLine line))
    | some (name, value) => headerBlock (headers.insertIfNew name value) rest
termination_by data.length

/-- The bytes without one NUL at their end. -/
def withoutFinalNul (data : Bytes) : Bytes :=
  if data.getLast? = some Octet.nul then data.dropLast else data

/-- The frame that the bytes are the text of. -/
def parse (data : Bytes) : Except Error Frame :=
  match cut? Octet.lineFeed (withoutFinalNul (data.dropWhile (· = Octet.lineFeed))) with
  | none => .error (.protocol .noCommandLine)
  | some (line, rest) => do
    let command ← Bytes.decode line
    let (headers, body) ← headerBlock Headers.empty rest
    return { command, headers, body }

/-- The frame of a text, read as its UTF-8 bytes. -/
def parseText (t : Text) : Except Error Frame := do parse (← t.encode)

end Stomp.Frame
