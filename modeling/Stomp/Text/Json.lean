import Stomp.Text.Quoted

/-!
# JSON documents

The text of a JSON document in ASCII: every code point outside U+0020 to U+007E
is escaped in a string, above U+FFFF as two surrogates. Objects are written on
one line, or with two blanks of indentation for each level.
-/

namespace Stomp.Json

/-- The escape of one 16-bit unit. -/
def unitEscape (n : Nat) : Text := "\\u" ++ CodePoint.hexDigits n 4

/-- A code point inside a string. -/
def inString (c : CodePoint) : Text :=
  if c = '"' ∨ c = '\\' then ['\\', c]
  else if c = '\n' then "\\n"
  else if c = '\r' then "\\r"
  else if c = '\t' then "\\t"
  else if c.val = 0x08 then "\\b"
  else if c.val = 0x0C then "\\f"
  else if 0x20 ≤ c.val ∧ c.val ≤ 0x7E then [c]
  else if c.val < 0x10000 then unitEscape c.val
  else unitEscape (0xD800 + (c.val - 0x10000) / 0x400) ++
    unitEscape (0xDC00 + (c.val - 0x10000) % 0x400)

/-- A string. -/
def string (t : Text) : Text := "\"" ++ t.flatMap inString ++ "\""

/-- A truth value. -/
def bool (b : Bool) : Text := if b then "true" else "false"

/-- A member of an object. -/
def member (name value : Text) : Text := string name ++ ": " ++ value

/-- An object on one line. -/
def object (members : List (Text × Text)) : Text :=
  "\x7b" ++ Text.joined ", " (members.map fun (n, v) => member n v) ++ "\x7d"

/-- Items on lines of their own, one level deeper than their brackets, which
stand at the given level. -/
def lines (level : Nat) (opening closing : Text) (items : List Text) : Text :=
  let margin (l : Nat) : Text := "\n" ++ List.replicate (2 * l) (CodePoint.ofChar ' ')
  match items with
  | [] => opening ++ closing
  | _ => opening ++ margin (level + 1) ++ Text.joined ("," ++ margin (level + 1)) items ++
      margin level ++ closing

/-- An array of strings over several lines. -/
def stringLines (level : Nat) (items : List Text) : Text :=
  lines level "[" "]" (items.map string)

/-- An object over several lines. -/
def objectLines (level : Nat) (members : List (Text × Text)) : Text :=
  lines level "\x7b" "\x7d" (members.map fun (n, v) => member n v)

end Stomp.Json
