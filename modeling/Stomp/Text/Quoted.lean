import Stomp.Bytes
import Stomp.Text.Printable

/-!
# Quoted text and quoted bytes

A value that is shown inside a message is put between quote marks: apostrophes,
or double quotes if the value holds an apostrophe and no double quote. The
mark itself and the backslash are escaped by a backslash, and so are line
feed, carriage return and tab as `\n`, `\r` and `\t`. What else cannot be
printed becomes `\x`, `\u` or `\U` with two, four or eight hexadecimal digits.
Quoted bytes carry a `b` in front and escape every byte outside ASCII.
-/

namespace Stomp

namespace CodePoint

/-- The number `n` in `width` lowercase hexadecimal digits. -/
def hexDigits (n : Nat) : Nat → Text
  | 0 => []
  | width + 1 => hexDigits (n / 16) width ++ [digit (n % 16)]

/-- The numeric escape of a code point, as short as its value allows. -/
def numericEscape (c : CodePoint) : Text :=
  if c.val < 0x100 then "\\x" ++ hexDigits c.val 2
  else if c.val < 0x10000 then "\\u" ++ hexDigits c.val 4
  else "\\U" ++ hexDigits c.val 8

/-- How a code point stands between two quote marks `mark`, where `plain` says
which code points stand for themselves. -/
def quotedIn (mark : CodePoint) (plain : CodePoint → Bool) (c : CodePoint) : Text :=
  if c = mark ∨ c = '\\' then ['\\', c]
  else if c = '\n' then "\\n"
  else if c = '\r' then "\\r"
  else if c = '\t' then "\\t"
  else if plain c then [c]
  else numericEscape c

end CodePoint

namespace Text

/-- The quote mark that needs fewest escapes: an apostrophe unless the text
holds one and no double quote. -/
def quoteMark (t : Text) : CodePoint :=
  if (CodePoint.ofChar '\'') ∈ t ∧ (CodePoint.ofChar '"') ∉ t then '"' else '\''

/-- The text between quote marks, with the code points that are not `plain`
escaped. -/
def quotedBy (plain : CodePoint → Bool) (t : Text) : Text :=
  [t.quoteMark] ++ t.flatMap (CodePoint.quotedIn t.quoteMark plain) ++ [t.quoteMark]

/-- The text between quote marks, everything unprintable escaped. -/
def quoted (t : Text) : Text := t.quotedBy CodePoint.isPrintable

/-- A text that may be absent: quoted, or `None`. -/
def quotedOrNone : Option Text → Text
  | none => "None"
  | some t => t.quoted

end Text

/-- The bytes between quote marks, everything but printable ASCII escaped. -/
def Bytes.quoted (bytes : Bytes) : Text :=
  "b" ++ Text.quotedBy (fun c => 0x20 ≤ c.val && c.val ≤ 0x7E)
    (bytes.map fun b => CodePoint.ofNat b.toNat)

end Stomp
