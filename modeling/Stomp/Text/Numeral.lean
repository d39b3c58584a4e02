import Stomp.Text.Blank
import Stomp.Text.DecimalDigit

/-!
# Integers in text

`Text.ofNat` and `Text.ofInt` write an integer in decimal. `Text.toInt?` reads
one, more freely: white space around it, a sign, the digits of any script, and
a single `_` between two digits. A numeral of more than `maxDigits` digits is
refused, leading zeros counted and underscores not.
-/

namespace Stomp.Text

/-- The decimal digits of a number, most significant first. -/
def ofNat (n : Nat) : Text :=
  if n < 10 then [CodePoint.digit n] else ofNat (n / 10) ++ [CodePoint.digit (n % 10)]
termination_by n

/-- The decimal form of an integer, with `-` in front of a negative one. -/
def ofInt : Int → Text
  | .ofNat n => ofNat n
  | .negSucc n => "-" ++ ofNat (n + 1)

/-- The longest numeral that is read, in digits. -/
def maxDigits : Nat := 4300

/-- The values of digits with at most one `_` between two of them; `afterDigit`
says whether a digit stands just before. -/
def digitValues? (afterDigit : Bool) : Text → Option (List Nat)
  | [] => if afterDigit then some [] else none
  | c :: rest =>
    if afterDigit && c = '_' then digitValues? false rest
    else match c.digitValue? with
      | none => none
      | some d => (digitValues? true rest).map (d :: ·)

/-- The natural number that a run of digits stands for. -/
def toNat? (t : Text) : Option Nat :=
  match digitValues? false t with
  | none => none
  | some digits =>
    if digits.length ≤ maxDigits then some (digits.foldl (fun n d => 10 * n + d) 0) else none

/-- The integer that a text stands for. -/
def toInt? (t : Text) : Option Int :=
  match t.trimmed CodePoint.isNumeralSpace with
  | [] => none
  | c :: rest =>
    if c = '-' then (toNat? rest).map (fun n => -(n : Int))
    else if c = '+' then (toNat? rest).map Int.ofNat
    else (toNat? (c :: rest)).map Int.ofNat

end Stomp.Text
