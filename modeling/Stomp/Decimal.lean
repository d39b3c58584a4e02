import Stomp.Text.Numeral

/-!
# Numbers with a point

A decimal number keeps its digits, where its point stands, and its sign, which
a zero has as well.

It is shown by all of its digits but the zeros at the end. The point stands
among them as long as the leading digit is no further out than the fourth place
after the point and the sixteenth before it, and at least one digit stands on
either side of it; further out the point follows the leading digit, and an
exponent of ten says where it belongs.

* `value_stripped` — the zeros at the end do not matter to the number.
-/

namespace Stomp

/-- The number `± digits * 10 ^ exponent`. -/
structure Decimal where
  negative : Bool := false
  digits : Nat
  exponent : Int
deriving DecidableEq, Repr, Inhabited

namespace Decimal

/-- The number itself. -/
def value (d : Decimal) : Rat :=
  (if d.negative then -1 else 1) * (d.digits : Rat) * (10 : Rat) ^ d.exponent

/-! ### Zeros at the end -/

/-- The same number without the zeros at the end of its digits. -/
def stripped (d : Decimal) : Decimal :=
  if 0 < d.digits ∧ d.digits % 10 = 0 then
    stripped { d with digits := d.digits / 10, exponent := d.exponent + 1 }
  else d
termination_by d.digits
decreasing_by omega

@[simp] theorem negative_stripped (d : Decimal) : d.stripped.negative = d.negative := by
  fun_induction stripped d with
  | case1 d h ih => exact ih
  | case2 d h => rfl

/-- A zero at the end is a factor of ten, and the exponent takes it over. -/
@[simp] theorem value_stripped (d : Decimal) : d.stripped.value = d.value := by
  fun_induction stripped d with
  | case1 d h ih =>
    have tens : (d.digits : Rat) = ((d.digits / 10 : Nat) : Rat) * 10 := by
      have whole : d.digits = d.digits / 10 * 10 := by omega
      rw [← Rat.natCast_ofNat, ← Rat.natCast_mul, ← whole]
    rw [ih]
    simp only [value]
    rw [tens, Rat.zpow_add_one (by decide)]
    grind
  | case2 d h => rfl

/-! ### Text -/

/-- The leading digit stands at most so many places before the point of a
number that is shown without an exponent. -/
def farthestBeforePoint : Int := 16

/-- The leading digit stands at most so many places after the point of a number
that is shown without an exponent. -/
def farthestAfterPoint : Int := 4

/-- An exponent has at least so many digits. -/
def exponentWidth : Nat := 2

/-- So many zeros. -/
def zeros (count : Nat) : Text := List.replicate count (CodePoint.digit 0)

/-- Digits with a point after the first `whole` of them. Where there are no
digits, zeros stand. -/
def pointed (digits : Text) (whole : Int) : Text :=
  if whole ≤ 0 then "0." ++ zeros (-whole).toNat ++ digits
  else if digits.length ≤ whole then digits ++ zeros (whole - digits.length).toNat ++ ".0"
  else digits.take whole.toNat ++ "." ++ digits.drop whole.toNat

/-- Digits with a point after the first one, if others follow, and the exponent
of ten that belongs to it. -/
def scaled (digits : Text) (exponent : Int) : Text :=
  let others : Text := if digits.length ≤ 1 then [] else "." ++ digits.drop 1
  let mark : Text := if exponent < 0 then "e-" else "e+"
  let magnitude := Text.ofNat exponent.natAbs
  digits.take 1 ++ others ++ mark ++ zeros (exponentWidth - magnitude.length) ++ magnitude

/-- The number as it is shown. -/
def text (d : Decimal) : Text :=
  let shown := d.stripped
  let digits := Text.ofNat shown.digits
  let whole := digits.length + shown.exponent
  (if d.negative then "-" else "") ++
    if shown.digits = 0 then ("0.0" : Text)
    else if -farthestAfterPoint < whole ∧ whole ≤ farthestBeforePoint then pointed digits whole
    else scaled digits (whole - 1)

end Decimal

end Stomp
