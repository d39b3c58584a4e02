/-!
# Code points and text

Text is a list of Unicode code points. Surrogates are code points like any
other here: text that holds one exists, and is refused only where it has to be
written as bytes (`Stomp.Text.Utf8`).

A `Char` coerces to a code point and a `String` to a text, so that a message can
be written as `"cannot encode " ++ t.quoted ++ " as UTF-8"`.
-/

namespace Stomp

/-- A Unicode code point, surrogates included. -/
abbrev CodePoint := Fin 0x110000

/-- A text: its code points in order. -/
abbrev Text := List CodePoint

/-- Texts that compare as equal are equal. -/
instance Text.lawfulBEq : LawfulBEq Text := inferInstance

namespace CodePoint

/-- The code point of a character; no character is a surrogate. -/
def ofChar (c : Char) : CodePoint :=
  ⟨c.toNat, by
    have h : c.val.toNat < 0xD800 ∨ 0xDFFF < c.val.toNat ∧ c.val.toNat < 0x110000 := c.valid
    change c.val.toNat < 0x110000
    omega⟩

instance : Coe Char CodePoint := ⟨ofChar⟩

/-- The code points `0xD800` to `0xDFFF` stand for no character. -/
def IsSurrogate (c : CodePoint) : Prop := 0xD800 ≤ c.val ∧ c.val ≤ 0xDFFF

instance (c : CodePoint) : Decidable c.IsSurrogate :=
  inferInstanceAs (Decidable (0xD800 ≤ c.val ∧ c.val ≤ 0xDFFF))

theorem not_isSurrogate_ofChar (c : Char) : ¬ (ofChar c).IsSurrogate := by
  have h : c.val.toNat < 0xD800 ∨ 0xDFFF < c.val.toNat ∧ c.val.toNat < 0x110000 := c.valid
  change ¬ (0xD800 ≤ c.val.toNat ∧ c.val.toNat ≤ 0xDFFF)
  omega

/-- Whether a code point lies in one of the given ranges, which stand in
increasing order with both ends included. -/
def within : List (Nat × Nat) → CodePoint → Bool
  | [], _ => false
  | (low, high) :: rest, c => if c.val < low then false else c.val ≤ high || within rest c

/-- The code point of a number, which is reduced if it is too great. -/
def ofNat (n : Nat) : CodePoint := ⟨n % 0x110000, Nat.mod_lt n (by decide)⟩

/-- The digit of value `d` in the base at hand: `0` to `9`, then `a` to `f`. -/
def digit (d : Nat) : CodePoint :=
  if d < 10 then ofNat (48 + d) else ofNat (87 + d)

end CodePoint

namespace Text

/-- The code points of a string. -/
def ofString (s : String) : Text := s.toList.map CodePoint.ofChar

instance : Coe String Text := ⟨ofString⟩

/-- A string holds no surrogates. -/
theorem not_isSurrogate_of_mem_ofString {s : String} {c : CodePoint} (h : c ∈ ofString s) :
    ¬ c.IsSurrogate := by
  obtain ⟨ch, -, rfl⟩ := List.mem_map.mp h
  exact CodePoint.not_isSurrogate_ofChar ch

/-! ### Trimming and joining -/

/-- The text without the code points of a class at its two ends. -/
def trimmed (cls : CodePoint → Bool) (t : Text) : Text :=
  ((t.dropWhile cls).reverse.dropWhile cls).reverse

/-- The texts one after another, with `between` between each two. -/
def joined (between : Text) : List Text → Text
  | [] => []
  | [t] => t
  | t :: u :: rest => t ++ between ++ joined between (u :: rest)

end Text

end Stomp
