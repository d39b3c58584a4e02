import Stomp.Bytes

/-!
# Reading hexadecimal digits

`Bytes.ofHex?` reads two digits as a byte, and reads lowercase digits only. It is the inverse of
`Bytes.hex` on both sides (`ofHex?_eq_some_iff`), so that bytes are told by their digits.
-/

namespace Stomp

namespace CodePoint

/-- The value of a lowercase hexadecimal digit. -/
def hexValue? (c : CodePoint) : Option Nat :=
  if 48 ≤ c.val ∧ c.val ≤ 57 then some (c.val - 48)
  else if 97 ≤ c.val ∧ c.val ≤ 102 then some (c.val - 87)
  else none

theorem val_digit {d : Nat} (hd : d < 16) :
    (digit d).val = if d < 10 then 48 + d else 87 + d := by
  unfold digit ofNat
  split
  · exact Nat.mod_eq_of_lt (by omega)
  · exact Nat.mod_eq_of_lt (by omega)

/-- A code point has a value just if it is the digit of it. -/
theorem hexValue?_eq_some_iff {c : CodePoint} {d : Nat} :
    c.hexValue? = some d ↔ d < 16 ∧ c = digit d := by
  rw [hexValue?]
  constructor
  · intro h
    -- the two ranges do not overlap, and each digit lies in one of them
    have hvalue : d < 16 ∧ c.val = if d < 10 then 48 + d else 87 + d := by
      split at h
      · obtain rfl := Option.some.inj h
        rw [if_pos (by omega)]
        omega
      · split at h
        · obtain rfl := Option.some.inj h
          rw [if_neg (by omega)]
          omega
        · cases h
    exact ⟨hvalue.1, Fin.ext (hvalue.2.trans (val_digit hvalue.1).symm)⟩
  · rintro ⟨hd, rfl⟩
    rw [val_digit hd]
    by_cases hten : d < 10
    · rw [if_pos hten, if_pos (by omega), Nat.add_sub_cancel_left]
    · rw [if_neg hten, if_neg (by omega), if_pos (by omega), Nat.add_sub_cancel_left]

/-- The digits are those that are used for bytes. -/
theorem digit_mem {d : Nat} (hd : d < 16) : digit d ∈ Text.ofString "0123456789abcdef" := by
  -- only sixteen digits are to be looked at
  have hall : ∀ d : Fin 16, digit d.val ∈ Text.ofString "0123456789abcdef" := by decide
  exact hall ⟨d, hd⟩

end CodePoint

namespace Bytes

/-- Reads two lowercase hexadecimal digits for each byte. -/
def ofHex? : Text → Option Bytes
  | [] => some []
  | [_] => none
  | high :: low :: rest => do
    let high ← high.hexValue?
    let low ← low.hexValue?
    return UInt8.ofNat (16 * high + low) :: (← ofHex? rest)

theorem hex_cons (b : UInt8) (bytes : Bytes) :
    hex (b :: bytes) =
      CodePoint.digit (b.toNat / 16) :: CodePoint.digit (b.toNat % 16) :: hex bytes :=
  rfl

/-- Two digits are enough for a byte. -/
theorem toNat_div_lt (b : UInt8) : b.toNat / 16 < 16 := by
  have := b.toNat_lt
  omega

/-- **Bytes are read back from their digits**, and from nothing else. -/
theorem ofHex?_eq_some_iff {digits : Text} {bytes : Bytes} :
    ofHex? digits = some bytes ↔ digits = hex bytes := by
  constructor
  · intro h
    induction digits using ofHex?.induct generalizing bytes with
    | case1 =>
      obtain rfl := Option.some.inj h
      rfl
    | case2 c => cases h
    | case3 high low rest ih =>
      simp only [ofHex?, bind, Option.bind_eq_some_iff, pure, Option.some.injEq] at h
      obtain ⟨d, hd, e, he, others, hothers, rfl⟩ := h
      obtain ⟨hdlt, rfl⟩ := CodePoint.hexValue?_eq_some_iff.mp hd
      obtain ⟨helt, rfl⟩ := CodePoint.hexValue?_eq_some_iff.mp he
      -- two digits make a number below 256, which is told by quotient and remainder
      have hvalue : (UInt8.ofNat (16 * d + e)).toNat = 16 * d + e := by
        rw [UInt8.toNat_ofNat']
        exact Nat.mod_eq_of_lt (by omega)
      have hhigh : (16 * d + e) / 16 = d := by omega
      have hlow : (16 * d + e) % 16 = e := by omega
      rw [hex_cons, hvalue, hhigh, hlow, ih hothers]
  · rintro rfl
    induction bytes with
    | nil => rfl
    | cons b bytes ih =>
      have hhigh : (CodePoint.digit (b.toNat / 16)).hexValue? = some (b.toNat / 16) :=
        CodePoint.hexValue?_eq_some_iff.mpr ⟨toNat_div_lt b, rfl⟩
      have hlow : (CodePoint.digit (b.toNat % 16)).hexValue? = some (b.toNat % 16) :=
        CodePoint.hexValue?_eq_some_iff.mpr ⟨Nat.mod_lt _ (by decide), rfl⟩
      rw [hex_cons, ofHex?, hhigh, hlow, ih]
      -- and they make up the byte that they were written from
      have hbyte : UInt8.ofNat (16 * (b.toNat / 16) + b.toNat % 16) = b := by
        rw [Nat.div_add_mod]
        exact UInt8.ofNat_toNat
      simp only [bind, Option.bind_some, pure, hbyte]

/-- Nothing but digits stands there. -/
theorem mem_hex {bytes : Bytes} {c : CodePoint} (hc : c ∈ bytes.hex) :
    c ∈ Text.ofString "0123456789abcdef" := by
  obtain ⟨b, -, hdigit⟩ := List.mem_flatMap.mp hc
  rcases List.mem_cons.mp hdigit with rfl | hdigit
  · exact CodePoint.digit_mem (toNat_div_lt b)
  · obtain rfl := List.mem_singleton.mp hdigit
    exact CodePoint.digit_mem (Nat.mod_lt _ (by decide))

end Bytes

end Stomp
