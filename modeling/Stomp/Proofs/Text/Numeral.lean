import Mathlib.Algebra.Group.Nat.Defs
import Stomp.Text.Numeral

/-!
# Numerals are read back

A number that is written in decimal is read back as it was (`toInt?_ofNat`), if it has no more
digits than are read. The digits that are written are no white space, no sign and no underscore, so
reading takes each of them for what it stands for (`digitValues?_ofNat`).
-/

namespace Stomp.Text

/-- A decimal digit as it is written. -/
theorem digit_spec {d : Nat} (h : d < 10) :
    (CodePoint.digit d).digitValue? = some d ∧ CodePoint.isBlank (CodePoint.digit d) = false ∧
      CodePoint.digit d ≠ CodePoint.ofChar '_' ∧ CodePoint.digit d ≠ CodePoint.ofChar '-' ∧
        CodePoint.digit d ≠ CodePoint.ofChar '+' := by
  revert d
  decide

/-- Only digits are written. -/
theorem exists_digit_of_mem_ofNat {n : Nat} {c : CodePoint} (h : c ∈ ofNat n) :
    ∃ d, d < 10 ∧ c = CodePoint.digit d := by
  induction n using ofNat.induct with
  | case1 n hn =>
    rw [ofNat, if_pos hn] at h
    exact ⟨n, hn, List.mem_singleton.mp h⟩
  | case2 n hn ih =>
    rw [ofNat, if_neg hn] at h
    rcases List.mem_append.mp h with h | h
    · -- a digit in front is one of the quotient, and the last one is the remainder
      exact ih h
    · exact ⟨n % 10, Nat.mod_lt n (by decide), List.mem_singleton.mp h⟩

theorem ofNat_ne_nil (n : Nat) : ofNat n ≠ [] := by
  unfold ofNat
  split <;> simp

/-- A number below the `k`-th power of ten has `k` digits at most. -/
theorem length_ofNat_le {n k : Nat} (h : n < 10 ^ (k + 1)) : (ofNat n).length ≤ k + 1 := by
  induction n using ofNat.induct generalizing k with
  | case1 n hn =>
    rw [ofNat, if_pos hn, List.length_singleton]
    omega
  | case2 n hn ih =>
    rw [ofNat, if_neg hn, List.length_append, List.length_singleton]
    cases k with
    | zero => omega
    | succ k =>
      -- the quotient has a digit less
      have hdiv : n / 10 < 10 ^ (k + 1) := by
        rw [Nat.div_lt_iff_lt_mul (by decide), ← Nat.pow_succ]
        exact h
      have := ih hdiv
      omega

/-- **Each digit is read for what it stands for**, and then what follows the numeral. -/
theorem digitValues?_ofNat (n : Nat) (afterDigit : Bool) (rest : Text) :
    ∃ digits, digitValues? afterDigit (ofNat n ++ rest) =
        (digitValues? true rest).map (digits ++ ·) ∧
      digits.length = (ofNat n).length ∧ digits.foldl (fun n d => 10 * n + d) 0 = n := by
  induction n using ofNat.induct generalizing afterDigit rest with
  | case1 n hn =>
    obtain ⟨hvalue, -, hunderscore, -⟩ := digit_spec hn
    refine ⟨[n], ?_, ?_, by simp⟩
    · rw [ofNat, if_pos hn, List.singleton_append, digitValues?, hvalue]
      simp [hunderscore]
    · rw [ofNat, if_pos hn]
      rfl
  | case2 n hn ih =>
    obtain ⟨hvalue, -, hunderscore, -⟩ := digit_spec (Nat.mod_lt n (show 10 > 0 by decide))
    -- the digits in front are read first, with the last one among what follows them
    obtain ⟨digits, hread, hlength, hsum⟩ := ih afterDigit (CodePoint.digit (n % 10) :: rest)
    refine ⟨digits ++ [n % 10], ?_, ?_, ?_⟩
    · rw [ofNat, if_neg hn, List.append_assoc, List.singleton_append, hread, digitValues?, hvalue]
      simp [hunderscore, Function.comp_def]
    · rw [ofNat, if_neg hn, List.length_append, List.length_append, hlength]
      rfl
    · rw [List.foldl_append, hsum]
      simp only [List.foldl_cons, List.foldl_nil]
      omega

/-- Nothing is trimmed of a text that holds nothing of the class. -/
theorem trimmed_eq_self {cls : CodePoint → Bool} {t : Text} (h : ∀ c ∈ t, cls c = false) :
    t.trimmed cls = t := by
  have hkept : ∀ u : Text, (∀ c ∈ u, cls c = false) → u.dropWhile cls = u := by
    intro u hu
    cases u with
    | nil => rfl
    | cons c u => rw [List.dropWhile_cons_of_neg (by rw [hu c (List.mem_cons_self ..)]; decide)]
  have hreverse : ∀ c ∈ t.reverse, cls c = false := fun c hc => h c (List.mem_reverse.mp hc)
  rw [trimmed, hkept t h, hkept t.reverse hreverse, List.reverse_reverse]

/-- No digit is white space. -/
theorem trimmed_ofNat {cls : CodePoint → Bool} (hcls : ∀ c, cls c → c.isBlank) (n : Nat) :
    (ofNat n).trimmed cls = ofNat n := by
  refine trimmed_eq_self fun c hc => ?_
  obtain ⟨d, hd, rfl⟩ := exists_digit_of_mem_ofNat hc
  obtain ⟨-, hblank, -⟩ := digit_spec hd
  cases h : cls (CodePoint.digit d) with
  | false => rfl
  | true =>
    have := hcls _ h
    rw [hblank] at this
    cases this

theorem toNat?_ofNat {n : Nat} (h : (ofNat n).length ≤ maxDigits) : toNat? (ofNat n) = some n := by
  obtain ⟨digits, hread, hlength, hsum⟩ := digitValues?_ofNat n false []
  rw [List.append_nil, digitValues?, if_pos rfl, Option.map_some, List.append_nil] at hread
  rw [toNat?, hread]
  simp only [hlength, if_pos h, hsum]

/-- **A number that is written in decimal is read back.** -/
theorem toInt?_ofNat {n : Nat} (h : (ofNat n).length ≤ maxDigits) :
    toInt? (ofNat n) = some (n : Int) := by
  have htrimmed : (ofNat n).trimmed CodePoint.isNumeralSpace = ofNat n := by
    refine trimmed_ofNat (fun c hc => ?_) n
    rw [CodePoint.isNumeralSpace, Bool.and_eq_true] at hc
    exact hc.1
  rw [toInt?, htrimmed]
  cases hdigits : ofNat n with
  | nil => exact absurd hdigits (ofNat_ne_nil n)
  | cons c rest =>
    obtain ⟨d, hd, rfl⟩ := exists_digit_of_mem_ofNat (n := n) (hdigits ▸ List.mem_cons_self ..)
    obtain ⟨-, -, -, hminus, hplus⟩ := digit_spec hd
    -- a numeral begins with a digit, so no sign is taken off
    dsimp only
    rw [if_neg hminus, if_neg hplus, ← hdigits, toNat?_ofNat h]
    rfl

end Stomp.Text
