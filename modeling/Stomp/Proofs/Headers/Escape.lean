import Mathlib.Tactic.SplitIfs
import Stomp.Headers.Escape
import Stomp.Proofs.Text.Octets

/-!
# Escapes read and written

Two facts about `Dialect.unescape?`, both by the recursion of `Dialect.unescapePairs?`, which takes
a backslash together with the letter after it and everything else one by one:

* `unescape?_flatMap_escapePoint` — what a peer escapes code point by code point, as
  `Dialect.escapePoint` says, is read back, and is free of the marks that structure a header line
  (`not_mem_flatMap_escapePoint`);
* `length_octets_lt_of_unescape?` — each escape that is read makes the text shorter, so reading
  keeps the length of a text only if it holds no backslash, and then keeps the text.

The second is what makes a header block that reads back as the headers it was written from free of
escapes, whatever its lines are.
-/

namespace Stomp.Dialect

open Utf8 (octets octets_cons encodePoint encodePoint_of_lt)

/-! ### Writing -/

/-- A code point as the dialects with escapes write it. -/
def escapePoint (d : Dialect) (c : CodePoint) : Text :=
  if c = '\\' then ['\\', '\\']
  else if c = '\n' then ['\\', 'n']
  else if c = ':' then ['\\', 'c']
  else if c = '\r' ∧ d = .v12 then ['\\', 'r']
  else [c]

section Points

variable {d : Dialect} {t : Text}

/-- The marks of a header line stand nowhere in escaped text. -/
theorem not_mem_flatMap_escapePoint :
    CodePoint.ofChar ':' ∉ t.flatMap d.escapePoint ∧
      CodePoint.ofChar '\n' ∉ t.flatMap d.escapePoint ∧
      (d = .v12 → CodePoint.ofChar '\r' ∉ t.flatMap d.escapePoint) := by
  -- it is enough to look at one code point
  have hpoint : ∀ c, CodePoint.ofChar ':' ∉ d.escapePoint c ∧
      CodePoint.ofChar '\n' ∉ d.escapePoint c ∧
      (d = .v12 → CodePoint.ofChar '\r' ∉ d.escapePoint c) := by
    intro c
    unfold escapePoint
    split_ifs with h1 h2 h3 h4
    · exact ⟨by decide, by decide, fun _ => by decide⟩
    · exact ⟨by decide, by decide, fun _ => by decide⟩
    · exact ⟨by decide, by decide, fun _ => by decide⟩
    · exact ⟨by decide, by decide, fun _ => by decide⟩
    · simp only [List.mem_singleton]
      exact ⟨Ne.symm h3, Ne.symm h2, fun h12 h => h4 ⟨h.symm, h12⟩⟩
  refine ⟨fun h => ?_, fun h => ?_, fun h12 h => ?_⟩
  · obtain ⟨c, -, hc⟩ := List.mem_flatMap.mp h
    exact (hpoint c).1 hc
  · obtain ⟨c, -, hc⟩ := List.mem_flatMap.mp h
    exact (hpoint c).2.1 hc
  · obtain ⟨c, -, hc⟩ := List.mem_flatMap.mp h
    exact (hpoint c).2.2 h12 hc

/-- Escapes bring no surrogates. -/
theorem not_isSurrogate_of_mem_escapePoint {c : CodePoint} (hc : ¬ c.IsSurrogate) :
    ∀ m ∈ d.escapePoint c, ¬ m.IsSurrogate := by
  unfold escapePoint
  split_ifs <;> simp [CodePoint.not_isSurrogate_ofChar, hc]

end Points

/-! ### Reading -/

theorem unescape?_eq {d : Dialect} (hd : d ≠ .v10) (t : Text) :
    d.unescape? t = d.unescapePairs? t := by
  cases d with
  | v10 => exact absurd rfl hd
  | v11 => rfl
  | v12 => rfl

theorem unescapePairs?_cons_of_ne {d : Dialect} {c : CodePoint} (h : c ≠ CodePoint.ofChar '\\')
    (t : Text) : d.unescapePairs? (c :: t) = (d.unescapePairs? t).map (c :: ·) := by
  cases t with
  | nil => simp [unescapePairs?, h]
  | cons letter rest => rw [unescapePairs?, if_neg h]

theorem unescapePairs?_escapePoint {d : Dialect} (hd : d ≠ .v10) (c : CodePoint) (t : Text) :
    d.unescapePairs? (d.escapePoint c ++ t) = (d.unescapePairs? t).map (c :: ·) := by
  -- a backslash is read with its letter, which means the code point
  have hpair : ∀ letter, d.meaning? letter = some c →
      d.unescapePairs? (CodePoint.ofChar '\\' :: letter :: t) =
        (d.unescapePairs? t).map (c :: ·) := by
    intro letter hmeaning
    rw [unescapePairs?, if_pos rfl, hmeaning]
  unfold escapePoint
  -- one escape after another; whatever is none of them stands for itself
  split_ifs with h1 h2 h3 h4
  · refine hpair '\\' ?_
    subst h1
    cases d <;> first | exact absurd rfl hd | rfl
  · refine hpair 'n' ?_
    subst h2
    cases d <;> first | exact absurd rfl hd | rfl
  · refine hpair 'c' ?_
    subst h3
    cases d <;> first | exact absurd rfl hd | rfl
  · refine hpair 'r' ?_
    rw [h4.1, h4.2]
    rfl
  · exact unescapePairs?_cons_of_ne h1 t

/-- **What is escaped is read back.** -/
theorem unescape?_flatMap_escapePoint {d : Dialect} (hd : d ≠ .v10) (t : Text) :
    d.unescape? (t.flatMap d.escapePoint) = some t := by
  rw [unescape?_eq hd]
  induction t with
  | nil => rfl
  | cons c t ih => rw [List.flatMap_cons, unescapePairs?_escapePoint hd, ih, Option.map_some]

/-- Text without a backslash is read as it stands. -/
theorem unescape?_of_not_mem (d : Dialect) {t : Text} (h : CodePoint.ofChar '\\' ∉ t) :
    d.unescape? t = some t := by
  have hpairs : d.unescapePairs? t = some t := by
    induction t with
    | nil => rfl
    | cons c t ih =>
      simp only [List.mem_cons, not_or] at h
      rw [unescapePairs?_cons_of_ne (Ne.symm h.1), ih h.2, Option.map_some]
  cases d with
  | v10 => rfl
  | v11 => exact hpairs
  | v12 => exact hpairs

/-- What an escape means is one byte long. -/
theorem length_encodePoint_of_meaning? {d : Dialect} {letter m : CodePoint}
    (h : d.meaning? letter = some m) : (encodePoint m).length = 1 := by
  have hmeanings : ∀ n ∈ d.escapes.map (fun e => e.2.val), n < 0x80 := by cases d <;> decide
  -- a meaning that is found is one of the table
  have hmem : (letter, m) ∈ d.escapes := by
    obtain ⟨l₁, l₂, heq, -⟩ := List.lookup_eq_some_iff.mp h
    rw [heq]
    exact List.mem_append_right _ (List.mem_cons_self ..)
  rw [encodePoint_of_lt (hmeanings _ (List.mem_map_of_mem hmem)), List.length_singleton]

/-- Reading makes no text longer, and a text with a backslash shorter. -/
theorem length_octets_of_unescapePairs? {d : Dialect} {t u : Text}
    (h : d.unescapePairs? t = some u) :
    (octets u).length ≤ (octets t).length ∧
      (CodePoint.ofChar '\\' ∈ t → (octets u).length < (octets t).length) := by
  fun_induction unescapePairs? d t generalizing u with
  | case1 =>
    obtain rfl := Option.some.inj h
    simp
  | case2 => simp at h
  | case3 c hc =>
    obtain rfl := Option.some.inj h
    simpa using fun h => absurd h.symm hc
  | case4 letter rest hnone => simp at h
  | case5 letter rest m hm ih =>
    -- two code points are read as one
    obtain ⟨v, hv, rfl⟩ := Option.map_eq_some_iff.mp h
    have := (ih hv).1
    have hone := length_encodePoint_of_meaning? hm
    have hback : (encodePoint (CodePoint.ofChar '\\')).length = 1 := rfl
    have hletter : 0 < (encodePoint letter).length :=
      List.length_pos_of_ne_nil (Utf8.encodePoint_ne_nil letter)
    simp only [octets_cons, List.length_append]
    omega
  | case6 c letter rest hc ih =>
    -- one code point is read as itself, so a backslash stands in the rest if it stands anywhere
    obtain ⟨v, hv, rfl⟩ := Option.map_eq_some_iff.mp h
    obtain ⟨hle, hlt⟩ := ih hv
    rw [octets_cons, octets_cons, List.length_append, List.length_append]
    refine ⟨by omega, fun hmem => ?_⟩
    rcases List.mem_cons.mp hmem with heq | hmem
    · exact absurd heq.symm hc
    · have := hlt hmem
      omega

theorem length_octets_le_of_unescape? {d : Dialect} {t u : Text} (h : d.unescape? t = some u) :
    (octets u).length ≤ (octets t).length := by
  by_cases hd : d = .v10
  · subst hd
    obtain rfl := Option.some.inj h
    exact Nat.le_refl _
  · rw [unescape?_eq hd] at h
    exact (length_octets_of_unescapePairs? h).1

/-- **Escapes show in the length**: where a dialect has escapes, reading a text with a backslash
makes it shorter. -/
theorem length_octets_lt_of_unescape? {d : Dialect} (hd : d ≠ .v10) {t u : Text}
    (h : d.unescape? t = some u) (hmem : CodePoint.ofChar '\\' ∈ t) :
    (octets u).length < (octets t).length := by
  rw [unescape?_eq hd] at h
  exact (length_octets_of_unescapePairs? h).2 hmem

end Stomp.Dialect
