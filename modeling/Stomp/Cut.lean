/-!
# Cutting a sequence at a mark

`cut?` parts a sequence at the first occurrence of a mark, as a line is parted
from the lines after it or a header name from its value; `split` parts it at
every occurrence.
-/

namespace Stomp

variable {α : Type} [DecidableEq α]

/-- The parts before and after the first `mark`, if there is one. -/
def cut? (mark : α) : List α → Option (List α × List α)
  | [] => none
  | c :: rest =>
    if c = mark then some ([], rest)
    else match cut? mark rest with
      | none => none
      | some (before, after) => some (c :: before, after)

/-- The parts between the occurrences of `mark`; one more part than occurrences. -/
def split (mark : α) : List α → List (List α)
  | [] => [[]]
  | c :: rest =>
    if c = mark then [] :: split mark rest
    else match split mark rest with
      | [] => [[c]]
      | part :: parts => (c :: part) :: parts

/-- A sequence is cut at its first mark: what stands before holds none. -/
theorem cut?_eq_some_iff {mark : α} {t before after : List α} :
    cut? mark t = some (before, after) ↔ t = before ++ mark :: after ∧ mark ∉ before := by
  induction t generalizing before after with
  | nil => simp [cut?]
  | cons c rest ih =>
    by_cases h : c = mark
    · cases before with
      | nil => simp [cut?, h]
      | cons b bs =>
        simp only [cut?, h, if_true, List.cons_append, List.cons.injEq, List.mem_cons]
        grind
    · cases hcut : cut? mark rest with
      | none =>
        simp only [cut?, h, if_false, hcut, reduceCtorEq, false_iff]
        rintro ⟨heq, hmem⟩
        cases before with
        | nil => exact h (List.cons.inj heq).1
        | cons b bs =>
          simp only [List.cons_append, List.cons.injEq] at heq
          obtain ⟨rfl, heq⟩ := heq
          exact absurd (ih.mpr ⟨heq, fun hb => hmem (List.mem_cons_of_mem _ hb)⟩) (by simp [hcut])
      | some p =>
        obtain ⟨u, v⟩ := p
        obtain ⟨rfl, hu⟩ := ih.mp hcut
        simp only [cut?, h, if_false, hcut, Option.some.injEq, Prod.mk.injEq]
        constructor
        · rintro ⟨rfl, rfl⟩
          exact ⟨rfl, by simp [hu, Ne.symm h]⟩
        · rintro ⟨heq, hmem⟩
          cases before with
          | nil => exact absurd (List.cons.inj heq).1 h
          | cons b bs =>
            simp only [List.cons_append, List.cons.injEq] at heq
            obtain ⟨rfl, heq⟩ := heq
            have := ih.mpr ⟨heq, fun hb => hmem (List.mem_cons_of_mem _ hb)⟩
            simp [hcut] at this
            simp [this]

/-- A sequence without the mark is not cut. -/
theorem cut?_eq_none_iff {mark : α} {t : List α} : cut? mark t = none ↔ mark ∉ t := by
  induction t with
  | nil => simp [cut?]
  | cons c rest ih =>
    by_cases h : c = mark
    · simp [cut?, h]
    · cases hcut : cut? mark rest <;> simp [cut?, h, hcut, Ne.symm h] at ih ⊢ <;> exact ih

/-- What is left after the mark is shorter. -/
theorem length_lt_of_cut? {mark : α} {t before after : List α}
    (h : cut? mark t = some (before, after)) : after.length < t.length := by
  obtain ⟨rfl, -⟩ := cut?_eq_some_iff.mp h
  simp only [List.length_append, List.length_cons]
  omega

end Stomp
