import Stomp.Proofs.Frame.Spelling

/-!
# Reading header text undoes escaping

From 1.1 on, header text is read pair by pair: `Version.Means` says what a text with escapes stands
for, and `readHeader_eq_ok_iff` that this is what is read. The rest is about `Means` alone.

* `exists_means_iff` — which texts stand for any: they can be cut into **pieces** (`Piece`), which
  are single code points other than the backslash and valid pairs.
* `Means.flatMap_escapePoint` — escaping gives the text back that was read, if no mark stands in it
  unescaped. A mark may well do so: a raw colon is read as a colon.
* `Means.mono` — what a pair stands for at one version it stands for at every version that has the
  pair.

`readHeader_undoes_escape` has these and the other way back together.
-/

namespace Stomp

namespace Version

/-- **A piece of header text with escapes**: a code point other than the backslash, or a backslash
with a letter that it makes a pair with. -/
inductive Piece (v : Version) : Text → Prop
  | plain {c : CodePoint} (hc : c ≠ '\\') : Piece v [c]
  | pair {letter c : CodePoint} (hpair : v.Pair letter c) : Piece v ['\\', letter]

variable {v w : Version} {t u : Text}

/-- What stands for a text are pieces in a row. -/
theorem exists_means_iff :
    (∃ u, v.Means t u) ↔ ∃ pieces : List Text, (∀ p ∈ pieces, v.Piece p) ∧ t = pieces.flatten := by
  constructor
  · rintro ⟨u, h⟩
    -- each step of the meaning is one piece
    induction h with
    | nil => exact ⟨[], List.forall_mem_nil _, rfl⟩
    | @plain c _ _ hc _ ih =>
      obtain ⟨pieces, hpieces, rfl⟩ := ih
      exact ⟨[c] :: pieces, List.forall_mem_cons.mpr ⟨.plain hc, hpieces⟩, rfl⟩
    | @pair letter _ _ _ hpair _ ih =>
      obtain ⟨pieces, hpieces, rfl⟩ := ih
      exact ⟨['\\', letter] :: pieces, List.forall_mem_cons.mpr ⟨.pair hpair, hpieces⟩, rfl⟩
  · rintro ⟨pieces, hpieces, rfl⟩
    induction pieces with
    | nil => exact ⟨[], .nil⟩
    | cons p pieces ih =>
      obtain ⟨hp, hpieces⟩ := List.forall_mem_cons.mp hpieces
      obtain ⟨u, hu⟩ := ih hpieces
      cases hp with
      | plain hc => exact ⟨_, .plain hc hu⟩
      | pair hpair => exact ⟨_, .pair hpair hu⟩

/-- A code point that a pair stands for is escaped by the pair. -/
theorem Pair.escapePoint_eq {letter c : CodePoint} (h : v.Pair letter c) :
    v.dialect.escapePoint c = [CodePoint.ofChar '\\', letter] := by
  cases h with
  | lineFeed => rfl
  | colon => rfl
  | backslash => rfl
  | carriageReturn hv =>
    rw [dialect_eq_v12_iff.mpr hv]
    rfl

/-- Escaping gives the text back that was read, unless a mark stands in it unescaped. -/
theorem Means.flatMap_escapePoint (h : v.Means t u) (hfeed : CodePoint.ofChar '\n' ∉ t)
    (hcolon : CodePoint.ofChar ':' ∉ t) (hreturn : ¬ v < ⟨[1, 2]⟩ → CodePoint.ofChar '\r' ∉ t) :
    u.flatMap v.dialect.escapePoint = t := by
  induction h with
  | nil => rfl
  | @plain c t u hc _ ih =>
    -- a code point that is no mark stands for itself when it is escaped
    rw [List.mem_cons, not_or] at hfeed hcolon
    have hpoint : v.dialect.escapePoint c = [c] := by
      unfold Dialect.escapePoint
      rw [if_neg hc, if_neg (Ne.symm hfeed.1), if_neg (Ne.symm hcolon.1), if_neg]
      rintro ⟨rfl, h12⟩
      exact hreturn (dialect_eq_v12_iff.mp h12) (List.mem_cons_self ..)
    have hrest := ih hfeed.2 hcolon.2 fun h12 => (not_or.mp (mt List.mem_cons.mpr (hreturn h12))).2
    rw [List.flatMap_cons, hpoint, hrest, List.singleton_append]
  | @pair letter c t u hpair _ ih =>
    -- what is free of marks is so behind the pair
    have hbehind : ∀ {m : CodePoint}, m ∉ CodePoint.ofChar '\\' :: letter :: t → m ∉ t :=
      fun hm hmem => hm (List.mem_cons_of_mem _ (List.mem_cons_of_mem _ hmem))
    have hrest := ih (hbehind hfeed) (hbehind hcolon) fun h12 => hbehind (hreturn h12)
    rw [List.flatMap_cons, hpair.escapePoint_eq, hrest]
    rfl

/-- A pair keeps its meaning at each version that has it. -/
theorem Pair.mono (hvw : ¬ v < ⟨[1, 2]⟩ → ¬ w < ⟨[1, 2]⟩) {letter c : CodePoint}
    (h : v.Pair letter c) : w.Pair letter c := by
  cases h with
  | lineFeed => exact .lineFeed
  | colon => exact .colon
  | backslash => exact .backslash
  | carriageReturn hv => exact .carriageReturn (hvw hv)

/-- So does a text. -/
theorem Means.mono (hvw : ¬ v < ⟨[1, 2]⟩ → ¬ w < ⟨[1, 2]⟩) (h : v.Means t u) : w.Means t u := by
  induction h with
  | nil => exact .nil
  | plain hc _ ih => exact .plain hc ih
  | pair hpair _ ih => exact .pair (hpair.mono hvw) ih

/-- A version from the second threshold on is one from the first on. -/
theorem not_lt_of_not_lt (hv : ¬ v < ⟨[1, 2]⟩) : ¬ v < ⟨[1, 1]⟩ := by
  have h12 : v.dialect = .v12 := dialect_eq_v12_iff.mpr hv
  rw [← dialect_eq_v10_iff, h12]
  exact Dialect.noConfusion

end Version

section

variable {version : Text} {v : Version}

/-- **What is read**, pair by pair. -/
theorem readHeader_eq_ok_iff (hversion : Version.parse? version = some v) (hv : ¬ v < ⟨[1, 1]⟩)
    {t u : Text} : readHeader version t = .ok u ↔ v.Means t u := by
  have hne : v.dialect ≠ .v10 := mt Version.dialect_eq_v10_iff.mp hv
  rw [Version.means_iff hv, ← Dialect.unescape?_eq hne, readHeader, hversion]
  simp only [Dialect.readHeader]
  cases v.dialect.unescape? t with
  | none => simp
  | some u' => simp

/-- A text that is not read is named in the error. -/
theorem readHeader_eq_error (hversion : Version.parse? version = some v) {t : Text}
    (h : ¬ ∃ u, readHeader version t = .ok u) :
    readHeader version t = .error (.protocol (.invalidEscape t)) := by
  simp only [readHeader, hversion, Dialect.readHeader] at h ⊢
  cases hread : v.dialect.unescape? t with
  | none => rfl
  | some u =>
    rw [hread] at h
    exact absurd ⟨u, rfl⟩ h

/-- **Reading header text undoes escaping.** From 1.1 on, the texts that are read are the pieces in
a row, and any other text breaks the rules. What is escaped is read back, and what is read is
escaped back if no mark stands in it unescaped. Text that is read before 1.2 is read the same from
1.2 on. -/
theorem readHeader_undoes_escape (hversion : Version.parse? version = some v)
    (hv : ¬ v < ⟨[1, 1]⟩) :
    (∀ t, (∃ u, readHeader version t = .ok u) ↔
      ∃ pieces : List Text, (∀ p ∈ pieces, v.Piece p) ∧ t = pieces.flatten) ∧
    (∀ t, (¬ ∃ pieces : List Text, (∀ p ∈ pieces, v.Piece p) ∧ t = pieces.flatten) →
      readHeader version t = .error (.protocol (.invalidEscape t))) ∧
    (∀ s : Text, readHeader version (s.flatMap v.dialect.escapePoint) = .ok s) ∧
    (∀ t u, readHeader version t = .ok u → CodePoint.ofChar '\n' ∉ t → CodePoint.ofChar ':' ∉ t →
      (¬ v < ⟨[1, 2]⟩ → CodePoint.ofChar '\r' ∉ t) → u.flatMap v.dialect.escapePoint = t) ∧
    (v < ⟨[1, 2]⟩ → ∀ newer w, Version.parse? newer = some w → ¬ w < ⟨[1, 2]⟩ →
      ∀ t u, readHeader version t = .ok u → readHeader newer t = .ok u) := by
  have hread : ∀ t, (∃ u, readHeader version t = .ok u) ↔
      ∃ pieces : List Text, (∀ p ∈ pieces, v.Piece p) ∧ t = pieces.flatten := fun t => by
    rw [← Version.exists_means_iff]
    exact exists_congr fun u => readHeader_eq_ok_iff hversion hv
  refine ⟨hread, fun t ht => readHeader_eq_error hversion (mt (hread t).mp ht), fun s => ?_,
    fun t u h hfeed hcolon hreturn =>
      ((readHeader_eq_ok_iff hversion hv).mp h).flatMap_escapePoint hfeed hcolon hreturn,
    fun _ newer w hnewer hw t u h => ?_⟩
  · -- this is the round trip of the two functions
    have hne : v.dialect ≠ .v10 := mt Version.dialect_eq_v10_iff.mp hv
    rw [readHeader_eq_ok_iff hversion hv, Version.means_iff hv, ← Dialect.unescape?_eq hne]
    exact Dialect.unescape?_flatMap_escapePoint hne s
  · rw [readHeader_eq_ok_iff hnewer (Version.not_lt_of_not_lt hw)]
    exact ((readHeader_eq_ok_iff hversion hv).mp h).mono fun _ => hw

end

/-- Runs of backslashes: a pair whose letter is a backslash, before what would else be a pair. -/
theorem readHeader_backslashes :
    Version.parse? "1.1" = some ⟨[1, 1]⟩ ∧
      readHeader "1.1" "\\\\n\\c" = .ok "\\n:" ∧ readHeader "1.10" "\\\\n\\c" = .ok "\\n:" ∧
      readHeader "1.1" "\\\\\\" = .error (.protocol (.invalidEscape "\\\\\\")) := by
  have hversion : Version.parse? "1.1" = some ⟨[1, 1]⟩ := by decide +kernel
  obtain ⟨-, hrefused, hback, -, hnewer⟩ :=
    readHeader_undoes_escape hversion (by decide : ¬ (⟨[1, 1]⟩ : Version) < ⟨[1, 1]⟩)
  have h11 : readHeader "1.1" "\\\\n\\c" = .ok "\\n:" := hback "\\n:"
  -- the first two make a pair, so the third one stands alone at the end
  have hodd : ¬ ∃ u, Version.Means ⟨[1, 1]⟩ "\\\\\\" u := by
    rintro ⟨u, _ | ⟨hc, -⟩ | ⟨-, _ | ⟨hc, -⟩⟩⟩
    · exact hc rfl
    · exact hc rfl
  exact ⟨hversion, h11, hnewer (by decide) "1.10" ⟨[1, 10]⟩ (by decide +kernel) (by decide) _ _ h11,
    hrefused _ (mt Version.exists_means_iff.mpr hodd)⟩

end Stomp
