import Stomp.Cut
import Stomp.Text.Numeral

/-!
# Protocol versions

A version is written as integers with dots between them and compared part by
part, a version that stops first being the lower one: `1 < 1.1 < 1.1.0 < 1.2 <
1.10`. For the frames on the wire only three **dialects** matter, with the
thresholds 1.1 and 1.2 between them.
-/

namespace Stomp

/-- A protocol version, its parts in order. -/
structure Version where
  parts : List Int
deriving DecidableEq, Repr

namespace Version

/-- The parts of a version text, if each of them is an integer. -/
def parse? (t : Text) : Option Version :=
  ((split (CodePoint.ofChar '.') t).mapM Text.toInt?).map Version.mk

/-- Versions are ordered part by part. -/
instance : LT Version := ⟨fun v w => v.parts < w.parts⟩

instance (v w : Version) : Decidable (v < w) := inferInstanceAs (Decidable (v.parts < w.parts))

end Version

/-- The version text of a peer that names none. -/
def defaultVersion : Text := "1.0"

/-- How header lines are written on the wire. -/
inductive Dialect
  /-- Header text stands as it is. -/
  | v10
  /-- Header text is escaped. -/
  | v11
  /-- Header text is escaped, carriage returns too, and a line may end in one. -/
  | v12
deriving DecidableEq, Repr

/-- The dialect that a version speaks. -/
def Version.dialect (v : Version) : Dialect :=
  if v < ⟨[1, 1]⟩ then .v10 else if v < ⟨[1, 2]⟩ then .v11 else .v12

namespace Version

theorem dialect_eq_v10_iff {v : Version} : v.dialect = .v10 ↔ v < ⟨[1, 1]⟩ := by
  unfold dialect
  split
  · simp [*]
  · split <;> simp [*]

theorem dialect_eq_v12_iff {v : Version} : v.dialect = .v12 ↔ ¬ v < ⟨[1, 2]⟩ := by
  -- what is below the first threshold is below the second
  have below : v < ⟨[1, 1]⟩ → v < ⟨[1, 2]⟩ := fun h =>
    List.lt_trans h (show ([1, 1] : List Int) < [1, 2] by decide)
  unfold dialect
  split
  · rename_i h
    simp [below h]
  · split <;> simp [*]

end Version

end Stomp
