import Stomp.Headers.Basic

/-!
# Headers set over others, and headers that are shared

`h.overlay own` sets the headers of a list over `h`, one after another. A name that stands in `h`
stays where it is and takes the new value; the others come behind, in the order of the list
(`names_overlay`).

A mapping that is kept in a place is shared by all who know the place: what one of them sets, all of
them see. A `Store` is such mappings, and `at?_assignAll` is what comes of any assignments: each
place has just those laid over it that were made there.
-/

namespace Stomp

namespace Headers

/-- The headers with others set over them. -/
def overlay (h : Headers) (own : List (Text × Text)) : Headers :=
  own.foldl (fun h e => h.set e.1 e.2) h

@[simp] theorem overlay_nil (h : Headers) : h.overlay [] = h := rfl

@[simp] theorem overlay_cons (h : Headers) (e : Text × Text) (own : List (Text × Text)) :
    h.overlay (e :: own) = (h.set e.1 e.2).overlay own := rfl

variable {h : Headers} {own : List (Text × Text)}

theorem get?_eq_none_iff {name : Text} : h.get? name = none ↔ name ∉ h.names := by
  rw [get?, List.lookup_eq_none_iff, names, List.mem_map]
  constructor
  · rintro hall ⟨e, he, rfl⟩
    simpa using hall e he
  · intro hname e he
    exact bne_iff_ne.mpr fun heq => hname ⟨e, he, heq.symm⟩

/-- **The order of the names**: first those that were there, then those that are new. -/
theorem names_overlay (hown : (own.map Prod.fst).Nodup) :
    (h.overlay own).names = h.names ++ (own.map Prod.fst).filter (· ∉ h.names) := by
  induction own generalizing h with
  | nil => rw [overlay_nil, List.map_nil, List.filter_nil, List.append_nil]
  | cons e own ih =>
    rw [List.map_cons, List.nodup_cons] at hown
    rw [overlay_cons, ih hown.2, names_set, List.map_cons, List.filter_cons]
    by_cases hmem : e.1 ∈ h.names
    · -- the name keeps its place, and is not new
      simp [hmem]
    · -- the new name stands behind, and is not met again
      have hrest : (own.map Prod.fst).filter (· ∉ h.names ++ [e.1]) =
          (own.map Prod.fst).filter (· ∉ h.names) := by
        refine List.filter_congr fun name hname => ?_
        have hne : name ≠ e.1 := fun heq => hown.1 (heq ▸ hname)
        simp [hne]
      rw [if_neg hmem, if_pos (by simpa using hmem), hrest, List.append_assoc,
        List.singleton_append]

/-- Names that are not set keep their values. -/
theorem get?_overlay_of_not_mem {name : Text} (hname : name ∉ own.map Prod.fst) :
    (h.overlay own).get? name = h.get? name := by
  induction own generalizing h with
  | nil => rfl
  | cons e own ih =>
    rw [List.map_cons, List.mem_cons, not_or] at hname
    rw [overlay_cons, ih hname.2, get?_set, if_neg hname.1]

/-- Names that are set have the values that they are set to. -/
theorem get?_overlay_of_mem (hown : (own.map Prod.fst).Nodup) {e : Text × Text} (he : e ∈ own) :
    (h.overlay own).get? e.1 = some e.2 := by
  induction own generalizing h with
  | nil => exact absurd he List.not_mem_nil
  | cons e' own ih =>
    rw [List.map_cons, List.nodup_cons] at hown
    rw [overlay_cons]
    rcases List.mem_cons.mp he with rfl | he
    · -- set now, and not once more later
      rw [get?_overlay_of_not_mem hown.1, get?_set, if_pos rfl]
    · exact ih hown.2 he

theorem mem_setEntry {name value : Text} {entries : List (Text × Text)} {e : Text × Text}
    (he : e ∈ setEntry name value entries) : e = (name, value) ∨ e ∈ entries := by
  induction entries with
  | nil => exact .inl (List.mem_singleton.mp he)
  | cons e' entries ih =>
    rw [setEntry] at he
    split at he
    · -- the value is replaced where the name stands
      next hname =>
      rcases List.mem_cons.mp he with rfl | he
      · exact .inl (by rw [hname])
      · exact .inr (List.mem_cons_of_mem _ he)
    · rcases List.mem_cons.mp he with rfl | he
      · exact .inr (List.mem_cons_self ..)
      · exact (ih he).imp_right (List.mem_cons_of_mem _)

/-- No header comes from elsewhere. -/
theorem mem_entries_overlay {e : Text × Text} (he : e ∈ (h.overlay own).entries) :
    e ∈ own ∨ e ∈ h.entries := by
  induction own generalizing h with
  | nil => exact .inr he
  | cons e' own ih =>
    rcases ih he with hmem | hmem
    · exact .inl (List.mem_cons_of_mem _ hmem)
    · refine (mem_setEntry hmem).imp_left ?_
      rintro rfl
      exact List.mem_cons_self ..

end Headers

/-! ### Places -/

/-- Mappings in the places where they are kept. -/
structure Store where
  mappings : List Headers
deriving DecidableEq, Repr

namespace Store

variable {s : Store} {h : Headers} {p q : Nat}

/-- The mapping that is kept in a place. -/
def at? (s : Store) (p : Nat) : Option Headers := s.mappings[p]?

/-- The first place that is free. -/
def free (s : Store) : Nat := s.mappings.length

/-- Keeps a mapping in the first place that is free. -/
def keep (s : Store) (h : Headers) : Store := ⟨s.mappings ++ [h]⟩

/-- Sets a header of the mapping in a place. -/
def assign (s : Store) (p : Nat) (e : Text × Text) : Store :=
  ⟨s.mappings.modify p fun h => h.set e.1 e.2⟩

/-- Sets headers in places, one after another. -/
def assignAll (s : Store) (writes : List (Nat × (Text × Text))) : Store :=
  writes.foldl (fun s w => s.assign w.1 w.2) s

theorem ne_free (hp : s.at? p = some h) : p ≠ s.free := by
  obtain ⟨hlt, -⟩ := List.getElem?_eq_some_iff.mp hp
  exact Nat.ne_of_lt hlt

theorem at?_keep_free (s : Store) (h : Headers) : (s.keep h).at? s.free = some h :=
  List.getElem?_concat_length

theorem at?_keep (hp : s.at? p = some h) (h' : Headers) : (s.keep h').at? p = some h := by
  obtain ⟨hlt, -⟩ := List.getElem?_eq_some_iff.mp hp
  exact (List.getElem?_append_left hlt).trans hp

theorem at?_assign (s : Store) (p q : Nat) (e : Text × Text) :
    (s.assign p e).at? q = (s.at? q).map fun h => if p = q then h.set e.1 e.2 else h :=
  List.getElem?_modify ..

/-- **What is set in a place is seen in this place and in no other.** -/
theorem at?_assignAll (s : Store) (writes : List (Nat × (Text × Text))) (p : Nat) :
    (s.assignAll writes).at? p =
      (s.at? p).map (·.overlay ((writes.filter (·.1 = p)).map Prod.snd)) := by
  induction writes generalizing s with
  | nil => exact Option.map_id'.symm
  | cons w writes ih =>
    -- the induction takes the writes from the front, so the store is that after the first of them
    have hstep : (s.assignAll (w :: writes)).at? p = ((s.assign w.1 w.2).assignAll writes).at? p :=
      rfl
    rw [hstep, ih, at?_assign, Option.map_map, List.filter_cons]
    by_cases hw : w.1 = p
    · -- a write in this place is one of those that are laid over it
      simp only [hw, decide_true, if_true, List.map_cons, Headers.overlay_cons]
      rfl
    · simp only [hw, decide_false, if_false, Bool.false_eq_true]
      rfl

/-- Where nothing is set, nothing changes. -/
theorem at?_assignAll_of_ne {writes : List (Nat × (Text × Text))} (h : ∀ w ∈ writes, w.1 ≠ p) :
    (s.assignAll writes).at? p = s.at? p := by
  have hnone : writes.filter (·.1 = p) = [] :=
    List.filter_eq_nil_iff.mpr fun w hw => by simpa using h w hw
  rw [at?_assignAll, hnone]
  exact Option.map_id'

/-- Headers that are set in one place are laid over the mapping in it. -/
theorem at?_assignAll_map (s : Store) (p : Nat) (own : List (Text × Text)) :
    (s.assignAll (own.map (p, ·))).at? p = (s.at? p).map (·.overlay own) := by
  -- all of them are made in this place
  have hall : (own.map (p, ·)).filter (·.1 = p) = own.map (p, ·) :=
    List.filter_eq_self.mpr fun w hw => by
      obtain ⟨e, -, rfl⟩ := List.mem_map.mp hw
      exact decide_eq_true rfl
  have hsnd : (own.map (p, ·)).map Prod.snd = own := by
    rw [List.map_map]
    exact List.map_id _
  rw [at?_assignAll, hall, hsnd]

end Store

end Stomp
