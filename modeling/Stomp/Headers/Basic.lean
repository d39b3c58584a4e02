import Stomp.Text.Basic

/-!
# Headers

The headers of a frame are a mapping from names to values that remembers the
order in which the names first came. No name stands in it twice; this is a
field of the type, so every operation keeps it. There are two ways to add:

* `set` lets the **last** value win and leaves the name where it stands;
* `insertIfNew` lets the **first** value win.
-/

namespace Stomp

/-- An ordered mapping from header names to header values. -/
structure Headers where
  entries : List (Text × Text) := []
  nodup : (entries.map Prod.fst).Nodup := by simp
deriving DecidableEq

namespace Headers

instance : Repr Headers := ⟨fun h => reprPrec h.entries⟩

/-- No headers. -/
def empty : Headers := {}

instance : Inhabited Headers := ⟨empty⟩

/-- The names in order. -/
def names (h : Headers) : List Text := h.entries.map Prod.fst

/-- The number of headers. -/
def size (h : Headers) : Nat := h.entries.length

/-- The value of a name. -/
def get? (h : Headers) (name : Text) : Option Text := h.entries.lookup name

/-- The entries with `name` bound to `value`: in place if the name occurs, else
at the end. -/
def setEntry (name value : Text) : List (Text × Text) → List (Text × Text)
  | [] => [(name, value)]
  | (n, v) :: rest => if n = name then (n, value) :: rest else (n, v) :: setEntry name value rest

theorem map_fst_setEntry (name value : Text) (entries : List (Text × Text)) :
    (setEntry name value entries).map Prod.fst =
      if name ∈ entries.map Prod.fst then entries.map Prod.fst
      else entries.map Prod.fst ++ [name] := by
  induction entries with
  | nil => simp [setEntry]
  | cons e rest ih =>
    by_cases h : e.1 = name
    · simp [setEntry, h]
    · simp only [setEntry, h, if_false, List.map_cons, ih]
      by_cases hm : name ∈ rest.map Prod.fst
      · simp [hm]
      · simp [hm, Ne.symm h]

/-- Binds `name` to `value`, in place if the name occurs already. -/
def set (h : Headers) (name value : Text) : Headers where
  entries := setEntry name value h.entries
  nodup := by
    rw [map_fst_setEntry]
    split
    · exact h.nodup
    · next hm => exact List.nodup_append.mpr ⟨h.nodup, by simp, by
        intro a ha b hb
        obtain rfl := List.mem_singleton.mp hb
        exact fun hab => hm (hab ▸ ha)⟩

/-- Binds `name` to `value` at the end, unless the name occurs already. -/
def insertIfNew (h : Headers) (name value : Text) : Headers :=
  if hm : name ∈ h.entries.map Prod.fst then h
  else
    { entries := h.entries ++ [(name, value)]
      nodup := by
        rw [List.map_append]
        exact List.nodup_append.mpr ⟨h.nodup, by simp, by
          intro a ha b hb
          obtain rfl := List.mem_singleton.mp hb
          exact fun hab => hm (hab ▸ ha)⟩ }

/-- Binds `name` to the value if there is one. -/
def setSome (h : Headers) (name : Text) : Option Text → Headers
  | none => h
  | some value => h.set name value

/-- The mapping that a list of pairs builds up, the last value of a name winning. -/
def ofList (pairs : List (Text × Text)) : Headers :=
  pairs.foldl (fun h p => h.set p.1 p.2) empty

/-! ### What the operations do -/

@[ext] theorem ext {h k : Headers} (eq : h.entries = k.entries) : h = k := by
  cases h; cases k; cases eq; rfl

@[simp] theorem entries_empty : empty.entries = [] := rfl

@[simp] theorem get?_empty (name : Text) : empty.get? name = none := rfl

theorem names_set (h : Headers) (name value : Text) :
    (h.set name value).names = if name ∈ h.names then h.names else h.names ++ [name] :=
  map_fst_setEntry name value h.entries

theorem entries_insertIfNew (h : Headers) (name value : Text) :
    (h.insertIfNew name value).entries =
      if name ∈ h.names then h.entries else h.entries ++ [(name, value)] := by
  unfold insertIfNew names
  split <;> simp [*]

theorem get?_set (h : Headers) (name value other : Text) :
    (h.set name value).get? other = if other = name then some value else h.get? other := by
  have key : ∀ entries : List (Text × Text), (setEntry name value entries).lookup other =
      if other = name then some value else entries.lookup other := by
    intro entries
    induction entries with
    | nil => simp [setEntry]
    | cons e rest ih =>
      obtain ⟨n, v⟩ := e
      by_cases hn : n = name
      · by_cases ho : other = name
        · simp [setEntry, hn, ho]
        · have hb : (other == name) = false := by simpa using ho
          simp [setEntry, List.lookup_cons, hn, ho, hb]
      · by_cases ho : other = n
        · have : ¬ other = name := fun hname => hn (ho ▸ hname)
          simp [setEntry, hn, ho]
        · have hb : (other == n) = false := by simpa using ho
          simp only [setEntry, hn, if_false, List.lookup_cons, hb, ih]
  exact key h.entries

end Headers

end Stomp
