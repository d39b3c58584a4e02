import Stomp.Error

/-!
# Readers and byte sources

A **reader** takes bytes one at a time until it has a result. It says at every
point how many bytes it is sure to need (`demand`), so that a source may hand
them over in blocks, and which error it is for the bytes to end there (`ended`).

A **byte source** hands over at most as many bytes as are asked for, none if it
has ended, and may fail. `Reader.run` couples the two. It ends because a source
has finitely many bytes pending and hands over one at least in every round.

`Reader.scan` is the same on bytes that are all at hand, with no source between.
The main statement is that it does not matter for the reader in which blocks a
source hands them over (`Reader.run_of_serves`, and for memory
`Reader.run_memory`): a reader is not done before it has all that it asked for,
so nothing of a block is lost.
-/

namespace Stomp

/-- What a reader makes of one byte: it goes on from a new state, or is done. -/
inductive Step (σ α : Type)
  | more (state : σ)
  | done (result : Except Error α)

/-- Goes on from a state, or stops with an error. -/
def Step.ofExcept {σ α : Type} : Except Error σ → Step σ α
  | .ok state => .more state
  | .error e => .done (.error e)

/-- A reader of values in `α` with states in `σ`. -/
structure Reader (σ α : Type) where
  /-- The number of bytes that are asked for in a state. -/
  demand : σ → Nat
  /-- There is no state in which nothing is asked for. -/
  demand_pos : ∀ state, 0 < demand state
  feed : σ → UInt8 → Step σ α
  /-- As long as several bytes are asked for, the reader goes on after the next
  of them and asks for one less. -/
  demand_feed : ∀ state b, 1 < demand state →
    ∃ next, feed state b = .more next ∧ demand next + 1 = demand state
  /-- The error of a source that ends in a state. -/
  ended : σ → Error

/-- How far a reader comes with the bytes at hand. -/
inductive Scan (σ α : Type)
  /-- The bytes are used up. -/
  | more (state : σ)
  /-- There is a result, and bytes may be left. -/
  | done (result : Except Error α) (rest : Bytes)

namespace Reader

variable {σ α : Type}

/-- Feeds bytes to the reader until it is done or they are used up. -/
def scan (r : Reader σ α) (state : σ) : Bytes → Scan σ α
  | [] => .more state
  | b :: rest =>
    match r.feed state b with
    | .more next => r.scan next rest
    | .done result => .done result rest

@[simp] theorem scan_nil (r : Reader σ α) (state : σ) : r.scan state [] = .more state := rfl

/-- Bytes that leave the reader waiting can be fed ahead of the others. -/
theorem scan_append (r : Reader σ α) {state next : σ} {front : Bytes}
    (h : r.scan state front = .more next) (rest : Bytes) :
    r.scan state (front ++ rest) = r.scan next rest := by
  induction front generalizing state with
  | nil => cases h; rfl
  | cons b front ih =>
    simp only [scan, List.cons_append] at h ⊢
    cases hb : r.feed state b with
    | more s => rw [hb] at h; exact ih h
    | done result => rw [hb] at h; simp at h

/-- A result that the front of some bytes gives is the result of all of them,
and what follows the front is left over. -/
theorem scan_append_done (r : Reader σ α) {state : σ} {front left : Bytes}
    {result : Except Error α} (h : r.scan state front = .done result left) (rest : Bytes) :
    r.scan state (front ++ rest) = .done result (left ++ rest) := by
  induction front generalizing state with
  | nil => simp at h
  | cons b front ih =>
    simp only [scan, List.cons_append] at h ⊢
    cases hb : r.feed state b with
    | more s => rw [hb] at h; exact ih h
    | done result' =>
      rw [hb] at h
      simp only [Scan.done.injEq] at h
      obtain ⟨rfl, rfl⟩ := h
      rfl

/-- A result is given by the bytes that are not left over. -/
theorem exists_front_of_scan_done (r : Reader σ α) {state : σ} {bytes left : Bytes}
    {result : Except Error α} (h : r.scan state bytes = .done result left) :
    ∃ front, bytes = front ++ left ∧ r.scan state front = .done result [] := by
  induction bytes generalizing state with
  | nil => simp at h
  | cons b bytes ih =>
    simp only [scan] at h
    cases hb : r.feed state b with
    | more s =>
      rw [hb] at h
      obtain ⟨front, rfl, hfront⟩ := ih h
      exact ⟨b :: front, rfl, by simp only [scan, hb, hfront]⟩
    | done result' =>
      rw [hb] at h
      simp only [Scan.done.injEq] at h
      obtain ⟨rfl, rfl⟩ := h
      exact ⟨[b], rfl, by simp only [scan, hb]⟩

/-- A part of the bytes that give a result leaves the reader waiting for the others. -/
theorem exists_more_of_scan_done (r : Reader σ α) {state : σ} {early later : Bytes}
    {result : Except Error α} (h : r.scan state (early ++ later) = .done result [])
    (hlater : later ≠ []) : ∃ next, r.scan state early = .more next := by
  cases hearly : r.scan state early with
  | more next => exact ⟨next, rfl⟩
  | done result' left =>
    -- then what comes later would be left over
    rw [r.scan_append_done hearly later, Scan.done.injEq] at h
    exact absurd (List.append_eq_nil_iff.mp h.2).2 hlater

/-- A reader is not done before it has all that it asked for: nothing is left
over of a block that is no longer than the demand. -/
theorem eq_nil_of_scan_done (r : Reader σ α) {state : σ} {block left : Bytes}
    {result : Except Error α} (hlength : block.length ≤ r.demand state)
    (h : r.scan state block = .done result left) : left = [] := by
  induction block generalizing state with
  | nil => simp at h
  | cons b block ih =>
    simp only [List.length_cons] at hlength
    by_cases hone : r.demand state ≤ 1
    · -- a block of one byte leaves nothing over
      have : block = [] := List.eq_nil_of_length_eq_zero (by omega)
      subst this
      simp only [scan] at h
      split at h
      · simp at h
      · simp only [Scan.done.injEq] at h
        exact h.2.symm
    · obtain ⟨next, hfeed, hdemand⟩ := r.demand_feed state b (by omega)
      simp only [scan, hfeed] at h
      exact ih (by omega) h

end Reader

/-- A place that bytes come from. -/
class ByteSource (τ : Type) where
  /-- Asks for at most so many bytes; none means that the source has ended. -/
  read : Nat → τ → Except Error Bytes × τ
  /-- How many bytes are still to come. -/
  pending : τ → Nat
  /-- Bytes that were handed over are pending no longer. -/
  pending_read_lt : ∀ (n : Nat) (source : τ) (b : UInt8) (rest : Bytes),
    (read n source).1 = .ok (b :: rest) → pending (read n source).2 < pending source

/-- Reads from a source until the reader is done, the source ends or it fails. -/
def Reader.run {σ α τ : Type} [ByteSource τ] (r : Reader σ α) (state : σ) (source : τ) :
    Except Error α × τ :=
  match h : ByteSource.read (r.demand state) source with
  | (.error e, left) => (.error e, left)
  | (.ok [], left) => (.error (r.ended state), left)
  | (.ok (b :: rest), left) =>
    have fewer : ByteSource.pending left < ByteSource.pending source := by
      have := ByteSource.pending_read_lt (r.demand state) source b rest (by rw [h])
      rwa [h] at this
    match r.scan state (b :: rest) with
    | .done result _ => (result, left)
    | .more next => r.run next left
termination_by ByteSource.pending source

/-- One round of reading. -/
theorem Reader.run_eq {σ α τ : Type} [ByteSource τ] (r : Reader σ α) (state : σ) (source : τ) :
    r.run state source =
      match ByteSource.read (r.demand state) source with
      | (.error e, left) => (.error e, left)
      | (.ok [], left) => (.error (r.ended state), left)
      | (.ok (b :: rest), left) =>
        match r.scan state (b :: rest) with
        | .done result _ => (result, left)
        | .more next => r.run next left := by
  rw [Reader.run]
  split <;> (rename_i h; simp only [h])

/-- **Blocks do not matter.** `serves source bytes` is to say that the source will hand over these
bytes, in whatever blocks. Then a reader that is done with the bytes is done in the same way with
the source, and what it does not need is still to come; and a reader that is not done goes on where
the bytes are used up. -/
theorem Reader.run_of_serves {σ α τ : Type} [ByteSource τ] (r : Reader σ α)
    {serves : τ → Bytes → Prop}
    (hserves : ∀ n source bytes, 0 < n → bytes ≠ [] → serves source bytes →
      ∃ block later left, ByteSource.read n source = (.ok block, left) ∧ block ≠ [] ∧
        block.length ≤ n ∧ bytes = block ++ later ∧ serves left later)
    (state : σ) (source : τ) (bytes : Bytes) (h : serves source bytes) :
    match r.scan state bytes with
    | .done result rest => ∃ left, r.run state source = (result, left) ∧ serves left rest
    | .more next => ∃ left, r.run state source = r.run next left ∧ serves left [] := by
  -- the induction is on the number of bytes, as each round reads some
  induction hlen : bytes.length using Nat.strongRecOn generalizing state source bytes with
  | ind len ih =>
    subst hlen
    by_cases hbytes : bytes = []
    · subst hbytes
      exact ⟨source, rfl, h⟩
    · obtain ⟨block, later, left, hread, hne, hshort, rfl, hleft⟩ :=
        hserves (r.demand state) source bytes (r.demand_pos state) hbytes h
      obtain ⟨b, rest, rfl⟩ := List.exists_cons_of_ne_nil hne
      have hrun := r.run_eq state source
      rw [hread] at hrun
      cases hscan : r.scan state (b :: rest) with
      | done result unused =>
        -- the block was used up, so all that is left is what was not read
        have hunused := r.eq_nil_of_scan_done hshort hscan
        rw [r.scan_append_done hscan later, hunused, List.nil_append]
        simp only [hscan] at hrun
        exact ⟨left, hrun, hleft⟩
      | more next =>
        rw [r.scan_append hscan later]
        simp only [hscan] at hrun
        rw [hrun]
        have hless : later.length < (b :: rest ++ later).length := by
          rw [List.length_append, List.length_cons]
          omega
        exact ih _ hless next left later hleft rfl

/-- A source that holds bytes and hands over some of them in every read is read as the bytes are.
What it is after its end was read is `last`. -/
theorem Reader.run_of_holds {σ α τ : Type} [ByteSource τ] (r : Reader σ α)
    (holding : Bytes → τ) {last : τ}
    (hread : ∀ n bytes, 0 < n → bytes ≠ [] → ∃ m, 0 < m ∧ m ≤ n ∧
      ByteSource.read n (holding bytes) = (.ok (bytes.take m), holding (bytes.drop m)))
    (hlast : ∀ n, ByteSource.read n (holding []) = (.ok [], last))
    (state : σ) (bytes : Bytes) :
    r.run state (holding bytes) =
      match r.scan state bytes with
      | .done result rest => (result, holding rest)
      | .more next => (.error (r.ended next), last) := by
  have hserves : ∀ n source bytes, 0 < n → bytes ≠ [] → source = holding bytes →
      ∃ block later left, ByteSource.read n source = (.ok block, left) ∧ block ≠ [] ∧
        block.length ≤ n ∧ bytes = block ++ later ∧ left = holding later := by
    rintro n source bytes hn hbytes rfl
    obtain ⟨m, hpos, hle, heq⟩ := hread n bytes hn hbytes
    refine ⟨bytes.take m, bytes.drop m, _, heq, ?_, ?_, (List.take_append_drop m bytes).symm, rfl⟩
    · intro hnil
      rcases List.take_eq_nil_iff.mp hnil with hzero | hempty
      · exact Nat.ne_of_gt hpos hzero
      · exact hbytes hempty
    · exact Nat.le_trans (List.length_take_le m bytes) hle
  have hrun := r.run_of_serves hserves state (holding bytes) bytes rfl
  cases hscan : r.scan state bytes with
  | done result rest =>
    rw [hscan] at hrun
    obtain ⟨left, hleft, rfl⟩ := hrun
    exact hleft
  | more next =>
    rw [hscan] at hrun
    obtain ⟨left, hleft, rfl⟩ := hrun
    -- the bytes are used up, so the next read is the last
    rw [hleft, r.run_eq, hlast]

/-! ### Bytes in memory -/

/-- Bytes at hand, of which one read hands over at most `cap`. -/
structure Memory where
  unread : Bytes
  cap : Option Nat := none
deriving DecidableEq, Repr

namespace Memory

/-- The number of bytes that a read for `n` may take. -/
def allowed (m : Memory) (n : Nat) : Nat :=
  match m.cap with
  | none => n
  | some cap => min n cap

instance : ByteSource Memory where
  read n m := (.ok (m.unread.take (m.allowed n)), { m with unread := m.unread.drop (m.allowed n) })
  pending m := m.unread.length
  pending_read_lt n m b rest h := by
    simp only [Except.ok.injEq] at h
    have := congrArg List.length h
    simp only [List.length_take, List.length_cons] at this
    simp only [List.length_drop]
    omega

/-- What one read takes and what it leaves. -/
theorem read_eq (n : Nat) (m : Memory) :
    ByteSource.read n m =
      (.ok (m.unread.take (m.allowed n)), { m with unread := m.unread.drop (m.allowed n) }) := rfl

/-- A memory that hands over anything at all hands over at most what it is asked
for, and at least one byte. -/
theorem allowed_bounds {m : Memory} (hcap : m.cap ≠ some 0) {n : Nat} (hn : 0 < n) :
    0 < m.allowed n ∧ m.allowed n ≤ n := by
  unfold allowed
  split
  · exact ⟨hn, Nat.le_refl n⟩
  · rename_i cap heq
    have : cap ≠ 0 := fun hzero => hcap (hzero ▸ heq)
    omega

end Memory

/-- **Memory is transparent.** However few bytes one read hands over, a reader
comes as far as it does with all the bytes at hand, and what it does not need
stays unread. -/
theorem Reader.run_memory {σ α : Type} (r : Reader σ α) (state : σ) (m : Memory)
    (hcap : m.cap ≠ some 0) :
    r.run state m =
      match r.scan state m.unread with
      | .done result rest => (result, { m with unread := rest })
      | .more next => (.error (r.ended next), { m with unread := [] }) := by
  refine r.run_of_holds (fun bytes => { m with unread := bytes }) ?_ ?_ state m.unread
  · intro n bytes hn _
    obtain ⟨hpos, hle⟩ := Memory.allowed_bounds (m := { m with unread := bytes }) hcap hn
    exact ⟨_, hpos, hle, Memory.read_eq n _⟩
  · intro n
    rw [Memory.read_eq, List.take_nil, List.drop_nil]

end Stomp
