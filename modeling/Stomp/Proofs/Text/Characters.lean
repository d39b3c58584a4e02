import Mathlib.Data.List.Forall2
import Mathlib.Order.Bounds.Basic
import Stomp.Proofs.Text.Octets

/-!
# Characters among bytes

`rows` is the table of well-formed byte sequences, a range for each byte of a character. Nothing is
read with it: it says, apart from the two ways of reading, what a character among bytes is.

* `isCharacter_iff` — the table has the bytes of all code points but the surrogates, and no others.
* `Malformed.Found.isGreatest` — where strict reading fails, it has read the longest front that is a
  whole number of characters, and the position is the length of that front.
* `Malformed.Found.decodeLossy_eq` — the other way of reading puts one sign for the stretch at which
  strict reading fails, and goes on behind it.
* `decodeLossy_append_octets_append` — characters are read as themselves, whatever stands before and
  behind them.

All of it rests on `exists_next_scalar_iff`: `next` finds a character exactly where the table has
one. The last statement needs besides that a stretch which is no character ends before any byte that
can begin one (`continued_append_cons`), so that it takes nothing of a character with it.
-/

namespace Stomp.Utf8

/-! ### The table -/

/-- A range of bytes, both ends included. -/
structure ByteRange where
  low : UInt8
  high : UInt8
deriving DecidableEq, Repr

instance : Membership UInt8 ByteRange := ⟨fun range b => range.low ≤ b ∧ b ≤ range.high⟩

instance (b : UInt8) (range : ByteRange) : Decidable (b ∈ range) :=
  inferInstanceAs (Decidable (range.low ≤ b ∧ b ≤ range.high))

/-- The bytes that go on with a character. -/
def ByteRange.tail : ByteRange := ⟨0x80, 0xBF⟩

open ByteRange (tail)

/-- **The bytes of a character**, a row for each kind of first byte. A second byte has a narrower
range where a smaller one would be overlong (after `E0` and `F0`), or a greater one a surrogate
(after `ED`) or above the last code point (after `F4`). -/
def rows : List (List ByteRange) := [
  [⟨0x00, 0x7F⟩],
  [⟨0xC2, 0xDF⟩, tail],
  [⟨0xE0, 0xE0⟩, ⟨0xA0, 0xBF⟩, tail],
  [⟨0xE1, 0xEC⟩, tail, tail],
  [⟨0xED, 0xED⟩, ⟨0x80, 0x9F⟩, tail],
  [⟨0xEE, 0xEF⟩, tail, tail],
  [⟨0xF0, 0xF0⟩, ⟨0x90, 0xBF⟩, tail, tail],
  [⟨0xF1, 0xF3⟩, tail, tail, tail],
  [⟨0xF4, 0xF4⟩, ⟨0x80, 0x8F⟩, tail, tail]]

/-- The bytes are those of one character. -/
def IsCharacter (bytes : Bytes) : Prop := ∃ row ∈ rows, List.Forall₂ (· ∈ ·) bytes row

instance (bytes : Bytes) : Decidable (IsCharacter bytes) :=
  inferInstanceAs (Decidable (∃ row ∈ rows, List.Forall₂ (· ∈ ·) bytes row))

/-- The bytes are those of **a whole number of characters**. -/
def IsWhole (bytes : Bytes) : Prop :=
  ∃ characters : List Bytes, (∀ c ∈ characters, IsCharacter c) ∧ bytes = characters.flatten

/-- The lengths of the fronts of the bytes that are a whole number of characters. -/
def wholeFronts (bytes : Bytes) : Set Nat := {n | n ≤ bytes.length ∧ IsWhole (bytes.take n)}

/-! ### What is announced -/

/-- The ranges of the bytes that are still to come. -/
def announced (low high : UInt8) : Nat → List ByteRange
  | 0 => []
  | more + 1 => ⟨low, high⟩ :: announced 0x80 0xBF more

/-- What follows the first range of each row that a byte begins. -/
def rowsAfter (b : UInt8) : List (List ByteRange) :=
  rows.filterMap fun row =>
    match row with
    | [] => none
    | first :: others => if b ∈ first then some others else none

variable {b : UInt8} {bytes rest left : Bytes} {t : Text}

theorem mem_rowsAfter_iff {ranges : List ByteRange} :
    ranges ∈ rowsAfter b ↔ ∃ first, b ∈ first ∧ first :: ranges ∈ rows := by
  rw [rowsAfter, List.mem_filterMap]
  constructor
  · rintro ⟨row, hrow, hranges⟩
    cases row with
    | nil => cases hranges
    | cons first others =>
      simp only [Option.ite_none_right_eq_some, Option.some.injEq] at hranges
      obtain ⟨hb, rfl⟩ := hranges
      exact ⟨first, hb, hrow⟩
  · rintro ⟨first, hb, hrow⟩
    exact ⟨_, hrow, if_pos hb⟩

/-- What holds of the numbers below 256 holds of each byte. -/
theorem forall_byte {p : UInt8 → Prop} (h : ∀ n : Fin 256, p (.ofNat n)) (b : UInt8) : p b := by
  have hb := h ⟨b.toNat, b.toNat_lt⟩
  rwa [UInt8.ofNat_toNat] at hb

/-- Each byte begins the row that it announces, or none. -/
theorem rowsAfter_eq : ∀ b : UInt8,
    rowsAfter b = ((lead? b).map fun l => announced l.low l.high l.more).toList :=
  forall_byte (by decide +kernel)

theorem isCharacter_cons_iff {others : Bytes} :
    IsCharacter (b :: others) ↔
      ∃ l, lead? b = some l ∧ List.Forall₂ (· ∈ ·) others (announced l.low l.high l.more) := by
  -- the rows that a byte begins are looked up once for both directions
  have hrow : ∀ ranges, (∃ first, b ∈ first ∧ first :: ranges ∈ rows) ↔
      ∃ l, lead? b = some l ∧ announced l.low l.high l.more = ranges := by
    intro ranges
    rw [← mem_rowsAfter_iff, rowsAfter_eq, Option.mem_toList, Option.map_eq_some_iff]
  constructor
  · rintro ⟨row, hmem, hbytes⟩
    cases hbytes with
    | cons hb hothers =>
      obtain ⟨l, hl, rfl⟩ := (hrow _).mp ⟨_, hb, hmem⟩
      exact ⟨l, hl, hothers⟩
  · rintro ⟨l, hl, hothers⟩
    obtain ⟨first, hb, hmem⟩ := (hrow _).mpr ⟨l, hl, rfl⟩
    exact ⟨_, hmem, .cons hb hothers⟩

/-- A character goes on as long as each byte lies in its range. -/
theorem exists_continued_scalar_iff {seen : Bytes} {bits : Nat} {low high : UInt8} {more : Nat} :
    (∃ c, continued seen bits low high more rest = (.scalar c, left)) ↔
      ∃ others, List.Forall₂ (· ∈ ·) others (announced low high more) ∧ rest = others ++ left := by
  fun_induction continued seen bits low high more rest with
  | case1 seen bits low high rest =>
    simp only [announced, Prod.mk.injEq, Piece.scalar.injEq, exists_and_right, exists_eq', true_and]
    constructor
    · rintro rfl
      exact ⟨[], .nil, rfl⟩
    · rintro ⟨others, hothers, rfl⟩
      cases hothers
      rfl
  -- the bytes end within a character
  | case2 =>
    constructor
    · rintro ⟨c, h⟩
      cases h
    · rintro ⟨others, hothers, hrest⟩
      cases hothers
      cases hrest
  -- the byte lies in its range, and the rest of the character follows it
  | case3 seen bits low high more b rest hb ih =>
    rw [ih]
    constructor
    · rintro ⟨others, hothers, rfl⟩
      exact ⟨b :: others, .cons hb hothers, rfl⟩
    · rintro ⟨others, hothers, hrest⟩
      cases hothers with
      | cons _ hothers =>
        obtain ⟨-, rfl⟩ := List.cons.inj hrest
        exact ⟨_, hothers, rfl⟩
  -- the byte lies outside of its range, so no row fits
  | case4 seen bits low high more b rest hb =>
    constructor
    · rintro ⟨c, h⟩
      cases h
    · rintro ⟨others, hothers, hrest⟩
      cases hothers with
      | cons hmem _ =>
        obtain ⟨rfl, -⟩ := List.cons.inj hrest
        exact absurd hmem hb

/-- **`next` finds a character** exactly where the table has one. -/
theorem exists_next_scalar_iff :
    (∃ c, next b rest = (.scalar c, left)) ↔
      ∃ others, IsCharacter (b :: others) ∧ rest = others ++ left := by
  simp only [isCharacter_cons_iff, next]
  cases lead? b with
  | none => simp
  | some l => simp [exists_continued_scalar_iff]

/-- Where the bytes of a code point stand in front, `next` finds it. -/
theorem next_of_eq_encodePoint_append {c : CodePoint} (hc : ¬ c.IsSurrogate)
    (h : b :: rest = encodePoint c ++ left) : next b rest = (.scalar c, left) := by
  have hpieces : (next b rest).1 :: pieces (next b rest).2 = .scalar c :: pieces left := by
    rw [← pieces_cons, h, pieces_encodePoint hc]
  have hfirst : (next b rest).1 = .scalar c := (List.cons.inj hpieces).1
  -- it takes the bytes of the code point away, so the same is left
  obtain ⟨-, hbytes⟩ := append_of_next_scalar (Prod.ext hfirst rfl : next b rest = (_, _))
  rw [hbytes] at h
  exact Prod.ext hfirst (List.append_cancel_left h)

/-- **The table is right**: it has the bytes of the code points that are no surrogates. -/
theorem isCharacter_iff : IsCharacter bytes ↔ ∃ c, ¬ c.IsSurrogate ∧ bytes = encodePoint c := by
  cases bytes with
  | nil =>
    constructor
    · rintro ⟨row, hmem, hbytes⟩
      cases hbytes
      exact absurd hmem (by decide)
    · rintro ⟨c, -, h⟩
      exact absurd h.symm (encodePoint_ne_nil c)
  | cons b others =>
    have hnext : IsCharacter (b :: others) ↔ ∃ c, next b others = (.scalar c, []) := by
      rw [exists_next_scalar_iff]
      simp
    rw [hnext]
    apply exists_congr
    intro c
    constructor
    · intro h
      simpa using append_of_next_scalar h
    · rintro ⟨hc, h⟩
      exact next_of_eq_encodePoint_append hc (by rw [h, List.append_nil])

/-- The last code point, and then an overlong form, a surrogate and what would come after the last
code point. -/
example : IsCharacter [0xF4, 0x8F, 0xBF, 0xBF] ∧ ¬ IsCharacter [0xC0, 0x80] ∧
    ¬ IsCharacter [0xED, 0xA0, 0x80] ∧ ¬ IsCharacter [0xF4, 0x90, 0x80, 0x80] := by decide

/-- A whole number of characters is the octets of a text without surrogates. -/
theorem isWhole_iff :
    IsWhole bytes ↔ ∃ t : Text, (∀ c ∈ t, ¬ c.IsSurrogate) ∧ bytes = octets t := by
  constructor
  · rintro ⟨characters, hall, rfl⟩
    -- character by character, each being the octets of one code point
    induction characters with
    | nil => exact ⟨[], List.forall_mem_nil _, rfl⟩
    | cons character characters ih =>
      obtain ⟨hcharacter, hothers⟩ := List.forall_mem_cons.mp hall
      obtain ⟨c, hc, rfl⟩ := isCharacter_iff.mp hcharacter
      obtain ⟨t, ht, hoctets⟩ := ih hothers
      refine ⟨c :: t, List.forall_mem_cons.mpr ⟨hc, ht⟩, ?_⟩
      rw [List.flatten_cons, hoctets, octets_cons]
  · rintro ⟨t, ht, rfl⟩
    refine ⟨t.map encodePoint, ?_, List.flatMap_def ..⟩
    intro character hmem
    obtain ⟨c, hc, rfl⟩ := List.mem_map.mp hmem
    exact isCharacter_iff.mpr ⟨c, ht c hc, rfl⟩

/-! ### The first stretch that is no character -/

/-- The stretch and what is left make up the bytes. -/
theorem append_of_continued_malformed {seen stretch : Bytes} {bits : Nat} {low high : UInt8}
    {more : Nat} {flaw : Flaw}
    (h : continued seen bits low high more rest = (.malformed stretch flaw, left)) :
    seen <+: stretch ∧ seen ++ rest = stretch ++ left := by
  fun_induction continued seen bits low high more rest with
  | case1 => cases h
  | case2 =>
    cases h
    exact ⟨List.prefix_rfl, rfl⟩
  -- the byte is still one of the stretch
  | case3 seen bits low high more b rest _ ih =>
    obtain ⟨hseen, hbytes⟩ := ih h
    refine ⟨(List.prefix_append ..).trans hseen, ?_⟩
    rw [← hbytes, List.append_assoc, List.singleton_append]
  | case4 =>
    cases h
    exact ⟨List.prefix_rfl, rfl⟩

theorem append_of_next_malformed {stretch : Bytes} {flaw : Flaw}
    (h : next b rest = (.malformed stretch flaw, left)) :
    stretch ≠ [] ∧ b :: rest = stretch ++ left := by
  unfold next at h
  split at h
  · cases h
    exact ⟨List.cons_ne_nil _ _, rfl⟩
  · obtain ⟨hseen, hbytes⟩ := append_of_continued_malformed h
    refine ⟨?_, hbytes⟩
    rintro rfl
    exact List.cons_ne_nil _ _ (List.prefix_nil.mp hseen)

/-- **A stretch that is no character**, found in the bytes between a text and a rest. -/
structure Malformed.Found (m : Malformed) (bytes : Bytes) (t : Text) (rest : Bytes) : Prop where
  surrogateFree : ∀ c ∈ t, ¬ c.IsSurrogate
  position_eq : m.position = (octets t).length
  ne_nil : m.bytes ≠ []
  bytes_eq : bytes = octets t ++ (m.bytes ++ rest)
  pieces_eq : pieces bytes = t.map .scalar ++ .malformed m.bytes m.flaw :: pieces rest

/-- Where collecting fails, it has collected a text before. -/
theorem exists_of_collect_eq_error {ps : List Piece} {position : Nat} {m : Malformed}
    (h : collect position ps = .error m) :
    ∃ (t : Text) (others : List Piece), m.position = position + (octets t).length ∧
      ps = t.map .scalar ++ .malformed m.bytes m.flaw :: others := by
  induction ps generalizing position with
  | nil => cases h
  | cons p ps ih =>
    cases p with
    | malformed stretch flaw =>
      cases h
      exact ⟨[], ps, rfl, rfl⟩
    | scalar c =>
      simp only [collect] at h
      -- the position counts the octets of the code points in front
      cases hrest : collect (position + (encodePoint c).length) ps with
      | ok u =>
        rw [hrest] at h
        cases h
      | error m' =>
        rw [hrest] at h
        cases h
        obtain ⟨t, others, hposition, rfl⟩ := ih hrest
        refine ⟨c :: t, others, ?_, rfl⟩
        rw [hposition, octets_cons, List.length_append, Nat.add_assoc]

/-- The first piece is what `next` finds, and the others are those of what it leaves. -/
theorem exists_of_pieces_eq_cons {piece : Piece} {others : List Piece}
    (h : pieces bytes = piece :: others) :
    ∃ b rest left, bytes = b :: rest ∧ next b rest = (piece, left) ∧ others = pieces left := by
  cases bytes with
  | nil => cases (pieces_nil ▸ h)
  | cons b rest =>
    rw [pieces_cons] at h
    obtain ⟨hfirst, hothers⟩ := List.cons.inj h
    exact ⟨b, rest, (next b rest).2, rfl, Prod.ext hfirst rfl, hothers.symm⟩

/-- The pieces in front of a stretch that is no character are the octets of their text. -/
theorem exists_of_pieces_eq_append {stretch : Bytes} {flaw : Flaw} {others : List Piece}
    (h : pieces bytes = t.map .scalar ++ .malformed stretch flaw :: others) :
    ∃ rest, (∀ c ∈ t, ¬ c.IsSurrogate) ∧ stretch ≠ [] ∧ bytes = octets t ++ (stretch ++ rest) ∧
      others = pieces rest := by
  induction t generalizing bytes with
  | nil =>
    obtain ⟨b, rest, left, rfl, hnext, rfl⟩ := exists_of_pieces_eq_cons h
    obtain ⟨hne, hbytes⟩ := append_of_next_malformed hnext
    exact ⟨left, List.forall_mem_nil _, hne, hbytes, rfl⟩
  | cons c t ih =>
    obtain ⟨b, rest, left, rfl, hnext, hothers⟩ := exists_of_pieces_eq_cons h
    obtain ⟨hc, hbytes⟩ := append_of_next_scalar hnext
    obtain ⟨rest', ht, hne, rfl, hpieces⟩ := ih hothers.symm
    refine ⟨rest', List.forall_mem_cons.mpr ⟨hc, ht⟩, hne, ?_, hpieces⟩
    rw [hbytes, octets_cons, List.append_assoc]

/-- Strict reading fails at the stretch that it has found. -/
theorem exists_found_of_decode {m : Malformed} (h : decode bytes = .error m) :
    ∃ t rest, m.Found bytes t rest := by
  obtain ⟨t, others, hposition, hpieces⟩ := exists_of_collect_eq_error h
  obtain ⟨rest, ht, hne, hbytes, rfl⟩ := exists_of_pieces_eq_append hpieces
  exact ⟨t, rest, ht, by rw [hposition, Nat.zero_add], hne, hbytes, hpieces⟩

/-- Characters before a piece that is none are among all those before it. -/
theorem prefix_of_map_scalar_append {u : Text} {stretch : Bytes} {flaw : Flaw}
    {others following : List Piece}
    (h : t.map .scalar ++ .malformed stretch flaw :: others = u.map .scalar ++ following) :
    u <+: t := by
  induction u generalizing t with
  | nil => exact List.nil_prefix
  | cons c u ih =>
    cases t with
    | nil => cases (List.cons.inj h).1
    | cons d t =>
      obtain ⟨hfirst, hothers⟩ := List.cons.inj h
      obtain rfl := Piece.scalar.inj hfirst
      exact List.cons_prefix_cons.mpr ⟨rfl, ih hothers⟩

/-- **Where strict reading fails**, the position is the length of the longest front that is a whole
number of characters. -/
theorem Malformed.Found.isGreatest {m : Malformed} (h : m.Found bytes t rest) :
    IsGreatest (wholeFronts bytes) m.position := by
  constructor
  · -- the text in front is such a front
    rw [h.position_eq, h.bytes_eq]
    refine ⟨?_, ?_⟩
    · rw [List.length_append]
      exact Nat.le_add_right _ _
    · rw [List.take_left]
      exact isWhole_iff.mpr ⟨t, h.surrogateFree, rfl⟩
  · rintro n ⟨hn, hwhole⟩
    obtain ⟨u, hu, htake⟩ := isWhole_iff.mp hwhole
    -- the pieces of any such front are the first of all pieces
    have hpieces : pieces bytes = u.map .scalar ++ pieces (bytes.drop n) := by
      rw [← pieces_flatMap_encodePoint hu]
      apply congrArg pieces
      calc bytes = bytes.take n ++ bytes.drop n := (List.take_append_drop n bytes).symm
        _ = octets u ++ bytes.drop n := by rw [htake]
    obtain ⟨w, rfl⟩ := prefix_of_map_scalar_append (h.pieces_eq.symm.trans hpieces)
    calc n = (octets u).length := by rw [← htake, List.length_take_of_le hn]
      _ ≤ (octets (u ++ w)).length := by
        rw [octets_append, List.length_append]
        exact Nat.le_add_right _ _
      _ = m.position := h.position_eq.symm

/-! ### Reading on -/

/-- A character is read as itself. -/
theorem map_orReplacement_map_scalar (t : Text) :
    (t.map Piece.scalar).map Piece.orReplacement = t := by
  rw [List.map_map]
  exact List.map_id t

/-- Characters in front are read as themselves. -/
theorem decodeLossy_octets_append (ht : ∀ c ∈ t, ¬ c.IsSurrogate) (rest : Bytes) :
    decodeLossy (octets t ++ rest) = t ++ decodeLossy rest := by
  unfold decodeLossy
  rw [octets, pieces_flatMap_encodePoint ht, List.map_append, map_orReplacement_map_scalar]

/-- Where strict reading succeeds, the other way gives the same text. -/
theorem decodeLossy_of_decode (h : decode bytes = .ok t) : decodeLossy bytes = t := by
  obtain ⟨ht, rfl⟩ := decode_eq_ok_iff.mp h
  calc decodeLossy (octets t) = decodeLossy (octets t ++ []) := by rw [List.append_nil]
    _ = t ++ decodeLossy [] := decodeLossy_octets_append ht []
    _ = t := by simp [decodeLossy]

/-- **One sign for each stretch**: U+FFFD stands for the stretch, and reading goes on behind it. -/
theorem Malformed.Found.decodeLossy_eq {m : Malformed} (h : m.Found bytes t rest) :
    decodeLossy bytes = t ++ CodePoint.ofNat 0xFFFD :: decodeLossy rest := by
  unfold decodeLossy
  rw [h.pieces_eq, List.map_append, map_orReplacement_map_scalar]
  rfl

/-- A byte that goes on with no character ends the stretch before it, and the same stands for the
stretch as if nothing followed it. -/
theorem continued_append_cons {seen : Bytes} {bits : Nat} {low high : UInt8} {more : Nat}
    (hlow : 0x80 ≤ low) (hhigh : high ≤ 0xBF) (hb : b ∉ tail) :
    (continued seen bits low high more (bytes ++ b :: rest)).1.orReplacement =
        (continued seen bits low high more bytes).1.orReplacement ∧
      (continued seen bits low high more (bytes ++ b :: rest)).2 =
        (continued seen bits low high more bytes).2 ++ b :: rest := by
  fun_induction continued seen bits low high more bytes with
  | case1 => exact ⟨by rw [continued], by rw [continued]⟩
  | case2 seen bits low high more =>
    -- the bytes end here, and then the byte is refused
    have hout : ¬ (low ≤ b ∧ b ≤ high) := fun h =>
      hb ⟨UInt8.le_trans hlow h.1, UInt8.le_trans h.2 hhigh⟩
    rw [List.nil_append, continued, if_neg hout]
    exact ⟨rfl, rfl⟩
  | case3 seen bits low high more a bytes ha ih =>
    rw [List.cons_append, continued, if_pos ha]
    exact ih (by decide) (by decide)
  | case4 seen bits low high more a bytes ha =>
    rw [List.cons_append, continued, if_neg ha]
    exact ⟨rfl, rfl⟩

/-- A second byte lies among those that go on with a character. -/
theorem lead?_bounds : ∀ b : UInt8, ∀ l ∈ lead? b, 0x80 ≤ l.low ∧ l.high ≤ 0xBF :=
  forall_byte (by decide +kernel)

theorem next_append_cons (hb : b ∉ tail) (a : UInt8) (bytes rest : Bytes) :
    (next a (bytes ++ b :: rest)).1.orReplacement = (next a bytes).1.orReplacement ∧
      (next a (bytes ++ b :: rest)).2 = (next a bytes).2 ++ b :: rest := by
  unfold next
  cases hlead : lead? a with
  | none => exact ⟨rfl, rfl⟩
  | some l =>
    obtain ⟨hlow, hhigh⟩ := lead?_bounds a l hlead
    exact continued_append_cons hlow hhigh hb

/-- **Reading falls into step again** at each byte that does not go on with a character. -/
theorem decodeLossy_append_cons (hb : b ∉ tail) :
    decodeLossy (bytes ++ b :: rest) = decodeLossy bytes ++ decodeLossy (b :: rest) := by
  unfold decodeLossy
  fun_induction pieces bytes with
  | case1 => rfl
  | case2 a bytes ih =>
    -- the first piece is the same with the byte behind, and leaves as much in front of it
    obtain ⟨hpiece, hleft⟩ := next_append_cons hb a bytes rest
    rw [List.cons_append, pieces_cons, List.map_cons, hpiece, hleft, ih, List.map_cons,
      List.cons_append]

/-- No character begins with a byte that goes on with one. -/
theorem not_mem_tail_of_next_scalar {c : CodePoint} (h : next b rest = (.scalar c, left)) :
    b ∉ tail := by
  rintro ⟨hlow, hhigh⟩
  have hlow : 0x80 ≤ b.toNat := UInt8.le_iff_toNat_le.mp hlow
  have hhigh : b.toNat ≤ 0xBF := UInt8.le_iff_toNat_le.mp hhigh
  unfold next at h
  split at h
  · cases h
  · next lead hlead =>
    -- a first byte is below or above all bytes that go on with a character
    obtain ⟨-, -, hb⟩ | ⟨-, -, hb, -⟩ | ⟨-, hb, -⟩ | ⟨-, hb, -⟩ := lead?_eq_some hlead
    all_goals omega

/-- **Characters are never lost**: they are read as themselves wherever they stand. -/
theorem decodeLossy_append_octets_append (ht : ∀ c ∈ t, ¬ c.IsSurrogate) (hne : t ≠ []) :
    decodeLossy (bytes ++ octets t ++ rest) = decodeLossy bytes ++ t ++ decodeLossy rest := by
  cases t with
  | nil => exact absurd rfl hne
  | cons c u =>
    obtain ⟨hc, -⟩ := List.forall_mem_cons.mp ht
    -- reading falls into step at the first byte of the first character
    obtain ⟨b, others, hoctets⟩ := List.exists_cons_of_ne_nil (mt octets_eq_nil_iff.mp hne)
    have hnext : next b others = (.scalar c, octets u) :=
      next_of_eq_encodePoint_append hc (hoctets.symm.trans (octets_cons c u))
    have hb := not_mem_tail_of_next_scalar hnext
    calc decodeLossy (bytes ++ octets (c :: u) ++ rest)
        = decodeLossy (bytes ++ b :: (others ++ rest)) := by
          rw [hoctets, List.append_assoc, List.cons_append]
      _ = decodeLossy bytes ++ decodeLossy (octets (c :: u) ++ rest) := by
          rw [decodeLossy_append_cons hb, hoctets, List.cons_append]
      _ = decodeLossy bytes ++ (c :: u) ++ decodeLossy rest := by
          rw [decodeLossy_octets_append ht, List.append_assoc]

end Stomp.Utf8
