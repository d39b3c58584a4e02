import Mathlib.Data.List.Basic
import Mathlib.Data.List.Induction
import Stomp.Text.Encoded
import Stomp.Text.Utf8.Lemmas

/-!
# The octets of a text

`Utf8.octets` writes any text, a surrogate like any other code point, so that it is total and
distributes over concatenation. Strict writing and strict reading are both read off it:

* `encode_eq_ok_iff` — a text is written exactly if no surrogate is in it, and then as its octets;
* `decode_eq_ok_iff` — bytes are read as a text exactly if they are the octets of it and no
  surrogate is in it. So reading accepts nothing but what writing produces, and no byte sequence
  stands for two texts.

The crux of the second is `append_of_next_scalar`: where `next` finds a character, it has walked
over the octets of that character and no others. The narrowed ranges of the second byte are what
shuts out overlong forms, surrogates and what lies above the last code point.

The marks of a frame are ASCII, and a byte below `0x80` stands in octets only as a code point of
its own (`ofNat_mem_octets_iff`), so a mark is looked for in a text or in its bytes alike.
-/

namespace Stomp.Utf8

/-! ### Writing -/

/-- The bytes of all code points of a text, one after another. -/
def octets (t : Text) : Bytes := t.flatMap encodePoint

@[simp] theorem octets_nil : octets [] = [] := rfl

@[simp] theorem octets_cons (c : CodePoint) (t : Text) :
    octets (c :: t) = encodePoint c ++ octets t := List.flatMap_cons

@[simp] theorem octets_append (t u : Text) : octets (t ++ u) = octets t ++ octets u :=
  List.flatMap_append

/-- **Strict writing** gives the octets of a text, or nothing if a surrogate is in it. -/
theorem encode_eq_ok_iff {t : Text} {bytes : Bytes} :
    encode t = .ok bytes ↔ (∀ c ∈ t, ¬ c.IsSurrogate) ∧ bytes = octets t := by
  rw [← surrogateRun?_eq_none_iff]
  unfold encode
  cases surrogateRun? t with
  | none => simp [octets, eq_comm]
  | some run => simp

theorem encodePoint_of_lt {c : CodePoint} (h : c.val < 0x80) :
    encodePoint c = [.ofNat c.val] := by
  unfold encodePoint
  rw [if_pos h]

/-- All bytes of a code point beyond ASCII have their top bit set. -/
theorem le_of_mem_encodePoint {c : CodePoint} (h : ¬ c.val < 0x80) {b : UInt8}
    (hb : b ∈ encodePoint c) : 0x80 ≤ b.toNat := by
  have hc := c.isLt
  unfold encodePoint at hb
  rw [if_neg h] at hb
  -- two bytes, three or four; each is `0x80` or more by what is added to it
  split at hb
  · simp only [List.mem_cons, List.not_mem_nil, or_false] at hb
    obtain rfl | rfl := hb <;> (rw [toNat_ofNat (by omega)]; omega)
  · split at hb
    · simp only [List.mem_cons, List.not_mem_nil, or_false] at hb
      obtain rfl | rfl | rfl := hb <;> (rw [toNat_ofNat (by omega)]; omega)
    · simp only [List.mem_cons, List.not_mem_nil, or_false] at hb
      obtain rfl | rfl | rfl | rfl := hb <;>
        (rw [toNat_ofNat (by omega)]; omega)

theorem encodePoint_ne_nil (c : CodePoint) : encodePoint c ≠ [] := by
  unfold encodePoint
  split
  · simp
  · split
    · simp
    · split <;> simp

/-- A byte below `0x80` stands in the bytes of a code point only if it is that code point. -/
theorem ofNat_mem_encodePoint_iff {a c : CodePoint} (ha : a.val < 0x80) :
    UInt8.ofNat a.val ∈ encodePoint c ↔ c = a := by
  have htoNat : (UInt8.ofNat a.val).toNat = a.val := toNat_ofNat (by omega)
  constructor
  · intro hmem
    -- the bytes of a code point beyond ASCII are too great
    by_cases hc : c.val < 0x80
    · rw [encodePoint_of_lt hc, List.mem_singleton] at hmem
      have := congrArg UInt8.toNat hmem
      rw [htoNat, toNat_ofNat (by omega)] at this
      exact Fin.ext this.symm
    · have := le_of_mem_encodePoint hc hmem
      omega
  · rintro rfl
    rw [encodePoint_of_lt ha]
    exact List.mem_singleton_self _

/-- **ASCII is transparent**: an ASCII byte stands in the octets of a text exactly where the text
has that code point. -/
theorem ofNat_mem_octets_iff {a : CodePoint} (ha : a.val < 0x80) (t : Text) :
    UInt8.ofNat a.val ∈ octets t ↔ a ∈ t := by
  simp only [octets, List.mem_flatMap, ofNat_mem_encodePoint_iff ha, exists_eq_right]

/-- A text is one line if its octets are. -/
theorem lineFeed_mem_octets_iff (t : Text) :
    Octet.lineFeed ∈ octets t ↔ CodePoint.ofChar '\n' ∈ t :=
  ofNat_mem_octets_iff (a := CodePoint.ofChar '\n') (by decide) t

theorem getLast?_octets_eq_iff {a : CodePoint} (ha : a.val < 0x80) (t : Text) :
    (octets t).getLast? = some (.ofNat a.val) ↔ t.getLast? = some a := by
  induction t using List.reverseRecOn with
  | nil => simp
  | append_singleton t c ih =>
    -- the last byte is one of the last code point
    rw [octets_append, octets_cons, octets_nil, List.append_nil, List.getLast?_concat,
      List.getLast?_append_of_ne_nil _ (encodePoint_ne_nil c), Option.some.injEq]
    constructor
    · intro hlast
      exact (ofNat_mem_encodePoint_iff ha).mp (List.mem_of_getLast? hlast)
    · rintro rfl
      rw [encodePoint_of_lt ha, List.getLast?_singleton]

theorem octets_eq_nil_iff {t : Text} : octets t = [] ↔ t = [] := by
  cases t with
  | nil => simp
  | cons c t => simp [encodePoint_ne_nil]

/-! ### Reading -/

/-- Where a character goes on, the next byte is a continuation byte in its range. -/
theorem exists_of_continued_scalar {seen : Bytes} {bits : Nat} {low high : UInt8} {more : Nat}
    {rest left : Bytes} {c : CodePoint} (hlow : 0x80 ≤ low.toNat) (hhigh : high.toNat ≤ 0xBF)
    (h : continued seen bits low high (more + 1) rest = (.scalar c, left)) :
    ∃ k rest', k < 64 ∧ low.toNat ≤ 0x80 + k ∧ 0x80 + k ≤ high.toNat ∧
      rest = .ofNat (0x80 + k) :: rest' ∧
      continued (seen ++ [.ofNat (0x80 + k)]) (bits * 64 + k) 0x80 0xBF more rest' =
        (.scalar c, left) := by
  cases rest with
  | nil => simp [continued] at h
  | cons b rest' =>
    rw [continued] at h
    split at h
    · -- the byte is in its range, so its low bits are what is above `0x80`
      next hrange =>
      rw [UInt8.le_iff_toNat_le, UInt8.le_iff_toNat_le] at hrange
      have hb : UInt8.ofNat (0x80 + (b.toNat - 0x80)) = b := by
        rw [Nat.add_sub_cancel' (by omega), UInt8.ofNat_toNat]
      exact ⟨b.toNat - 0x80, rest', by omega, by omega, by omega, by rw [hb], by rw [hb]; exact h⟩
    · simp at h

theorem of_continued_zero {seen : Bytes} {bits : Nat} {low high : UInt8} {rest left : Bytes}
    {c : CodePoint} (hbits : bits < 0x110000)
    (h : continued seen bits low high 0 rest = (.scalar c, left)) :
    c.val = bits ∧ rest = left := by
  rw [continued, Prod.mk.injEq, Piece.scalar.injEq] at h
  refine ⟨?_, h.2⟩
  rw [← h.1]
  exact Nat.mod_eq_of_lt hbits

/-- What the first byte of a character announces lies in the ranges of UTF-8. -/
theorem lead?_eq_some {b : UInt8} {l : Lead} (h : lead? b = some l) :
    (l.more = 0 ∧ l.bits = b.toNat ∧ b.toNat < 0x80) ∨
    (l.more = 1 ∧ l.bits + 0xC0 = b.toNat ∧ 0xC2 ≤ b.toNat ∧ b.toNat < 0xE0 ∧
      l.low = 0x80 ∧ l.high = 0xBF) ∨
    (l.more = 2 ∧ l.bits + 0xE0 = b.toNat ∧ b.toNat < 0xF0 ∧
      l.low = (if l.bits = 0 then 0xA0 else 0x80) ∧ l.high = if l.bits = 13 then 0x9F else 0xBF) ∨
    (l.more = 3 ∧ l.bits + 0xF0 = b.toNat ∧ b.toNat < 0xF5 ∧
      l.low = (if l.bits = 0 then 0x90 else 0x80) ∧
        l.high = if l.bits = 4 then 0x8F else 0xBF) := by
  simp only [lead?, UInt8.lt_iff_toNat_lt, ← UInt8.toNat_inj, UInt8.reduceToNat] at h
  split at h
  · -- ASCII
    next h1 =>
    obtain rfl := Option.some.inj h
    exact .inl ⟨rfl, rfl, h1⟩
  · split at h
    · -- no character begins here
      simp at h
    · split at h
      · -- two bytes
        next h1 h2 h3 =>
        obtain rfl := Option.some.inj h
        exact .inr (.inl ⟨rfl, by simp only; omega, by omega, h3, rfl, rfl⟩)
      · split at h
        · -- three bytes
          next h1 h2 h3 h4 =>
          obtain rfl := Option.some.inj h
          refine .inr (.inr (.inl ⟨rfl, by simp only; omega, h4, ?_, ?_⟩))
          · simp only [show b.toNat - 224 = 0 ↔ b.toNat = 224 by omega]
          · simp only [show b.toNat - 224 = 13 ↔ b.toNat = 237 by omega]
        · split at h
          · -- four bytes
            next h1 h2 h3 h4 h5 =>
            obtain rfl := Option.some.inj h
            refine .inr (.inr (.inr ⟨rfl, by simp only; omega, h5, ?_, ?_⟩))
            · simp only [show b.toNat - 240 = 0 ↔ b.toNat = 240 by omega]
            · simp only [show b.toNat - 240 = 4 ↔ b.toNat = 244 by omega]
          · simp at h

/-- **A character is its octets**: where `next` finds a character, no surrogate, its octets stand
in front, and what follows them is left. -/
theorem append_of_next_scalar {b : UInt8} {rest left : Bytes} {c : CodePoint}
    (h : next b rest = (.scalar c, left)) :
    ¬ c.IsSurrogate ∧ b :: rest = encodePoint c ++ left := by
  have hbyte : ∀ n, n = b.toNat → UInt8.ofNat n = b := by
    rintro n rfl
    exact UInt8.ofNat_toNat
  have hsame : ∀ m n, m = n → UInt8.ofNat m = UInt8.ofNat n := fun m n hmn => by rw [hmn]
  unfold next at h
  split at h
  · simp at h
  · next lead hlead =>
    -- one case for each number of bytes that the first can announce
    obtain ⟨hmore, hbits, hb⟩ | ⟨hmore, hbits, hlow, hhigh, hl, hh⟩ | ⟨hmore, hbits, hb, hl, hh⟩ |
      ⟨hmore, hbits, hb, hl, hh⟩ := lead?_eq_some hlead
    · -- one byte
      rw [hmore] at h
      obtain ⟨hval, rfl⟩ := of_continued_zero (by omega) h
      refine ⟨fun hsur => ?_, ?_⟩
      · have := hsur.1
        omega
      · rw [encodePoint_of_lt (by omega), hbyte _ (by omega), List.singleton_append]
    · -- two bytes; the range of the first shuts out overlong forms
      rw [hmore, hl, hh] at h
      obtain ⟨k, rest1, hk, -, -, rfl, h1⟩ := exists_of_continued_scalar (by decide) (by decide) h
      have hmax : lead.bits * 64 + k < 0x110000 := by omega
      obtain ⟨hval, rfl⟩ := of_continued_zero hmax h1
      refine ⟨fun hsur => ?_, ?_⟩
      · have := hsur.1
        omega
      · unfold encodePoint
        rw [if_neg (by omega), if_pos (by omega), hbyte (0xC0 + c.val / 64) (by omega),
          hsame (0x80 + c.val % 64) (0x80 + k) (by omega)]
        rfl
    · -- three bytes; the range of the second shuts out overlong forms and surrogates
      have hlow : lead.bits = 0 → lead.low.toNat = 0xA0 := fun h0 => by rw [hl, if_pos h0]; rfl
      have hhigh : lead.bits = 13 → lead.high.toNat = 0x9F := fun h0 => by rw [hh, if_pos h0]; rfl
      rw [hmore] at h
      obtain ⟨k, rest1, hk, hk1, hk2, rfl, h1⟩ := exists_of_continued_scalar
        (by rw [hl]; split <;> decide) (by rw [hh]; split <;> decide) h
      obtain ⟨k', rest2, hk', -, -, rfl, h2⟩ :=
        exists_of_continued_scalar (by decide) (by decide) h1
      have hmax : (lead.bits * 64 + k) * 64 + k' < 0x110000 := by omega
      -- this many bytes are needed
      have hmin : 0x800 ≤ (lead.bits * 64 + k) * 64 + k' := by
        by_cases h0 : lead.bits = 0
        · have := hlow h0
          omega
        · omega
      obtain ⟨hval, rfl⟩ := of_continued_zero hmax h2
      refine ⟨fun hsur => ?_, ?_⟩
      · obtain ⟨hsur1, hsur2⟩ := hsur
        have := hhigh (by omega)
        omega
      · unfold encodePoint
        rw [if_neg (by omega), if_neg (by omega), if_pos (by omega),
          hbyte (0xE0 + c.val / 4096) (by omega),
          hsame (0x80 + c.val / 64 % 64) (0x80 + k) (by omega),
          hsame (0x80 + c.val % 64) (0x80 + k') (by omega)]
        rfl
    · -- four bytes; the range of the second shuts out overlong forms and too great values
      have hlow : lead.bits = 0 → lead.low.toNat = 0x90 := fun h0 => by rw [hl, if_pos h0]; rfl
      have hhigh : lead.bits = 4 → lead.high.toNat = 0x8F := fun h0 => by rw [hh, if_pos h0]; rfl
      rw [hmore] at h
      obtain ⟨k, rest1, hk, hk1, hk2, rfl, h1⟩ := exists_of_continued_scalar
        (by rw [hl]; split <;> decide) (by rw [hh]; split <;> decide) h
      obtain ⟨k', rest2, hk', -, -, rfl, h2⟩ :=
        exists_of_continued_scalar (by decide) (by decide) h1
      obtain ⟨k'', rest3, hk'', -, -, rfl, h3⟩ :=
        exists_of_continued_scalar (by decide) (by decide) h2
      have hmax : ((lead.bits * 64 + k) * 64 + k') * 64 + k'' < 0x110000 := by
        by_cases h4 : lead.bits = 4
        · have := hhigh h4
          omega
        · omega
      have hmin : 0x10000 ≤ ((lead.bits * 64 + k) * 64 + k') * 64 + k'' := by
        by_cases h0 : lead.bits = 0
        · have := hlow h0
          omega
        · omega
      obtain ⟨hval, rfl⟩ := of_continued_zero hmax h3
      refine ⟨fun hsur => ?_, ?_⟩
      · have := hsur.2
        omega
      · unfold encodePoint
        rw [if_neg (by omega), if_neg (by omega), if_neg (by omega),
          hbyte (0xF0 + c.val / 262144) (by omega),
          hsame (0x80 + c.val / 4096 % 64) (0x80 + k) (by omega),
          hsame (0x80 + c.val / 64 % 64) (0x80 + k') (by omega),
          hsame (0x80 + c.val % 64) (0x80 + k'') (by omega)]
        rfl

/-- Pieces that are collected are the characters of the octets. -/
theorem eq_octets_of_collect {bytes : Bytes} {position : Nat} {t : Text}
    (h : collect position (pieces bytes) = .ok t) :
    (∀ c ∈ t, ¬ c.IsSurrogate) ∧ bytes = octets t := by
  -- the induction is on the number of bytes, as each character takes some of them away
  induction hlen : bytes.length using Nat.strongRecOn generalizing bytes position t with
  | ind len ih =>
    cases bytes with
    | nil =>
      rw [pieces_nil] at h
      obtain rfl := Except.ok.inj h
      simp
    | cons b rest =>
      rw [pieces_cons] at h
      cases hnext : next b rest with
      | mk piece left =>
        cases piece with
        | malformed seen flaw => simp [hnext, collect] at h
        | scalar c =>
          obtain ⟨hc, hbytes⟩ := append_of_next_scalar hnext
          simp only [hnext, collect] at h
          -- what is left is collected as the rest of the text
          cases hrest : collect (position + (encodePoint c).length) (pieces left) with
          | error m => simp [hrest, Except.map] at h
          | ok u =>
            rw [hrest] at h
            obtain rfl := Except.ok.inj h
            have hshort : left.length < len := by
              have := length_next_le b rest
              rw [hnext] at this
              simp only [List.length_cons] at hlen this
              omega
            obtain ⟨hu, hleft⟩ := ih _ hshort hrest rfl
            refine ⟨?_, ?_⟩
            · simpa using ⟨hc, hu⟩
            · rw [hbytes, hleft, octets_cons]

/-- **Strict reading** accepts exactly the octets of texts without surrogates. -/
theorem decode_eq_ok_iff {bytes : Bytes} {t : Text} :
    decode bytes = .ok t ↔ (∀ c ∈ t, ¬ c.IsSurrogate) ∧ bytes = octets t := by
  constructor
  · exact eq_octets_of_collect
  · intro h
    exact decode_encode (encode_eq_ok_iff.mpr h)

/-- Where characters stand in front, what follows them is read by itself. -/
theorem decode_octets_append_iff {t u : Text} {bytes : Bytes} (ht : ∀ c ∈ t, ¬ c.IsSurrogate) :
    decode (octets t ++ bytes) = .ok u ↔ ∃ v, u = t ++ v ∧ decode bytes = .ok v := by
  constructor
  · intro h
    obtain ⟨hu, hoctets⟩ := decode_eq_ok_iff.mp h
    -- the bytes are cut into the characters of `t`, and then into those that follow
    have hpieces : t.map Piece.scalar ++ pieces bytes = u.map Piece.scalar := by
      have hwhole := pieces_flatMap_encodePoint hu []
      rw [pieces_nil, List.append_nil, List.append_nil] at hwhole
      rw [← pieces_flatMap_encodePoint ht, ← hwhole]
      exact congrArg pieces hoctets
    obtain ⟨t', v, rfl, ht', hv⟩ := List.map_eq_append_iff.mp hpieces.symm
    obtain rfl : t' = t := List.map_injective_iff.mpr (fun _ _ => Piece.scalar.inj) ht'
    refine ⟨v, rfl, ?_⟩
    rw [decode, ← hv, collect_map_scalar]
  · rintro ⟨v, rfl, hv⟩
    obtain ⟨hfree, rfl⟩ := decode_eq_ok_iff.mp hv
    refine decode_eq_ok_iff.mpr ⟨List.forall_mem_append.mpr ⟨ht, hfree⟩, ?_⟩
    rw [octets_append]

end Stomp.Utf8

namespace Stomp

/-- Bytes that strict reading refuses are named in the error. -/
theorem Bytes.decode_eq_error_iff {bytes : Bytes} {e : Error} :
    bytes.decode = .error e ↔
      ∃ malformed, Utf8.decode bytes = .error malformed ∧
        e = .encoding (.undecodable malformed) := by
  rw [Bytes.decode]
  cases Utf8.decode bytes <;> simp [Except.mapError, eq_comm]

end Stomp
