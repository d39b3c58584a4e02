import Stomp.Text.Utf8

/-!
# Reading back what was written

A character that is no surrogate is written as bytes that are read as one piece,
whatever follows them (`pieces_encodePoint`). Hence text that can be written is
read back (`decode_encode`), and it can be written exactly if no surrogate is in
it (`surrogateRun?_eq_none_iff`).
-/

namespace Stomp.Utf8

/-! ### One character -/

theorem toNat_ofNat {n : Nat} (h : n < 256) : (UInt8.ofNat n).toNat = n :=
  UInt8.toNat_ofNat_of_lt' h

/-- A continuation byte in its range adds its six bits. -/
theorem continued_cons {seen : Bytes} {bits : Nat} {low high : UInt8} {more k : Nat} (hk : k < 64)
    (hlow : low.toNat ≤ 0x80 + k) (hhigh : 0x80 + k ≤ high.toNat) (rest : Bytes) :
    continued seen bits low high (more + 1) (.ofNat (0x80 + k) :: rest) =
      continued (seen ++ [.ofNat (0x80 + k)]) (bits * 64 + k) 0x80 0xBF more rest := by
  have hb : (UInt8.ofNat (0x80 + k)).toNat = 0x80 + k := toNat_ofNat (by omega)
  rw [continued, if_pos ⟨by rwa [UInt8.le_iff_toNat_le, hb], by rwa [UInt8.le_iff_toNat_le, hb]⟩,
    hb, Nat.add_sub_cancel_left]

/-- A character is one piece. -/
theorem pieces_encodePoint {c : CodePoint} (h : ¬ c.IsSurrogate) (rest : Bytes) :
    pieces (encodePoint c ++ rest) = .scalar c :: pieces rest := by
  obtain ⟨n, hn⟩ := c
  replace h : ¬ (0xD800 ≤ n ∧ n ≤ 0xDFFF) := h
  -- it is enough that the first piece is the character
  suffices hnext : ∃ b more, encodePoint ⟨n, hn⟩ = b :: more ∧
      next b (more ++ rest) = (.scalar ⟨n, hn⟩, rest) by
    obtain ⟨b, more, hbytes, hnext⟩ := hnext
    rw [hbytes, List.cons_append, pieces_cons, hnext]
  have hscalar : ∀ m, m = n → CodePoint.ofNat m = ⟨n, hn⟩ := by
    rintro m rfl
    exact Fin.ext (Nat.mod_eq_of_lt hn)
  unfold encodePoint
  split
  · rename_i h1
    replace h1 : n < 0x80 := h1
    refine ⟨_, _, rfl, ?_⟩
    have hb : (UInt8.ofNat n).toNat = n := toNat_ofNat (by omega)
    have hlead : lead? (.ofNat n) = some { bits := n, more := 0 } := by
      simp only [lead?, UInt8.lt_iff_toNat_lt, UInt8.reduceToNat, hb]
      rw [if_pos h1]
    simp only [next, hlead, continued, List.nil_append, hscalar n rfl]
  · split
    · rename_i h1 h2
      replace h1 : ¬ n < 0x80 := h1
      replace h2 : n < 0x800 := h2
      refine ⟨_, _, rfl, ?_⟩
      have hb : (UInt8.ofNat (0xC0 + n / 64)).toNat = 0xC0 + n / 64 := toNat_ofNat (by omega)
      have hlead : lead? (.ofNat (0xC0 + n / 64)) = some { bits := n / 64, more := 1 } := by
        simp only [lead?, UInt8.lt_iff_toNat_lt, UInt8.reduceToNat, hb]
        rw [if_neg (by omega), if_neg (by omega), if_pos (by omega), Nat.add_sub_cancel_left]
      simp only [next, hlead, List.cons_append, List.nil_append]
      rw [continued_cons (by omega) (by simp) (by simp; omega), continued, hscalar _ (by omega)]
    · split
      · rename_i h1 h2 h3
        replace h2 : ¬ n < 0x800 := h2
        replace h3 : n < 0x10000 := h3
        refine ⟨_, _, rfl, ?_⟩
        have hb : (UInt8.ofNat (0xE0 + n / 4096)).toNat = 0xE0 + n / 4096 := toNat_ofNat (by omega)
        have hlead : lead? (.ofNat (0xE0 + n / 4096)) = some {
            bits := n / 4096, more := 2
            low := if n / 4096 = 0 then 0xA0 else 0x80
            high := if n / 4096 = 13 then 0x9F else 0xBF } := by
          simp only [lead?, UInt8.lt_iff_toNat_lt, ← UInt8.toNat_inj, UInt8.reduceToNat, hb]
          rw [if_neg (by omega), if_neg (by omega), if_neg (by omega), if_pos (by omega),
            Nat.add_sub_cancel_left]
          simp only [show (0xE0 + n / 4096 = 0xE0) ↔ n / 4096 = 0 by omega,
            show (0xE0 + n / 4096 = 0xED) ↔ n / 4096 = 13 by omega]
        simp only [next, hlead, List.cons_append, List.nil_append]
        rw [continued_cons (by omega) (by split <;> simp; omega) (by split <;> simp <;> omega),
          continued_cons (by omega) (by simp) (by simp; omega), continued, hscalar _ (by omega)]
      · rename_i h1 h2 h3
        replace h3 : ¬ n < 0x10000 := h3
        refine ⟨_, _, rfl, ?_⟩
        have hb : (UInt8.ofNat (0xF0 + n / 262144)).toNat = 0xF0 + n / 262144 :=
          toNat_ofNat (by omega)
        have hlead : lead? (.ofNat (0xF0 + n / 262144)) = some {
            bits := n / 262144, more := 3
            low := if n / 262144 = 0 then 0x90 else 0x80
            high := if n / 262144 = 4 then 0x8F else 0xBF } := by
          simp only [lead?, UInt8.lt_iff_toNat_lt, ← UInt8.toNat_inj, UInt8.reduceToNat, hb]
          rw [if_neg (by omega), if_neg (by omega), if_neg (by omega), if_neg (by omega),
            if_pos (by omega), Nat.add_sub_cancel_left]
          simp only [show (0xF0 + n / 262144 = 0xF0) ↔ n / 262144 = 0 by omega,
            show (0xF0 + n / 262144 = 0xF4) ↔ n / 262144 = 4 by omega]
        simp only [next, hlead, List.cons_append, List.nil_append]
        rw [continued_cons (by omega) (by split <;> simp; omega) (by split <;> simp <;> omega),
          continued_cons (by omega) (by simp) (by simp; omega),
          continued_cons (by omega) (by simp) (by simp; omega), continued, hscalar _ (by omega)]

/-! ### Whole texts -/

/-- Text without surrogates is one piece a character, whatever follows it. -/
theorem pieces_flatMap_encodePoint {t : Text} (h : ∀ c ∈ t, ¬ c.IsSurrogate) (rest : Bytes) :
    pieces (t.flatMap encodePoint ++ rest) = t.map .scalar ++ pieces rest := by
  induction t with
  | nil => rfl
  | cons c t ih =>
    rw [List.flatMap_cons, List.append_assoc, pieces_encodePoint (h c (List.mem_cons_self ..)),
      ih fun d hd => h d (List.mem_cons_of_mem _ hd)]
    rfl

/-- Characters alone are collected as they stand. -/
theorem collect_map_scalar (t : Text) (position : Nat) :
    collect position (t.map .scalar) = .ok t := by
  induction t generalizing position with
  | nil => rfl
  | cons c t ih =>
    rw [List.map_cons, collect, ih]
    rfl

theorem surrogateRun?_eq_none_iff {t : Text} :
    surrogateRun? t = none ↔ ∀ c ∈ t, ¬ c.IsSurrogate := by
  unfold surrogateRun?
  split
  · rename_i hdrop
    -- nothing is left because everything was dropped
    have htake : t.takeWhile (fun c => ¬ c.IsSurrogate) = t := by
      have h : t.takeWhile _ ++ t.dropWhile (fun c => ¬ c.IsSurrogate) = t :=
        List.takeWhile_append_dropWhile
      rwa [hdrop, List.append_nil] at h
    have hall : (t.takeWhile (fun c => ¬ c.IsSurrogate)).all (fun c => ¬ c.IsSurrogate) = true :=
      List.all_takeWhile
    rw [htake, List.all_eq_true] at hall
    exact ⟨fun _ c hc => by simpa using hall c hc, fun _ => rfl⟩
  · rename_i c rest hdrop
    -- the text goes on with a code point that was not dropped
    have hc : c.IsSurrogate := by
      have := List.head?_dropWhile_not (fun c : CodePoint => decide (¬ c.IsSurrogate)) t
      rw [hdrop] at this
      simpa using this
    have hmem : c ∈ t :=
      (List.dropWhile_suffix _).subset (by rw [hdrop]; exact List.mem_cons_self ..)
    exact ⟨fun h => by simp at h, fun h => absurd hc (h c hmem)⟩

/-- Text that can be written is read back. -/
theorem decode_encode {t : Text} {bytes : Bytes} (h : encode t = .ok bytes) :
    decode bytes = .ok t := by
  unfold encode at h
  split at h
  · simp at h
  · rename_i hrun
    obtain rfl := Except.ok.inj h
    have := pieces_flatMap_encodePoint (surrogateRun?_eq_none_iff.mp hrun) []
    rw [List.append_nil, pieces_nil, List.append_nil] at this
    rw [decode, this, collect_map_scalar]

end Stomp.Utf8
