import Mathlib.Algebra.Ring.Parity
import Mathlib.Data.List.DropRight
import Stomp.Frame.Decoder

/-!
# Where a raw frame text ends

The reader of raw frame texts ends a text at a line feed that comes after a NUL. But it decides on a
NUL together with the byte after it, and two NULs are text. So what counts is the length of the
whole run of NULs that ends before the line feed: the text ends there if that is odd.

The state of the reader is not followed byte by byte: `RawState.after` computes it from the bytes
that were read, and `RawState.feed_after` is what one byte more comes to. The main statement,
`scan_raw_eq_done_iff`, takes the bytes apart: a text ends at the first line feed after an odd run.
-/

namespace Stomp

namespace Bytes

/-- The length of the run of NULs at the end of bytes. -/
def nulRun (bytes : Bytes) : Nat := (bytes.rtakeWhile (· = Octet.nul)).length

@[simp] theorem nulRun_nil : nulRun [] = 0 := rfl

@[simp] theorem nulRun_concat_nul (bytes : Bytes) :
    nulRun (bytes ++ [Octet.nul]) = nulRun bytes + 1 := by
  rw [nulRun, List.rtakeWhile_concat_pos _ _ _ (by simp), List.length_append, List.length_singleton,
    nulRun]

theorem nulRun_concat_of_ne (bytes : Bytes) {b : UInt8} (hb : b ≠ Octet.nul) :
    nulRun (bytes ++ [b]) = 0 := by
  rw [nulRun, List.rtakeWhile_concat_neg _ _ _ (by simpa using hb), List.length_nil]

/-- There is no run if the last byte is no NUL. -/
theorem nulRun_eq_zero_iff {bytes : Bytes} :
    nulRun bytes = 0 ↔ bytes.getLast? ≠ some Octet.nul := by
  rcases List.eq_nil_or_concat' bytes with rfl | ⟨front, b, rfl⟩
  · simp
  · rw [List.getLast?_concat, Ne, Option.some.injEq]
    by_cases hb : b = Octet.nul
    · subst hb
      simp
    · simp [nulRun_concat_of_ne front hb, hb]

/-- Where there is a run, its last NUL can be taken off. -/
theorem dropLast_append_nul {bytes : Bytes} (h : Odd (nulRun bytes)) :
    bytes.dropLast ++ [Octet.nul] = bytes := by
  refine List.dropLast_append_getLast? _ ?_
  by_contra hlast
  rw [nulRun_eq_zero_iff.mpr hlast] at h
  exact absurd h (by decide)

/-- No line feed in the bytes ends a raw frame text. -/
def Unended (bytes : Bytes) : Prop :=
  ∀ front later, bytes = front ++ Octet.lineFeed :: later → Even (nulRun front)

/-- It is enough to look at every line feed in turn. -/
theorem unended_iff_forall_lt {bytes : Bytes} :
    Unended bytes ↔
      ∀ n < bytes.length, bytes[n]? = some Octet.lineFeed → Even (nulRun (bytes.take n)) := by
  constructor
  · intro h n hn hfeed
    refine h (bytes.take n) (bytes.drop (n + 1)) ?_
    obtain ⟨_, hget⟩ := List.getElem?_eq_some_iff.mp hfeed
    rw [← hget, ← List.drop_eq_getElem_cons hn, List.take_append_drop]
  · -- the line feed stands where the front ends
    rintro h front later rfl
    have hrun := h front.length (by rw [List.length_append, List.length_cons]; omega)
      (by rw [List.getElem?_append_right (Nat.le_refl _), Nat.sub_self, List.getElem?_cons_zero])
    rwa [List.take_left' rfl] at hrun

instance (bytes : Bytes) : Decidable (Unended bytes) :=
  decidable_of_iff _ unended_iff_forall_lt.symm

example : Unended [0, 0, 10] ∧ ¬ Unended [0, 0, 0, 10] := by decide +kernel

/-- A raw frame text ends at the byte with this index: it is a line feed, and the run of NULs before
it is odd. -/
def EndsTextAt (bytes : Bytes) (p : Nat) : Prop :=
  bytes[p]? = some Octet.lineFeed ∧ Odd (nulRun (bytes.take p))

instance (bytes : Bytes) (p : Nat) : Decidable (EndsTextAt bytes p) :=
  inferInstanceAs (Decidable (_ ∧ _))

theorem EndsTextAt.lt_length {bytes : Bytes} {p : Nat} (h : EndsTextAt bytes p) :
    p < bytes.length :=
  (List.getElem?_eq_some_iff.mp h.1).1

/-- Up to the byte, at it and after it. -/
theorem EndsTextAt.eq_take_append {bytes : Bytes} {p : Nat} (h : EndsTextAt bytes p) :
    bytes = bytes.take p ++ Octet.lineFeed :: bytes.drop (p + 1) := by
  obtain ⟨hp, hget⟩ := List.getElem?_eq_some_iff.mp h.1
  rw [← hget, ← List.drop_eq_getElem_cons hp, List.take_append_drop]

/-- Bytes in which no line feed ends a text are those in which none of their bytes does. -/
theorem unended_iff_forall_not_endsTextAt {bytes : Bytes} :
    Unended bytes ↔ ∀ p, ¬ EndsTextAt bytes p := by
  rw [unended_iff_forall_lt]
  constructor
  · intro h p hp
    exact Nat.not_odd_iff_even.mpr (h p hp.lt_length hp.1) hp.2
  · intro h n _ hfeed
    exact Nat.not_odd_iff_even.mp fun hodd => h n ⟨hfeed, hodd⟩

/-- No text ends before the first byte at which one does. -/
theorem unended_take {bytes : Bytes} {p : Nat} (h : ∀ q < p, ¬ EndsTextAt bytes q) :
    Unended (bytes.take p) := by
  rw [unended_iff_forall_not_endsTextAt]
  intro q hq
  have hlt : q < p := lt_of_lt_of_le hq.lt_length (List.length_take_le p bytes)
  refine h q hlt ⟨?_, ?_⟩
  · rw [← List.getElem?_take_of_lt hlt]
    exact hq.1
  · have := hq.2
    rwa [List.take_take, Nat.min_eq_left (Nat.le_of_lt hlt)] at this

/-- A NUL behind the bytes is no line feed. -/
theorem unended_concat_nul {bytes : Bytes} : Unended (bytes ++ [Octet.nul]) ↔ Unended bytes := by
  constructor
  · rintro h front later rfl
    exact h front (later ++ [Octet.nul]) (by simp)
  · intro h front later hsplit
    rcases List.eq_nil_or_concat' later with rfl | ⟨later, b, rfl⟩
    · -- the line feed would be the last byte
      have hlast := congrArg List.getLast? hsplit
      rw [List.getLast?_concat, List.getLast?_concat] at hlast
      exact absurd hlast (by decide)
    · rw [← List.cons_append, ← List.append_assoc] at hsplit
      exact h front later (List.append_inj' hsplit rfl).1

theorem unended_of_nul_not_mem {bytes : Bytes} (h : Octet.nul ∉ bytes) : Unended bytes := by
  rintro front later rfl
  have hlast : front.getLast? ≠ some Octet.nul := fun hlast =>
    h (List.mem_append_left _ (List.mem_of_getLast? hlast))
  rw [nulRun_eq_zero_iff.mpr hlast]
  exact Even.zero

end Bytes

open Bytes (nulRun nulRun_concat_nul nulRun_concat_of_ne dropLast_append_nul EndsTextAt Unended
  unended_concat_nul)

namespace Frame

/-- The state of the reader after bytes that have not ended the text. -/
def RawState.after (bytes : Bytes) : RawState :=
  if Odd (nulRun bytes) then ⟨bytes.dropLast.toArray, true⟩ else ⟨bytes.toArray, false⟩

theorem RawState.after_of_even {bytes : Bytes} (h : Even (nulRun bytes)) :
    RawState.after bytes = ⟨bytes.toArray, false⟩ :=
  if_neg (Nat.not_odd_iff_even.mpr h)

/-- **One byte more.** A line feed after an odd run of NULs ends the text, and the last NUL of the
run does not belong to it. -/
theorem RawState.feed_after (bytes : Bytes) (b : UInt8) :
    (RawState.after bytes).feed b =
      if b = Octet.lineFeed ∧ Odd (nulRun bytes) then .done (Bytes.decode bytes.dropLast)
      else .more (RawState.after (bytes ++ [b])) := by
  by_cases hodd : Odd (nulRun bytes)
  · -- a NUL is not yet decided on
    have hstate : RawState.after bytes = ⟨bytes.dropLast.toArray, true⟩ := if_pos hodd
    rw [hstate, feed, if_pos rfl]
    by_cases hb : b = Octet.lineFeed
    · rw [if_pos hb, if_pos ⟨hb, hodd⟩]
    · rw [if_neg hb, if_neg fun h => hb h.1]
      -- with the byte the run is even, or there is none
      have heven : Even (nulRun (bytes ++ [b])) := by
        by_cases hnul : b = Octet.nul
        · rw [hnul, nulRun_concat_nul]
          exact hodd.add_one
        · rw [nulRun_concat_of_ne bytes hnul]
          exact Even.zero
      rw [after_of_even heven, List.push_toArray, List.push_toArray, dropLast_append_nul hodd]
  · have heven := Nat.not_odd_iff_even.mp hodd
    -- the text goes on, whatever the byte is
    have hmore : ¬ (b = Octet.lineFeed ∧ Odd (nulRun bytes)) := fun h => hodd h.2
    rw [if_neg hmore, after_of_even heven, feed, if_neg Bool.false_ne_true]
    by_cases hnul : b = Octet.nul
    · subst hnul
      have hnext : Odd (nulRun (bytes ++ [Octet.nul])) := by
        rw [nulRun_concat_nul]
        exact heven.add_one
      rw [if_pos rfl, after, if_pos hnext, List.dropLast_concat]
    · have hnext : Even (nulRun (bytes ++ [b])) := by
        rw [nulRun_concat_of_ne bytes hnul]
        exact Even.zero
      rw [if_neg hnul, after_of_even hnext, List.push_toArray]

/-- The rest of a text, after bytes that have not ended it. -/
theorem scan_after_eq_done_iff {before bytes rest : Bytes} {result : Except Error Text} :
    rawReader.scan (RawState.after before) bytes = .done result rest ↔
      ∃ front, bytes = front ++ Octet.lineFeed :: rest ∧ Odd (nulRun (before ++ front)) ∧
        (∀ early later, front = early ++ Octet.lineFeed :: later →
          Even (nulRun (before ++ early))) ∧
        result = Bytes.decode (before ++ front).dropLast := by
  induction bytes generalizing before with
  | nil => simp
  | cons b bytes ih =>
    have hfeed : rawReader.feed (RawState.after before) b = _ := RawState.feed_after before b
    rw [Reader.scan, hfeed]
    by_cases hend : b = Octet.lineFeed ∧ Odd (nulRun before)
    · -- the text ends at this byte, so nothing of it is still to come
      obtain ⟨rfl, hodd⟩ := hend
      rw [if_pos ⟨rfl, hodd⟩]
      simp only [Scan.done.injEq]
      constructor
      · rintro ⟨rfl, rfl⟩
        exact ⟨[], rfl, by rwa [List.append_nil], by simp, by rw [List.append_nil]⟩
      · rintro ⟨front, hbytes, -, heven, rfl⟩
        cases front with
        | nil =>
          rw [List.nil_append, List.cons.injEq] at hbytes
          exact ⟨by rw [List.append_nil], hbytes.2⟩
        | cons c front =>
          rw [List.cons_append, List.cons.injEq] at hbytes
          have := heven [] front (by rw [hbytes.1, List.nil_append])
          rw [List.append_nil] at this
          exact absurd hodd (Nat.not_odd_iff_even.mpr this)
    · rw [if_neg hend]
      -- the byte belongs to the text, and the rest of it is found by the induction
      simp only [ih, List.append_assoc, List.singleton_append]
      constructor
      · -- put the byte in front again: as it ended nothing, it is no line feed after an odd run
        rintro ⟨front, rfl, hodd, heven, rfl⟩
        refine ⟨b :: front, rfl, hodd, fun early later hsplit => ?_, rfl⟩
        cases early with
        | nil =>
          rw [List.nil_append, List.cons.injEq] at hsplit
          rw [List.append_nil, ← Nat.not_odd_iff_even]
          exact fun hodd => hend ⟨hsplit.1, hodd⟩
        | cons c early =>
          rw [List.cons_append, List.cons.injEq] at hsplit
          obtain ⟨rfl, hsplit⟩ := hsplit
          exact heven early later hsplit
      · -- take the byte off: the text cannot end at it
        rintro ⟨front, hbytes, hodd, heven, rfl⟩
        cases front with
        | nil =>
          rw [List.nil_append, List.cons.injEq] at hbytes
          rw [List.append_nil] at hodd
          exact absurd ⟨hbytes.1, hodd⟩ hend
        | cons c front =>
          rw [List.cons_append, List.cons.injEq] at hbytes
          obtain ⟨rfl, rfl⟩ := hbytes
          exact ⟨front, rfl, hodd,
            fun early later hsplit => heven (b :: early) later (by rw [hsplit]; rfl), rfl⟩

/-- **Where a text ends**: at the first line feed after an odd run of NULs, the last of which does
not belong to it. -/
theorem scan_raw_eq_done_iff {bytes rest : Bytes} {result : Except Error Text} :
    rawReader.scan {} bytes = .done result rest ↔
      ∃ front, bytes = front ++ Octet.lineFeed :: rest ∧ Odd (nulRun front) ∧ Unended front ∧
        result = Bytes.decode front.dropLast := by
  have hstart : ({} : RawState) = RawState.after [] := (RawState.after_of_even Even.zero).symm
  rw [hstart, scan_after_eq_done_iff]
  rfl

/-- The first byte at which a text ends tells what the text is and what is left. -/
theorem scan_raw_of_endsTextAt {bytes : Bytes} {p : Nat} (h : EndsTextAt bytes p)
    (hfirst : ∀ q < p, ¬ EndsTextAt bytes q) :
    rawReader.scan {} bytes = .done (Bytes.decode (bytes.take (p - 1))) (bytes.drop (p + 1)) := by
  have hresult : Bytes.decode (bytes.take (p - 1)) = Bytes.decode (bytes.take p).dropLast := by
    rw [List.dropLast_take h.lt_length]
  exact scan_raw_eq_done_iff.mpr
    ⟨bytes.take p, h.eq_take_append, h.2, Bytes.unended_take hfirst, hresult⟩

/-- Where no text ends, the reader goes on. -/
theorem exists_more_of_unended {bytes : Bytes} (h : Unended bytes) :
    ∃ next, rawReader.scan {} bytes = .more next := by
  cases hscan : rawReader.scan {} bytes with
  | more next => exact ⟨next, rfl⟩
  | done result rest =>
    obtain ⟨front, rfl, hodd, -, -⟩ := scan_raw_eq_done_iff.mp hscan
    exact absurd (h front rest rfl) (Nat.not_even_iff_odd.mpr hodd)

/-- A text in which nothing ends it, and which does not end in an odd run itself, is ended by a NUL
and a line feed. -/
theorem scan_raw_append {bytes : Bytes} (h : Unended bytes) (heven : Even (nulRun bytes))
    (rest : Bytes) :
    rawReader.scan {} (bytes ++ Octet.nul :: Octet.lineFeed :: rest) =
      .done (Bytes.decode bytes) rest := by
  refine scan_raw_eq_done_iff.mpr ⟨bytes ++ [Octet.nul], by simp, ?_, unended_concat_nul.mpr h, ?_⟩
  · rw [nulRun_concat_nul]
    exact heven.add_one
  · rw [List.dropLast_concat]

end Frame

end Stomp
