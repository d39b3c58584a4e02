import Mathlib.Data.List.Nodup
import Stomp.Proofs.Frame.Reparsing

/-!
# Parsing and writing again

The parser takes the lines of a frame as they stand, so that a frame text can be got back from the
frame that it is parsed as. Three things are lost on the way: line feeds in front, whether a NUL
stands at the end, and a header line that repeats a name. Nothing else is, and what is written is
parsed as the same frame again.

* `parse_ok_iff` says which bytes are parsed at all: without line feeds in front and a NUL at the
  end they are a **frame text** (`IsFrameText`), which speaks of bytes and lines only.
* `unreadable_of_parse` says that all other bytes break a rule of frames or are not UTF-8.
* `parse_canonical` puts both together with the way back: the frame is written, what is written is
  parsed as the frame, and it is byte for byte what the frame was parsed from, if no header line
  repeats a name.
-/

namespace Stomp

open Utf8 (octets)

namespace Octet

/-- Ends the name of a header. -/
def colon : UInt8 := 0x3A

end Octet

/-- The bytes are the UTF-8 form of a text. -/
def Bytes.IsUtf8 (bytes : Bytes) : Prop := ∃ t : Text, t.SurrogateFree ∧ bytes = octets t

namespace Headers

theorem colon_mem_lineOf (e : Text × Text) : Octet.colon ∈ lineOf e :=
  (Utf8.ofNat_mem_octets_iff (a := CodePoint.ofChar ':') (by decide) _).mpr (by simp)

/-- Nothing is collected but what comes. -/
theorem mem_of_mem_collect {h : Headers} {entries : List (Text × Text)} {e : Text × Text}
    (he : e ∈ (h.collect entries).entries) : e ∈ h.entries ∨ e ∈ entries := by
  induction entries generalizing h with
  | nil => exact .inl he
  | cons e' entries ih =>
    rcases ih he with hmem | hmem
    · rw [entries_insertIfNew] at hmem
      split at hmem
      · exact .inl hmem
      · exact (List.mem_append.mp hmem).imp_right fun hmem =>
          List.mem_cons.mpr (.inl (List.mem_singleton.mp hmem))
    · exact .inr (List.mem_cons_of_mem _ hmem)

end Headers

namespace Frame

/-! ### Frame texts -/

/-- A line of a frame text, its line feed left off. -/
structure IsLine (line : Bytes) : Prop where
  isUtf8 : line.IsUtf8
  lineFeed_not_mem : Octet.lineFeed ∉ line

/-- **What a frame text looks like**: a command line that is not empty, header lines with a colon
in each, an empty line, and any bytes as body. -/
def IsFrameText (text : Bytes) : Prop :=
  ∃ word lines body, text = Bytes.unlines (word :: lines ++ [[]]) ++ body ∧
    word ≠ [] ∧ IsLine word ∧ ∀ line ∈ lines, IsLine line ∧ Octet.colon ∈ line

/-- The part of a header line before its first colon. -/
def nameOfLine (line : Bytes) : Bytes := line.takeWhile (· ≠ Octet.colon)

/-- The bytes with a NUL at their end, which is added if there is none. -/
def withFinalNul (data : Bytes) : Bytes :=
  if data.getLast? = some Octet.nul then data else data ++ [Octet.nul]

theorem isLine_octets_iff {t : Text} (ht : t.SurrogateFree) :
    IsLine (octets t) ↔ CodePoint.ofChar '\n' ∉ t :=
  ⟨fun h => mt (Utf8.lineFeed_mem_octets_iff t).mpr h.lineFeed_not_mem,
    fun h => ⟨⟨t, ht, rfl⟩, mt (Utf8.lineFeed_mem_octets_iff t).mp h⟩⟩

/-- A line with a colon is the line of a legible header. -/
theorem exists_legible_iff {line : Bytes} :
    (∃ e, Legible e ∧ line = Headers.lineOf e) ↔ IsLine line ∧ Octet.colon ∈ line := by
  constructor
  · rintro ⟨e, he, rfl⟩
    exact ⟨⟨⟨_, he.surrogateFree, rfl⟩, he.lineFeed_not_mem⟩, Headers.colon_mem_lineOf e⟩
  · rintro ⟨⟨⟨t, hfree, rfl⟩, hfeed⟩, hcolon⟩
    -- the first colon of the text is the one that ends the name
    cases hcut : cut? (CodePoint.ofChar ':') t with
    | none =>
      have hmem := (Utf8.ofNat_mem_octets_iff (a := CodePoint.ofChar ':') (by decide) t).mp hcolon
      exact absurd hmem (cut?_eq_none_iff.mp hcut)
    | some parts =>
      obtain ⟨name, value⟩ := parts
      obtain ⟨rfl, hname⟩ := cut?_eq_some_iff.mp hcut
      have hline := mt (Headers.lineFeed_mem_lineOf_iff (name, value)).mpr hfeed
      rw [not_or] at hline
      exact ⟨(name, value), ⟨⟨hname, hline.1, hline.2⟩, hfree⟩, rfl⟩

/-- The same for all header lines. -/
theorem exists_legibles_iff {lines : List Bytes} :
    (∃ entries : List (Text × Text),
        (∀ e ∈ entries, Legible e) ∧ lines = entries.map Headers.lineOf) ↔
      ∀ line ∈ lines, IsLine line ∧ Octet.colon ∈ line := by
  constructor
  · rintro ⟨entries, hentries, rfl⟩ line hline
    obtain ⟨e, he, rfl⟩ := List.mem_map.mp hline
    exact exists_legible_iff.mp ⟨e, hentries e he, rfl⟩
  · intro hlines
    induction lines with
    | nil => exact ⟨[], List.forall_mem_nil _, rfl⟩
    | cons line lines ih =>
      obtain ⟨e, he, rfl⟩ := exists_legible_iff.mpr (hlines line (List.mem_cons_self ..))
      obtain ⟨entries, hentries, rfl⟩ := ih fun l hl => hlines l (List.mem_cons_of_mem _ hl)
      exact ⟨e :: entries, List.forall_mem_cons.mpr ⟨he, hentries⟩, rfl⟩

/-- The name is the same in the line and in the header. -/
theorem Legible.nameOfLine_lineOf {e : Text × Text} (he : Legible e) :
    nameOfLine (Headers.lineOf e) = octets e.1 := by
  -- no byte of the name is a colon, as no code point of it is one
  have hname : ∀ b ∈ octets e.1, decide (b ≠ Octet.colon) = true := by
    rintro b hb
    refine decide_eq_true ?_
    rintro rfl
    exact he.onOneLine.colon_not_mem
      ((Utf8.ofNat_mem_octets_iff (a := CodePoint.ofChar ':') (by decide) _).mp hb)
  have hline : Headers.lineOf e = octets e.1 ++ Octet.colon :: octets e.2 := by
    rw [Headers.lineOf, Utf8.octets_append, Utf8.octets_cons]
    rfl
  rw [nameOfLine, hline, List.takeWhile_append_of_pos hname, List.takeWhile_cons_of_neg (by simp),
    List.append_nil]

/-! ### The two ends -/

theorem withoutFinalNul_prefix (data : Bytes) : withoutFinalNul data <+: data := by
  unfold withoutFinalNul
  split
  · exact List.dropLast_prefix data
  · exact List.prefix_rfl

/-- The NUL at the end is the same, taken off or added. -/
theorem withFinalNul_eq (data : Bytes) :
    withFinalNul data = withoutFinalNul data ++ [Octet.nul] := by
  unfold withFinalNul withoutFinalNul
  split
  · next hlast =>
    obtain ⟨front, rfl⟩ := List.getLast?_eq_some_iff.mp hlast
    rw [List.dropLast_concat]
  · rfl

/-- What is left without line feeds in front and a NUL at the end begins with no line feed. -/
theorem head?_withoutFinalNul_dropWhile_ne (data : Bytes) :
    (withoutFinalNul (data.dropWhile (· = Octet.lineFeed))).head? ≠ some Octet.lineFeed := by
  intro hhead
  obtain ⟨rest, hrest⟩ := List.head?_eq_some_iff.mp hhead
  -- it would begin what is left without line feeds in front
  obtain ⟨tail, htail⟩ := withoutFinalNul_prefix (data.dropWhile (· = Octet.lineFeed))
  have hfirst := List.head?_dropWhile_not (· = Octet.lineFeed) data
  rw [← htail, hrest] at hfirst
  simp at hfirst

/-! ### Which bytes are parsed -/

section

variable {data : Bytes} {f : Frame}

/-- The command of a parsed frame is not empty: an empty line in front is dropped. -/
theorem command_ne_nil_of_parse (h : parse data = .ok f) : f.command ≠ [] := by
  obtain ⟨-, -, entries, -, hkept, -⟩ := parse_eq_ok_iff.mp h
  intro hnil
  have hhead := head?_withoutFinalNul_dropWhile_ne data
  rw [hkept, hnil] at hhead
  exact hhead rfl

/-- The lines of a parsed frame tell it. -/
theorem wellLined_of_parse (h : parse data = .ok f) : f.WellLined := by
  obtain ⟨-, hline, entries, hentries, -, hheaders⟩ := parse_eq_ok_iff.mp h
  refine ⟨command_ne_nil_of_parse h, hline, fun e he => ?_⟩
  rw [hheaders] at he
  rcases Headers.mem_of_mem_collect he with he | he
  · simp at he
  · exact (hentries e he).onOneLine

/-- A parsed frame can be written. -/
theorem exists_toBytes_of_parse (h : parse data = .ok f) : ∃ wire, f.toBytes = .ok wire := by
  obtain ⟨hfree, -, entries, hentries, -, hheaders⟩ := parse_eq_ok_iff.mp h
  refine ⟨_, toBytes_eq_ok_iff.mpr ⟨surrogateFree_head_iff.mpr ⟨hfree, fun e he => ?_⟩, rfl⟩⟩
  -- every header comes from a line, and lines are UTF-8
  rw [hheaders] at he
  rcases Headers.mem_of_mem_collect he with he | he
  · simp at he
  · obtain ⟨hname, hvalue⟩ := Text.surrogateFree_append.mp (hentries e he).surrogateFree
    exact ⟨hname, fun c hc => hvalue c (List.mem_cons_of_mem _ hc)⟩

/-- **Written again, byte for byte**: if no header line repeats a name, a parsed frame is written as
what it was parsed from, without the line feeds in front and with a NUL at the end. -/
theorem toBytes_of_parse (h : parse data = .ok f)
    (hnames : ((headerLines data).map nameOfLine).Nodup) :
    f.toBytes = .ok (withFinalNul (data.dropWhile (· = Octet.lineFeed))) := by
  obtain ⟨wire, hwire⟩ := exists_toBytes_of_parse h
  obtain ⟨-, hline, entries, hentries, hkept, hheaders⟩ := parse_eq_ok_iff.mp h
  -- the header lines are those of the entries
  obtain ⟨tail, htail⟩ := withoutFinalNul_prefix (data.dropWhile (· = Octet.lineFeed))
  rw [hkept, List.append_assoc] at htail
  have hlines : headerLines data = entries.map Headers.lineOf := by
    refine headerLines_eq htail.symm (mt (Utf8.lineFeed_mem_octets_iff _).mp hline)
      fun line hmem => ?_
    obtain ⟨e, he, rfl⟩ := List.mem_map.mp hmem
    exact ⟨(hentries e he).lineFeed_not_mem, Headers.lineOf_ne_nil e⟩
  -- so no entry is lost when they are collected
  have hnodup : (entries.map Prod.fst).Nodup := by
    refine List.Nodup.of_map octets ?_
    have hsame : (entries.map Headers.lineOf).map nameOfLine =
        (entries.map Prod.fst).map octets := by
      rw [List.map_map, List.map_map]
      exact List.map_congr_left fun e he => (hentries e he).nameOfLine_lineOf
    rwa [← hsame, ← hlines]
  have hcollected : f.headers.entries = entries := by
    rw [hheaders, Headers.entries_collect (by simpa using hnodup)]
    rfl
  rw [hwire, eq_plainBytes_of_toBytes hwire, hcollected, withFinalNul_eq, hkept]
  rfl

/-- **Which bytes are parsed.** -/
theorem parse_ok_iff : (∃ f, parse data = .ok f) ↔
    IsFrameText (withoutFinalNul (data.dropWhile (· = Octet.lineFeed))) := by
  constructor
  · rintro ⟨f, h⟩
    obtain ⟨hfree, hline, entries, hentries, hkept, -⟩ := parse_eq_ok_iff.mp h
    exact ⟨octets f.command, entries.map Headers.lineOf, f.body, hkept,
      mt Utf8.octets_eq_nil_iff.mp (command_ne_nil_of_parse h), (isLine_octets_iff hfree).mpr hline,
      exists_legibles_iff.mp ⟨entries, hentries, rfl⟩⟩
  · rintro ⟨word, lines, body, hkept, -, hword, hlines⟩
    obtain ⟨command, hfree, rfl⟩ := hword.isUtf8
    obtain ⟨entries, hentries, rfl⟩ := exists_legibles_iff.mpr hlines
    exact ⟨⟨command, Headers.empty.collect entries, body⟩, parse_eq_ok_iff.mpr
      ⟨hfree, (isLine_octets_iff hfree).mp hword, entries, hentries, hkept, rfl⟩⟩

/-- The text breaks a rule of frames, or it is not UTF-8. -/
inductive Unreadable : Error → Prop
  | protocol (fault : ProtocolFault) : Unreadable (.protocol fault)
  | encoding (fault : EncodingFault) : Unreadable (.encoding fault)

theorem unreadable_of_decode {bytes : Bytes} {e : Error} (h : Bytes.decode bytes = .error e) :
    Unreadable e := by
  obtain ⟨malformed, -, rfl⟩ := Bytes.decode_eq_error_iff.mp h
  exact .encoding _

theorem unreadable_of_headerBlock {headers : Headers} {e : Error}
    (h : headerBlock headers data = .error e) : Unreadable e := by
  -- each line takes bytes away
  induction hlen : data.length using Nat.strongRecOn generalizing headers data with
  | ind len ih =>
    rw [headerBlock_eq] at h
    cases hcut : cut? Octet.lineFeed data with
    | none =>
      rw [hcut] at h
      cases h
      exact .protocol _
    | some parts =>
      obtain ⟨line, rest⟩ := parts
      have hshort : rest.length < len := hlen ▸ length_lt_of_cut? hcut
      cases line with
      | nil =>
        -- the empty line ends the block, and nothing can fail
        simp [hcut] at h
      | cons b line =>
        simp only [hcut, bind, Except.bind] at h
        cases hdecode : Bytes.decode (b :: line) with
        | error e' =>
          rw [hdecode] at h
          cases h
          exact unreadable_of_decode hdecode
        | ok text =>
          simp only [hdecode] at h
          split at h
          · cases h
            exact .protocol _
          · exact ih _ hshort h rfl

/-- **All other bytes** break a rule of frames or are not UTF-8. -/
theorem unreadable_of_parse {e : Error} (h : parse data = .error e) : Unreadable e := by
  unfold parse at h
  split at h
  · cases h
    exact .protocol _
  · next line rest _ =>
    simp only [bind, Except.bind] at h
    cases hdecode : Bytes.decode line with
    | error e' =>
      rw [hdecode] at h
      cases h
      exact unreadable_of_decode hdecode
    | ok command =>
      simp only [hdecode] at h
      cases hblock : headerBlock Headers.empty rest with
      | error e' =>
        rw [hblock] at h
        cases h
        exact unreadable_of_headerBlock hblock
      | ok parts => simp [hblock, pure, Except.pure] at h

/-- **Writing what was parsed.** A parsed frame is written as bytes that are parsed as the frame
again. If no header line repeats a name, these are the bytes that it was parsed from, without the
line feeds in front and with a NUL at the end. What is parsed are the frame texts, and all other
bytes break a rule of frames or are not UTF-8. -/
theorem parse_canonical (data : Bytes) :
    (∀ f, parse data = .ok f →
      (∃ wire, f.toBytes = .ok wire ∧ parse wire = .ok f) ∧
      (((headerLines data).map nameOfLine).Nodup →
        f.toBytes = .ok (withFinalNul (data.dropWhile (· = Octet.lineFeed))))) ∧
    ((∃ f, parse data = .ok f) ↔
      IsFrameText (withoutFinalNul (data.dropWhile (· = Octet.lineFeed)))) ∧
    (¬ IsFrameText (withoutFinalNul (data.dropWhile (· = Octet.lineFeed))) →
      ∃ e, parse data = .error e ∧ Unreadable e) := by
  refine ⟨fun f h => ⟨?_, toBytes_of_parse h⟩, parse_ok_iff, fun hnot => ?_⟩
  · -- whatever names are repeated, the lines that are written tell the frame
    obtain ⟨wire, hwire⟩ := exists_toBytes_of_parse h
    exact ⟨wire, hwire, (parse_eq_ok_iff_wellLined hwire).mpr (wellLined_of_parse h)⟩
  · cases hparse : parse data with
    | ok f => exact absurd (parse_ok_iff.mp ⟨f, hparse⟩) hnot
    | error e => exact ⟨e, rfl, unreadable_of_parse hparse⟩

/-- A frame of no known command, with an empty name and an empty value, and no NUL at its end. -/
def endless : Bytes := octets "\n\nÉ\r\n:\na:b:c\n\n" ++ [0, 10]

theorem parse_endless :
    ∃ f, parse endless = .ok f ∧
      f.toBytes = .ok (octets "É\r\n:\na:b:c\n\n" ++ [0, 10, 0]) ∧
      parse (octets "É\r\n:\na:b:c\n\n" ++ [0, 10, 0]) = .ok f := by
  have hutf8 : ∀ s : String, (octets s).IsUtf8 := fun s =>
    ⟨s, Text.surrogateFree_ofString s, rfl⟩
  have htext : IsFrameText (withoutFinalNul (endless.dropWhile (· = Octet.lineFeed))) := by
    refine ⟨octets "É\r", [octets ":", octets "a:b:c"], [0, 10], by decide +kernel,
      by decide +kernel, ⟨hutf8 _, by decide +kernel⟩, ?_⟩
    simp only [List.forall_mem_cons]
    exact ⟨⟨⟨hutf8 _, by decide +kernel⟩, by decide +kernel⟩,
      ⟨⟨hutf8 _, by decide +kernel⟩, by decide +kernel⟩, List.forall_mem_nil _⟩
  have h := parse_canonical endless
  obtain ⟨f, hparse⟩ := h.2.1.mpr htext
  -- no name is repeated, so the bytes come back
  obtain ⟨⟨wire, hwire, hagain⟩, hsame⟩ := h.1 f hparse
  have hbytes : withFinalNul (endless.dropWhile (· = Octet.lineFeed)) =
      octets "É\r\n:\na:b:c\n\n" ++ [0, 10, 0] := by decide +kernel
  rw [hsame (by decide +kernel), hbytes] at hwire
  cases hwire
  exact ⟨f, hparse, hbytes ▸ hsame (by decide +kernel), hagain⟩

end

end Frame

end Stomp
