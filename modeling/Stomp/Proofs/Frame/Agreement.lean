import Stomp.Proofs.Frame.Layout
import Stomp.Proofs.Frame.Parsing

/-!
# Where the two ways to read a frame agree

A frame can be decoded byte by byte, which knows the commands, has limits and finds the end of the
body, or it can be parsed from bytes at hand, which takes any word as command and ends the body
where the bytes end. Before 1.1 both read the same lines: `plainBytes n f entries` are the bytes of
the frame `f` with `n` line feeds in front and with header lines that may repeat a name.

Each way is taken to these bytes. `parse_eq_ok_iff_plainBytes` is for the parser, on bytes that end
in a NUL, and `exists_layout_iff_plainBytes` for the decoder, through `Layout`. The main statement,
`read_agrees_with_parse`, is what is left between the two: what the decoder reads is parsed as the
same frame, and what is parsed is decoded if and only if its parts pass the decoder's checks.
-/

namespace Stomp

open Utf8 (octets)

/-- Lines in front are split off, one part each. -/
theorem split_unlines_append {lines : List Bytes}
    (hlines : ∀ line ∈ lines, Octet.lineFeed ∉ line) (later : Bytes) :
    split Octet.lineFeed (Bytes.unlines lines ++ later) = lines ++ split Octet.lineFeed later := by
  induction lines with
  | nil => rfl
  | cons line lines ih =>
    -- the lines behind this one are split off by the induction on the lines
    have hrest := ih fun l hl => hlines l (List.mem_cons_of_mem _ hl)
    have hline := hlines line (List.mem_cons_self ..)
    rw [Bytes.unlines_cons, List.append_assoc, List.cons_append, List.cons_append]
    -- the line is walked over byte by byte
    clear ih hlines
    induction line with
    | nil => rw [List.nil_append, split, if_pos rfl, hrest]
    | cons b line ih =>
      rw [List.mem_cons, not_or] at hline
      rw [List.cons_append, split, if_neg (Ne.symm hline.1), ih hline.2]

namespace Dialect

/-- Before 1.1 all of a line counts. -/
@[simp] theorem trimLine_v10 (line : Bytes) : Dialect.v10.trimLine line = line :=
  trimLine_of_getLast?_ne nofun

/-- Header text is read as it stands. -/
@[simp] theorem readAs_v10 (c : Command) (t : Text) : Dialect.v10.readAs c t = some t := by
  unfold readAs
  split <;> rfl

theorem blank_v10_iff {line : Bytes} : Dialect.v10.Blank line ↔ line = [] := by
  constructor
  · intro h
    rw [← trimLine_v10 line, h.trimLine_eq]
  · rintro rfl
    exact ⟨List.not_mem_nil, trimLine_v10 []⟩

end Dialect

/-- Lines that are empty are line feeds alone. -/
theorem Bytes.unlines_eq_replicate {lines : List Bytes} (h : ∀ line ∈ lines, line = []) :
    Bytes.unlines lines = List.replicate lines.length Octet.lineFeed := by
  rw [List.eq_replicate_of_mem h, List.length_replicate, Bytes.unlines, List.flatMap_replicate]
  simp

namespace Frame

/-- The lines after the first and up to an empty line, line feeds in front aside. -/
def headerLines (data : Bytes) : List Bytes :=
  (split Octet.lineFeed (data.dropWhile (· = Octet.lineFeed))).tail.takeWhile (· ≠ [])

/-- The bytes of a frame before 1.1: line feeds, the command, a line for each entry, an empty line,
the body and a NUL. -/
def plainBytes (n : Nat) (f : Frame) (entries : List (Text × Text)) : Bytes :=
  List.replicate n Octet.lineFeed ++
    (Bytes.unlines (octets f.command :: entries.map Headers.lineOf ++ [[]]) ++ f.body ++
      [Octet.nul])

/-- Before 1.1 a header line is the line of a legible header, if it is not too long. -/
theorem headerLine_v10_iff {c : Command} {line : Bytes} {e : Text × Text} :
    Dialect.v10.HeaderLine c line e ↔
      Legible e ∧ line = Headers.lineOf e ∧ line.length ≤ maxHeaderLength := by
  constructor
  · rintro ⟨hfeed, hlength, name, value, hdecode, hcolon, hname, hvalue⟩
    rw [Dialect.readAs_v10, Option.some.injEq] at hname hvalue
    subst hname hvalue
    rw [Dialect.trimLine_v10] at hdecode
    obtain ⟨hfree, hoctets⟩ := Utf8.decode_eq_ok_iff.mp hdecode
    have hline : line = Headers.lineOf e := hoctets
    rw [hline, Headers.lineFeed_mem_lineOf_iff, not_or] at hfeed
    exact ⟨⟨⟨hcolon, hfeed.1, hfeed.2⟩, hfree⟩, hline, hlength⟩
  · rintro ⟨hlegible, rfl, hlength⟩
    refine ⟨hlegible.lineFeed_not_mem, hlength, e.1, e.2, ?_, hlegible.onOneLine.colon_not_mem,
      Dialect.readAs_v10 .., Dialect.readAs_v10 ..⟩
    rw [Dialect.trimLine_v10]
    exact Utf8.decode_eq_ok_iff.mpr ⟨hlegible.surrogateFree, rfl⟩

section PlainBytes

variable {data : Bytes} {f : Frame} {entries : List (Text × Text)} {n : Nat}

/-- The command comes first, once the line feeds are dropped. -/
theorem dropWhile_plainBytes (hcommand : f.command ≠ [])
    (hline : CodePoint.ofChar '\n' ∉ f.command) :
    (plainBytes n f entries).dropWhile (· = Octet.lineFeed) = plainBytes 0 f entries := by
  have hfeed : Octet.lineFeed ∉ octets f.command :=
    mt (Utf8.lineFeed_mem_octets_iff _).mp hline
  -- the command begins with a byte that is no line feed, so the dropping stops there
  obtain ⟨b, word, hword⟩ := List.exists_cons_of_ne_nil (mt Utf8.octets_eq_nil_iff.mp hcommand)
  have hb : b ≠ Octet.lineFeed := by
    rintro rfl
    rw [hword] at hfeed
    exact hfeed (List.mem_cons_self ..)
  unfold plainBytes
  rw [List.dropWhile_append_of_pos fun c hc => by simp [List.eq_of_mem_replicate hc], hword]
  simp [hb]

/-- All lines after the first count, up to an empty one. -/
theorem headerLines_eq {word later : Bytes} {lines : List Bytes}
    (hdata : data.dropWhile (· = Octet.lineFeed) = Bytes.unlines (word :: lines ++ [[]]) ++ later)
    (hword : Octet.lineFeed ∉ word)
    (hlines : ∀ line ∈ lines, Octet.lineFeed ∉ line ∧ line ≠ []) : headerLines data = lines := by
  -- every line is free of line feeds, so it is split off as one part
  have hfeed : ∀ line ∈ word :: lines ++ [[]], Octet.lineFeed ∉ line := by
    intro line hmem
    rw [List.cons_append, List.mem_cons, List.mem_append, List.mem_singleton] at hmem
    rcases hmem with rfl | hmem | rfl
    · exact hword
    · exact (hlines line hmem).1
    · exact List.not_mem_nil
  have hheader : ∀ line ∈ lines, decide (line ≠ []) = true := fun line hmem =>
    decide_eq_true (hlines line hmem).2
  unfold headerLines
  rw [hdata, split_unlines_append hfeed]
  simp only [List.cons_append, List.tail_cons, List.append_assoc, List.nil_append]
  rw [List.takeWhile_append_of_pos hheader]
  simp

theorem headerLines_plainBytes (hcommand : f.command ≠ [])
    (hline : CodePoint.ofChar '\n' ∉ f.command) (hentries : ∀ e ∈ entries, Legible e) :
    headerLines (plainBytes n f entries) = entries.map Headers.lineOf := by
  have hdata : (plainBytes n f entries).dropWhile (· = Octet.lineFeed) =
      Bytes.unlines (octets f.command :: entries.map Headers.lineOf ++ [[]]) ++
        (f.body ++ [Octet.nul]) := by
    rw [dropWhile_plainBytes hcommand hline, plainBytes, List.replicate_zero, List.nil_append,
      List.append_assoc]
  refine headerLines_eq hdata (mt (Utf8.lineFeed_mem_octets_iff _).mp hline) fun line hmem => ?_
  obtain ⟨e, he, rfl⟩ := List.mem_map.mp hmem
  exact ⟨(hentries e he).lineFeed_not_mem, Headers.lineOf_ne_nil e⟩

/-- **What the parser reads, of bytes that end in a NUL.** -/
theorem parse_eq_ok_iff_plainBytes :
    (parse data = .ok f ∧ data.getLast? = some Octet.nul) ↔
      f.command.SurrogateFree ∧ f.command ≠ [] ∧ CodePoint.ofChar '\n' ∉ f.command ∧
      ∃ n entries, (∀ e ∈ entries, Legible e) ∧ data = plainBytes n f entries ∧
        f.headers = Headers.empty.collect entries := by
  rw [parse_eq_ok_iff]
  constructor
  · rintro ⟨⟨hfree, hline, entries, hentries, hkept, hheaders⟩, hnul⟩
    -- the NUL is no line feed, so it is still there once these are dropped
    obtain ⟨front, rfl⟩ := List.getLast?_eq_some_iff.mp hnul
    have hdrop : (front ++ [Octet.nul]).dropWhile (· = Octet.lineFeed) =
        front.dropWhile (· = Octet.lineFeed) ++ [Octet.nul] := by
      rw [List.dropWhile_append]
      split
      · next hempty =>
        rw [List.isEmpty_iff.mp hempty]
        rfl
      · rfl
    rw [hdrop, withoutFinalNul, if_pos List.getLast?_concat, List.dropLast_concat] at hkept
    -- what was dropped are line feeds
    obtain ⟨n, hfeeds⟩ : ∃ n, front.takeWhile (· = Octet.lineFeed) =
        List.replicate n Octet.lineFeed :=
      ⟨_, List.eq_replicate_of_mem fun b hb => by
        simpa using List.all_eq_true.mp List.all_takeWhile b hb⟩
    refine ⟨hfree, ?_, hline, n, entries, hentries, ?_, hheaders⟩
    · -- an empty command line would have been dropped with the line feeds in front
      intro hnil
      have hhead : ∀ b ∈ (front.dropWhile (· = Octet.lineFeed)).head?, b ≠ Octet.lineFeed := by
        intro b hb
        have := List.head?_dropWhile_not (· = Octet.lineFeed) front
        rw [hb] at this
        simpa using this
      rw [hkept, hnil] at hhead
      exact hhead Octet.lineFeed rfl rfl
    · unfold plainBytes
      rw [← hfeeds, ← hkept, ← List.append_assoc, List.takeWhile_append_dropWhile]
  · rintro ⟨hfree, hcommand, hline, n, entries, hentries, rfl, hheaders⟩
    have hlast : (plainBytes 0 f entries).getLast? = some Octet.nul := List.getLast?_concat
    refine ⟨⟨hfree, hline, entries, hentries, ?_, hheaders⟩, ?_⟩
    · rw [dropWhile_plainBytes hcommand hline, withoutFinalNul, if_pos hlast]
      exact List.dropLast_concat
    · unfold plainBytes
      rw [← List.append_assoc]
      exact List.getLast?_concat

/-- **What the decoder reads before 1.1.** -/
theorem exists_layout_iff_plainBytes :
    (∃ l : Layout .v10 f, data = l.bytes) ↔
      (∃ c : Command, f.command = c.name) ∧
      ∃ n entries, (∀ e ∈ entries, Legible e ∧ (Headers.lineOf e).length ≤ maxHeaderLength) ∧
        entries.length ≤ maxHeaders ∧ data = plainBytes n f entries ∧
        f.headers = Headers.empty.collect entries ∧ f.body.length ≤ maxBodyLength ∧
        f.headers.Delimits f.body := by
  constructor
  · rintro ⟨l, rfl⟩
    -- a layout before 1.1: blank lines are empty, and lines are those of their headers
    have hblanks : ∀ line ∈ l.blanks, line = [] := fun line hline =>
      Dialect.blank_v10_iff.mp (l.blanks_blank line hline)
    have hlast : l.last = [] := Dialect.blank_v10_iff.mp l.last_blank
    have hword : l.word = octets f.command := by
      rw [l.command_eq, ← l.word_eq, Dialect.trimLine_v10]
    have hlines : l.lines.map Prod.fst = (l.lines.map Prod.snd).map Headers.lineOf := by
      rw [List.map_map]
      exact List.map_congr_left fun line hline =>
        (headerLine_v10_iff.mp (l.lines_read line hline)).2.1
    refine ⟨⟨l.command, l.command_eq⟩, l.blanks.length, l.lines.map Prod.snd, ?_, ?_, ?_,
      l.headers_eq, l.body_length_le, l.body_delimited⟩
    · intro e he
      obtain ⟨line, hline, rfl⟩ := List.mem_map.mp he
      obtain ⟨hlegible, hlineOf, hlength⟩ := headerLine_v10_iff.mp (l.lines_read line hline)
      exact ⟨hlegible, hlineOf ▸ hlength⟩
    · rw [List.length_map]
      exact l.lines_length_le
    · unfold Layout.bytes plainBytes
      rw [hword, hlines, hlast, List.append_assoc l.blanks, Bytes.unlines_append,
        Bytes.unlines_eq_replicate hblanks]
      simp only [List.append_assoc]
  · rintro ⟨⟨c, hc⟩, n, entries, hentries, hcount, rfl, hheaders, hbody, hdelimits⟩
    have hblanks : ∀ line ∈ List.replicate n ([] : Bytes), line = [] := fun _ =>
      List.eq_of_mem_replicate
    refine ⟨{
      blanks := List.replicate n []
      command := c
      word := octets f.command
      lines := entries.map fun e => (Headers.lineOf e, e)
      last := []
      blanks_blank := fun line hline => Dialect.blank_v10_iff.mpr (hblanks line hline)
      command_eq := hc
      word_eq := by rw [Dialect.trimLine_v10, hc]
      lines_read := by
        intro line hline
        obtain ⟨e, he, rfl⟩ := List.mem_map.mp hline
        exact headerLine_v10_iff.mpr ⟨(hentries e he).1, rfl, (hentries e he).2⟩
      lines_length_le := by rwa [List.length_map]
      headers_eq := by simpa [Function.comp_def] using hheaders
      last_blank := Dialect.blank_v10_iff.mpr rfl
      body_length_le := hbody
      body_delimited := hdelimits }, ?_⟩
    have hlines : (entries.map fun e => (Headers.lineOf e, e)).map Prod.fst =
        entries.map Headers.lineOf := by simp
    show plainBytes n f entries = Bytes.unlines (List.replicate n [] ++ octets f.command ::
      (entries.map fun e => (Headers.lineOf e, e)).map Prod.fst ++ [[]]) ++ f.body ++ [Octet.nul]
    rw [hlines, List.append_assoc (List.replicate n []), Bytes.unlines_append,
      Bytes.unlines_eq_replicate hblanks, List.length_replicate]
    simp only [plainBytes, List.append_assoc, List.cons_append]

end PlainBytes

/-- **The two ways to read a frame agree before 1.1.** A frame that the decoder reads from bytes,
taking all of them, is what these bytes are parsed as. A frame that bytes with a NUL at their end
are parsed as is decoded from them, all of them taken, if and only if its command is known, its
header lines are neither too long nor too many, and its body is not too long and ends where the
headers say. -/
theorem read_agrees_with_parse {version : Text} {v : Version}
    (hversion : Version.parse? version = some v) (hv : v < ⟨[1, 1]⟩) {cap : Option Nat}
    (hcap : cap ≠ some 0) (data : Bytes) (f : Frame) :
    (Frame.read version (⟨data, cap⟩ : Memory) = (.ok f, ⟨[], cap⟩) → parse data = .ok f) ∧
      (parse data = .ok f → data.getLast? = some Octet.nul →
        (Frame.read version (⟨data, cap⟩ : Memory) = (.ok f, ⟨[], cap⟩) ↔
          (∃ c : Command, f.command = c.name) ∧
          (∀ line ∈ headerLines data, line.length ≤ 10240) ∧
          (headerLines data).length ≤ 1000 ∧
          f.body.length ≤ 104857600 ∧
          f.headers.Delimits f.body)) := by
  have hread : Frame.read version (⟨data, cap⟩ : Memory) = (.ok f, ⟨[], cap⟩) ↔
      ∃ l : Layout .v10 f, data = l.bytes := by
    rw [read_memory_eq_ok_iff hversion hcap, Version.dialect_eq_v10_iff.mpr hv]
    simp only [List.append_nil]
  rw [hread, exists_layout_iff_plainBytes]
  constructor
  · rintro ⟨⟨c, hc⟩, n, entries, hentries, -, hdata, hheaders, -, -⟩
    obtain ⟨hfree, ⟨hfeed, -⟩, hne, -⟩ := Decoder.octets_name c
    rw [← hc] at hfree hfeed hne
    -- a command of the protocol is a line of its own, as the parser wants it
    refine (parse_eq_ok_iff_plainBytes.mpr ⟨hfree, ?_, ?_, n, entries, fun e he =>
      (hentries e he).1, hdata, hheaders⟩).1
    · exact mt Utf8.octets_eq_nil_iff.mpr hne
    · exact mt (Utf8.lineFeed_mem_octets_iff _).mpr hfeed
  · intro hparse hnul
    obtain ⟨-, hcommand, hline, n, entries, hentries, rfl, hheaders⟩ :=
      parse_eq_ok_iff_plainBytes.mp ⟨hparse, hnul⟩
    constructor
    · -- the bytes tell their header lines, whichever entries the decoder has found
      rintro ⟨hc, m, others, hothers, hcount, hdata, -, hbody, hdelimits⟩
      have hlines := headerLines_plainBytes hcommand hline (n := m) fun e he => (hothers e he).1
      rw [hdata, hlines, List.length_map]
      refine ⟨hc, fun line hmem => ?_, hcount, hbody, hdelimits⟩
      obtain ⟨e, he, rfl⟩ := List.mem_map.mp hmem
      exact (hothers e he).2
    · rw [headerLines_plainBytes hcommand hline hentries, List.length_map]
      rintro ⟨hc, hlength, hcount, hbody, hdelimits⟩
      exact ⟨hc, n, entries, fun e he => ⟨hentries e he, hlength _ (List.mem_map_of_mem he)⟩,
        hcount, rfl, hheaders, hbody, hdelimits⟩

/-- Headers with an empty name among them. -/
def namelessHeaders : Headers where
  entries := [("a", "1"), ("", "x"), ("content-length", "2")]
  nodup := by decide +kernel

/-- A message with these headers and with a NUL in its body. -/
def ofNoName : Frame := ⟨"MESSAGE", namelessHeaders, [0, 10]⟩

/-- Line feeds come before it, and a line repeats a name. -/
def bytesOfNoName : Bytes := octets "\n\nMESSAGE\na:1\n:x\ncontent-length:2\na:2\n\n" ++ [0, 10, 0]

theorem parse_bytesOfNoName :
    Version.parse? "1.0.9" = some ⟨[1, 0, 9]⟩ ∧
      Frame.read "1.0.9" (⟨bytesOfNoName, some 3⟩ : Memory) = (.ok ofNoName, ⟨[], some 3⟩) ∧
      parse bytesOfNoName = .ok ofNoName ∧
      (∃ c : Command, ofNoName.command = c.name) ∧
      (∀ line ∈ headerLines bytesOfNoName, line.length ≤ 10240) ∧
      (headerLines bytesOfNoName).length ≤ 1000 ∧
      ofNoName.body.length ≤ 104857600 ∧ ofNoName.headers.Delimits ofNoName.body := by
  have hversion : Version.parse? "1.0.9" = some ⟨[1, 0, 9]⟩ := by decide +kernel
  have hcap : some 3 ≠ some 0 := by decide
  have hread : Frame.read "1.0.9" (⟨bytesOfNoName, some 3⟩ : Memory) =
      (.ok ofNoName, ⟨[], some 3⟩) := by
    rw [read_memory hversion hcap]
    decide +kernel
  have h := read_agrees_with_parse hversion (by decide) hcap bytesOfNoName ofNoName
  have hparse := h.1 hread
  exact ⟨hversion, hread, hparse, (h.2 hparse (by decide +kernel)).mp hread⟩

end Frame

end Stomp
