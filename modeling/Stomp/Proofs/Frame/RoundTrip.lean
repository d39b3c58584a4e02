import Stomp.Proofs.Frame.Layout
import Stomp.Proofs.Headers.Escape

/-!
# Frames that come back from the wire

`Frame.toBytes` writes a frame and escapes nothing; the decoder unescapes, drops carriage returns
and repeated names, and keeps to its limits. Two statements say how the two fit together:

* `read_toBytes_append_iff` — a frame is read back as it was if and only if it is `Sendable`: the
  conditions are on the frame alone, one for each thing that the decoder does and the writer does
  not;
* `read_written_append` — what a peer writes that does escape, with any line ends its dialect
  allows, is read back whatever its header texts hold.

The "only if" half of the first is an argument on lengths, and looks at no line by itself. A line
feed or a backslash inside a value changes where the lines are, so that the lines which are read
need not be the lines that were written. But every header line is at least as long as the line of
the header that it is read as (`HeaderLine.length_lineOf_le`), and a line that is longer, or
that repeats a name, or that is blank, makes the whole longer. Header block and headers agree in
length only if every line is, byte for byte, the line of its header, and none is lost
(`length_unlines_of_collect`).
-/

namespace Stomp

open Utf8 (octets octets_append octets_cons)

/-! ### Lengths of header blocks -/

/-- The line of a header as it is written, without its line feed. -/
def Headers.lineOf (e : Text × Text) : Bytes := octets (e.1 ++ CodePoint.ofChar ':' :: e.2)

/-- The number of bytes that headers take, line feeds included. -/
def Headers.weight (entries : List (Text × Text)) : Nat :=
  (Bytes.unlines (entries.map Headers.lineOf)).length

@[simp] theorem Headers.weight_nil : Headers.weight [] = 0 := rfl

@[simp] theorem Headers.weight_cons (e : Text × Text) (entries : List (Text × Text)) :
    Headers.weight (e :: entries) = (Headers.lineOf e).length + 1 + Headers.weight entries := by
  rw [Headers.weight, List.map_cons, Bytes.unlines_cons, List.length_append, List.length_cons,
    Headers.weight]
  omega

@[simp] theorem Headers.weight_append (entries others : List (Text × Text)) :
    Headers.weight (entries ++ others) = Headers.weight entries + Headers.weight others := by
  simp [Headers.weight]

theorem Headers.length_lineOf (e : Text × Text) :
    (Headers.lineOf e).length = (octets e.1).length + 1 + (octets e.2).length := by
  have hcolon : (Utf8.encodePoint (CodePoint.ofChar ':')).length = 1 := rfl
  rw [Headers.lineOf, octets_append, octets_cons, List.length_append, List.length_append, hcolon]
  omega

namespace Dialect

variable {d : Dialect} {c : Command}

/-- Header text is at least as long as what it is read as, and holds no escape if both are equally
long. -/
theorem length_octets_of_readAs {t u : Text} (h : d.readAs c t = some u) :
    (octets u).length ≤ (octets t).length ∧
      ((octets u).length = (octets t).length →
        t = u ∧ (d ≠ .v10 → c.isHandshake = false → CodePoint.ofChar '\\' ∉ u)) := by
  unfold readAs at h
  split at h
  · -- in the handshake nothing is an escape
    next hhandshake =>
    obtain rfl := Option.some.inj h
    refine ⟨Nat.le_refl _, fun _ => ⟨rfl, fun _ hfalse => ?_⟩⟩
    rw [hhandshake] at hfalse
    simp at hfalse
  · refine ⟨length_octets_le_of_unescape? h, fun hlength => ?_⟩
    by_cases hd : d = .v10
    · subst hd
      obtain rfl := Option.some.inj h
      exact ⟨rfl, fun hd => absurd rfl hd⟩
    · -- an escape would have made it shorter
      have hback : CodePoint.ofChar '\\' ∉ t := fun hmem => by
        have := length_octets_lt_of_unescape? hd h hmem
        omega
      rw [unescape?_of_not_mem d hback] at h
      obtain rfl := Option.some.inj h
      exact ⟨rfl, fun _ _ => hback⟩

/-- A header line that is, byte for byte, the line of the header that it is read as. -/
structure ExactLine (d : Dialect) (c : Command) (e : Text × Text) : Prop where
  colon_not_mem : CodePoint.ofChar ':' ∉ e.1
  lineFeed_not_mem : CodePoint.ofChar '\n' ∉ e.1 ∧ CodePoint.ofChar '\n' ∉ e.2
  length_le : (Headers.lineOf e).length ≤ Frame.maxHeaderLength
  backslash_not_mem : d ≠ .v10 → c.isHandshake = false →
    CodePoint.ofChar '\\' ∉ e.1 ∧ CodePoint.ofChar '\\' ∉ e.2
  getLast?_ne : d = .v12 → e.2.getLast? ≠ some (CodePoint.ofChar '\r')

/-- Header text that holds no escape is read as it stands. -/
theorem readAs_of_not_mem {t : Text}
    (h : d ≠ .v10 → c.isHandshake = false → CodePoint.ofChar '\\' ∉ t) : d.readAs c t = some t := by
  unfold readAs
  split
  · rfl
  · next hhandshake =>
    by_cases hd : d = .v10
    · subst hd
      rfl
    · exact unescape?_of_not_mem d (h hd (by simpa using hhandshake))

/-- A value ends in a carriage return exactly if its line does. -/
theorem getLast?_lineOf_eq_iff (e : Text × Text) :
    (Headers.lineOf e).getLast? = some Octet.carriageReturn ↔
      e.2.getLast? = some (CodePoint.ofChar '\r') := by
  have hlast := Utf8.getLast?_octets_eq_iff (a := CodePoint.ofChar '\r') (by decide)
    (e.1 ++ CodePoint.ofChar ':' :: e.2)
  refine hlast.trans ?_
  -- the colon is the last only if the value is empty
  rw [List.getLast?_append_of_ne_nil _ (List.cons_ne_nil _ _), List.getLast?_cons]
  cases e.2.getLast? with
  | none => simp; decide
  | some a => simp

/-- An exact line is read as its header. -/
theorem ExactLine.headerLine {e : Text × Text} (h : d.ExactLine c e)
    (hsurrogate : ∀ p ∈ e.1 ++ CodePoint.ofChar ':' :: e.2, ¬ p.IsSurrogate) :
    d.HeaderLine c (Headers.lineOf e) e where
  lineFeed_not_mem := by
    intro hmem
    -- a line feed in the line is one in the texts
    rw [Headers.lineOf] at hmem
    have := (Utf8.lineFeed_mem_octets_iff _).mp hmem
    rw [List.mem_append, List.mem_cons] at this
    rcases this with hname | hcolon | hvalue
    · exact h.lineFeed_not_mem.1 hname
    · exact absurd hcolon (by decide)
    · exact h.lineFeed_not_mem.2 hvalue
  length_le := h.length_le
  reads := by
    have htrim : d.trimLine (Headers.lineOf e) = Headers.lineOf e :=
      trimLine_of_getLast?_ne fun hd hlast => h.getLast?_ne hd ((getLast?_lineOf_eq_iff e).mp hlast)
    refine ⟨e.1, e.2, ?_, h.colon_not_mem, ?_, ?_⟩
    · rw [htrim]
      exact Utf8.decode_eq_ok_iff.mpr ⟨hsurrogate, rfl⟩
    · exact readAs_of_not_mem fun hd hc => (h.backslash_not_mem hd hc).1
    · exact readAs_of_not_mem fun hd hc => (h.backslash_not_mem hd hc).2

/-- **No line is shorter than the line of its header**, and if it is equally long it is that
line. -/
theorem HeaderLine.length_lineOf_le {line : Bytes} {e : Text × Text} (h : d.HeaderLine c line e) :
    (Headers.lineOf e).length ≤ line.length ∧
      ((Headers.lineOf e).length = line.length → line = Headers.lineOf e ∧ d.ExactLine c e) := by
  obtain ⟨name, value, hdecode, hcolon, hname, hvalue⟩ := h.reads
  have htrim : d.trimLine line = octets (name ++ CodePoint.ofChar ':' :: value) :=
    (Utf8.decode_eq_ok_iff.mp hdecode).2
  have hwritten : (d.trimLine line).length = (octets name).length + 1 + (octets value).length := by
    rw [htrim]
    exact Headers.length_lineOf (name, value)
  have hshort := (length_trimLine d line).1
  obtain ⟨hnameLe, hnameEq⟩ := length_octets_of_readAs hname
  obtain ⟨hvalueLe, hvalueEq⟩ := length_octets_of_readAs hvalue
  rw [Headers.length_lineOf]
  -- reading the two texts and trimming the line each take bytes away, or none
  have hle : (octets e.1).length + 1 + (octets e.2).length ≤ line.length :=
    calc (octets e.1).length + 1 + (octets e.2).length
        ≤ (octets name).length + 1 + (octets value).length := by omega
      _ = (d.trimLine line).length := hwritten.symm
      _ ≤ line.length := hshort
  refine ⟨hle, fun hlength => ?_⟩
  -- nothing was lost anywhere
  obtain ⟨hname', hnameBack⟩ := hnameEq (by omega)
  obtain ⟨hvalue', hvalueBack⟩ := hvalueEq (by omega)
  subst hname' hvalue'
  have hkept : d.trimLine line = line := by
    rcases eq_trimLine_or d line with heq | ⟨-, heq⟩
    · exact heq.symm
    · -- a carriage return that is dropped is a byte that is lost
      have := congrArg List.length heq
      rw [List.length_append, List.length_singleton] at this
      omega
  have hline : line = Headers.lineOf e := by rw [← hkept, htrim, Headers.lineOf]
  -- the line holds no line feed, so its texts hold none
  have hfeed : CodePoint.ofChar '\n' ∉ e.1 ++ CodePoint.ofChar ':' :: e.2 := by
    intro hmem
    refine h.lineFeed_not_mem ?_
    rw [hline]
    exact (Utf8.lineFeed_mem_octets_iff _).mpr hmem
  rw [List.mem_append, List.mem_cons, not_or, not_or] at hfeed
  refine ⟨hline, hcolon, ⟨hfeed.1, hfeed.2.2⟩, ?_, ?_, ?_⟩
  · rw [← hline]
    exact h.length_le
  · exact fun hd hc => ⟨hnameBack hd hc, hvalueBack hd hc⟩
  · intro hd hlast
    -- the line end would have been dropped
    rw [← getLast?_lineOf_eq_iff, ← hline] at hlast
    have := congrArg List.length hkept
    rw [trimLine, if_pos ⟨hd, hlast⟩, List.length_dropLast] at this
    have hpos : 0 < line.length := List.length_pos_of_mem (List.mem_of_getLast? hlast)
    omega

end Dialect

/-- Adding a header adds its line, or nothing if the name is there already. -/
theorem Headers.weight_insertIfNew (h : Headers) (e : Text × Text) :
    Headers.weight (h.insertIfNew e.1 e.2).entries ≤
        Headers.weight h.entries + (Headers.lineOf e).length + 1 ∧
      (Headers.weight (h.insertIfNew e.1 e.2).entries =
          Headers.weight h.entries + (Headers.lineOf e).length + 1 →
        (h.insertIfNew e.1 e.2).entries = h.entries ++ [e]) := by
  obtain ⟨name, value⟩ := e
  rw [Headers.entries_insertIfNew]
  split
  · -- the name is there, and the line is lost
    exact ⟨by omega, fun hlength => by omega⟩
  · simp only [Headers.weight_append, Headers.weight_cons, Headers.weight_nil]
    exact ⟨by omega, fun _ => trivial⟩

/-- **Header lines are at least as long as their headers**, and if they are equally long, each line
is the line of its header and no name came twice. -/
theorem Headers.length_unlines_of_collect {d : Dialect} {c : Command} (h : Headers)
    {lines : List (Bytes × (Text × Text))} (hlines : ∀ l ∈ lines, d.HeaderLine c l.1 l.2) :
    Headers.weight (h.collect (lines.map Prod.snd)).entries ≤
        Headers.weight h.entries + (Bytes.unlines (lines.map Prod.fst)).length ∧
      (Headers.weight (h.collect (lines.map Prod.snd)).entries =
          Headers.weight h.entries + (Bytes.unlines (lines.map Prod.fst)).length →
        (h.collect (lines.map Prod.snd)).entries = h.entries ++ lines.map Prod.snd ∧
          ∀ l ∈ lines, d.ExactLine c l.2) := by
  induction lines generalizing h with
  | nil => simp
  | cons l lines ih =>
    obtain ⟨hle, heq⟩ := ih (h.insertIfNew l.2.1 l.2.2) fun l' hl' =>
      hlines l' (List.mem_cons_of_mem _ hl')
    obtain ⟨hlineLe, hlineEq⟩ := (hlines l (List.mem_cons_self ..)).length_lineOf_le
    obtain ⟨hinsertLe, hinsertEq⟩ := Headers.weight_insertIfNew h l.2
    rw [List.map_cons, List.map_cons, Headers.collect_cons, Bytes.unlines_cons, List.length_append,
      List.length_cons]
    -- the headers of the other lines, then the header of this line, then this line
    have hwhole :=
      calc Headers.weight ((h.insertIfNew l.2.1 l.2.2).collect (lines.map Prod.snd)).entries
          ≤ Headers.weight (h.insertIfNew l.2.1 l.2.2).entries +
              (Bytes.unlines (lines.map Prod.fst)).length := hle
        _ ≤ Headers.weight h.entries + (Headers.lineOf l.2).length + 1 +
              (Bytes.unlines (lines.map Prod.fst)).length := Nat.add_le_add_right hinsertLe _
        _ ≤ Headers.weight h.entries +
              (l.1.length + ((Bytes.unlines (lines.map Prod.fst)).length + 1)) := by omega
    refine ⟨hwhole, fun hlength => ?_⟩
    -- if nothing is lost over all lines, nothing is lost in any of them
    obtain ⟨hentries, hexact⟩ := heq (by omega)
    rw [hinsertEq (by omega)] at hentries
    refine ⟨by rw [hentries, List.append_assoc, List.singleton_append], fun l' hl' => ?_⟩
    rcases List.mem_cons.mp hl' with rfl | hl'
    · exact (hlineEq (by omega)).2
    · exact hexact l' hl'

/-- Headers of which no name comes twice are collected as they stand. -/
theorem Headers.entries_collect {h : Headers} {entries : List (Text × Text)}
    (hnodup : ((h.entries ++ entries).map Prod.fst).Nodup) :
    (h.collect entries).entries = h.entries ++ entries := by
  induction entries generalizing h with
  | nil => simp
  | cons e entries ih =>
    -- the name stands in none of the headers so far
    have hnew : e.1 ∉ h.names := by
      intro hmem
      rw [List.map_append, List.map_cons, List.nodup_append] at hnodup
      exact hnodup.2.2 _ hmem _ (List.mem_cons_self ..) rfl
    have hinsert : (h.insertIfNew e.1 e.2).entries = h.entries ++ [e] := by
      rw [Headers.entries_insertIfNew, if_neg hnew]
    rw [Headers.collect_cons, ih, hinsert, List.append_assoc, List.singleton_append]
    rw [hinsert, List.append_assoc, List.singleton_append]
    exact hnodup

theorem Headers.collect_entries (h : Headers) : Headers.empty.collect h.entries = h := by
  refine Headers.ext ?_
  rw [Headers.entries_collect (by simpa using h.nodup)]
  rfl

/-- Lines that are read as the headers of a mapping, in order, are collected to that mapping. -/
theorem Headers.eq_collect_map (h : Headers) (lineOf : Text × Text → Bytes) :
    h = Headers.empty.collect ((h.entries.map fun e => (lineOf e, e)).map Prod.snd) := by
  have hentries : (h.entries.map fun e => (lineOf e, e)).map Prod.snd = h.entries := by
    rw [List.map_map]
    exact List.map_id h.entries
  rw [hentries, Headers.collect_entries]

/-! ### What is written without escapes -/

namespace Frame

theorem headerLine_eq (name value : Text) :
    headerLine name value = (name ++ CodePoint.ofChar ':' :: value) ++ Text.ofString "\n" := by
  have hcolon : Text.ofString ":" = [CodePoint.ofChar ':'] := by decide
  rw [headerLine, hcolon, List.append_assoc name, List.singleton_append]

/-- The head, header by header. -/
theorem head_eq (f : Frame) :
    f.head = f.command ++ Text.ofString "\n" ++
      f.headers.entries.flatMap (fun e => headerLine e.1 e.2) ++ Text.ofString "\n" := rfl

/-- The head on the wire: the command, the line of each header, and an empty line. -/
theorem octets_head (f : Frame) :
    octets f.head =
      Bytes.unlines (octets f.command :: f.headers.entries.map Headers.lineOf ++ [[]]) := by
  have hfeed : octets (Text.ofString "\n") = [Octet.lineFeed] := by decide
  have hlines : ∀ entries : List (Text × Text),
      octets (entries.flatMap fun e => headerLine e.1 e.2) =
        Bytes.unlines (entries.map Headers.lineOf) := by
    intro entries
    induction entries with
    | nil => rfl
    | cons e entries ih =>
      have hline : octets (headerLine e.1 e.2) = Headers.lineOf e ++ [Octet.lineFeed] := by
        rw [headerLine_eq, octets_append, hfeed, Headers.lineOf]
      rw [List.flatMap_cons, octets_append, ih, hline, List.map_cons, Bytes.unlines_cons,
        List.append_assoc, List.singleton_append]
  rw [head_eq, octets_append, octets_append, octets_append, hfeed, hlines]
  simp

/-- A frame is written if no surrogate stands in its head. -/
theorem toBytes_eq_ok_iff {f : Frame} {wire : Bytes} :
    f.toBytes = .ok wire ↔
      (∀ c ∈ f.head, ¬ c.IsSurrogate) ∧ wire = octets f.head ++ f.body ++ [Octet.nul] := by
  unfold toBytes Text.encode
  cases hhead : Utf8.encode f.head with
  | error run =>
    -- a surrogate is in the way
    have hnot : ¬ ∀ c ∈ f.head, ¬ c.IsSurrogate := by
      intro hall
      rw [Utf8.encode_eq_ok_iff.mpr ⟨hall, rfl⟩] at hhead
      simp at hhead
    simp [Except.mapError, Except.map, hnot]
  | ok bytes =>
    obtain ⟨hall, rfl⟩ := Utf8.encode_eq_ok_iff.mp hhead
    simp only [Except.mapError, Except.map, Except.ok.injEq]
    exact ⟨fun h => ⟨hall, h.symm⟩, fun h => h.2.symm⟩

/-- **What a frame has to keep clear of** to come back from the wire as it was, at a version. -/
structure Sendable (v : Version) (f : Frame) : Prop where
  /-- The command is one of the protocol's. -/
  command : ∃ c : Command, f.command = c.name
  /-- No name holds a colon or a line feed. -/
  names : ∀ e ∈ f.headers.entries, CodePoint.ofChar ':' ∉ e.1 ∧ CodePoint.ofChar '\n' ∉ e.1
  /-- No value holds a line feed. -/
  values : ∀ e ∈ f.headers.entries, CodePoint.ofChar '\n' ∉ e.2
  /-- The headers are not too many. -/
  size_le : f.headers.size ≤ 1000
  /-- No line `name:value` is too long. -/
  lines : ∀ e ∈ f.headers.entries, (Headers.lineOf e).length ≤ 10240
  /-- From 1.1 on, nothing looks like an escape, but for the frames of the handshake. -/
  backslashes : ¬ v < ⟨[1, 1]⟩ → f.command ≠ Command.connect.name →
    f.command ≠ Command.connected.name →
    ∀ e ∈ f.headers.entries, CodePoint.ofChar '\\' ∉ e.1 ∧ CodePoint.ofChar '\\' ∉ e.2
  /-- From 1.2 on, no value ends in what looks like a part of the line end. -/
  carriageReturns : ¬ v < ⟨[1, 2]⟩ →
    ∀ e ∈ f.headers.entries, e.2.getLast? ≠ some (CodePoint.ofChar '\r')
  /-- An announced length is the length of the body, and else there is no NUL in it. -/
  body : f.headers.Delimits f.body

variable {f : Frame} {wire rest : Bytes} {version : Text} {v : Version}

/-- A frame is sendable if and only if its header lines are exact and the rest is in order. -/
theorem sendable_iff :
    f.Sendable v ↔ ∃ c : Command, f.command = c.name ∧
      (∀ e ∈ f.headers.entries, v.dialect.ExactLine c e) ∧ f.headers.size ≤ maxHeaders ∧
      f.headers.Delimits f.body := by
  have hescapes : v.dialect ≠ .v10 ↔ ¬ v < ⟨[1, 1]⟩ := not_congr Version.dialect_eq_v10_iff
  have hreturns : v.dialect = .v12 ↔ ¬ v < ⟨[1, 2]⟩ := Version.dialect_eq_v12_iff
  have hhandshake : ∀ c : Command, c.isHandshake = false ↔
      c.name ≠ Command.connect.name ∧ c.name ≠ Command.connected.name := by
    intro c
    cases c <;> decide
  -- the versions of the conditions are the dialects of the lines
  constructor
  · intro h
    obtain ⟨c, hc⟩ := h.command
    refine ⟨c, hc, fun e he => ⟨(h.names e he).1, ⟨(h.names e he).2, h.values e he⟩, h.lines e he,
      fun hd hno => ?_, fun hd => h.carriageReturns (hreturns.mp hd) e he⟩, h.size_le, h.body⟩
    obtain ⟨hconnect, hconnected⟩ := (hhandshake c).mp hno
    rw [← hc] at hconnect hconnected
    exact h.backslashes (hescapes.mp hd) hconnect hconnected e he
  · rintro ⟨c, hc, hexact, hsize, hbody⟩
    refine ⟨⟨c, hc⟩, fun e he => ⟨(hexact e he).colon_not_mem, (hexact e he).lineFeed_not_mem.1⟩,
      fun e he => (hexact e he).lineFeed_not_mem.2, hsize, fun e he => (hexact e he).length_le,
      fun hv hconnect hconnected e he => ?_,
      fun hv e he => (hexact e he).getLast?_ne (hreturns.mpr hv), hbody⟩
    rw [hc] at hconnect hconnected
    have hno : c.isHandshake = false := (hhandshake c).mpr ⟨hconnect, hconnected⟩
    exact (hexact e he).backslash_not_mem (hescapes.mpr hv) hno

/-- The written form of a sendable frame is a layout of it. -/
theorem Sendable.exists_layout (h : f.Sendable v) (hbody : f.body.length ≤ maxBodyLength)
    (hhead : ∀ c ∈ f.head, ¬ c.IsSurrogate) :
    ∃ l : Layout v.dialect f, l.bytes = octets f.head ++ f.body ++ [Octet.nul] := by
  obtain ⟨c, hc, hexact, hsize, hdelimits⟩ := sendable_iff.mp h
  obtain ⟨-, ⟨-, hreturn⟩, -⟩ := Decoder.octets_name c
  -- the texts of a header stand in the head, so they hold no surrogate
  have hsurrogate : ∀ e ∈ f.headers.entries,
      ∀ p ∈ e.1 ++ CodePoint.ofChar ':' :: e.2, ¬ p.IsSurrogate := by
    intro e he p hp
    refine hhead p ?_
    have hline : p ∈ headerLine e.1 e.2 := by
      rw [headerLine_eq]
      exact List.mem_append_left _ hp
    have hlines : p ∈ f.headers.entries.flatMap fun e => headerLine e.1 e.2 :=
      List.mem_flatMap.mpr ⟨e, he, hline⟩
    rw [head_eq]
    exact List.mem_append_left _ (List.mem_append_right _ hlines)
  refine ⟨{
    blanks := []
    command := c
    word := octets c.name
    lines := f.headers.entries.map fun e => (Headers.lineOf e, e)
    last := []
    blanks_blank := by simp
    command_eq := hc
    word_eq := Dialect.trimLine_of_getLast?_ne fun _ hlast =>
      hreturn (List.mem_of_getLast? hlast)
    lines_read := ?_
    lines_length_le := by rw [List.length_map]; exact hsize
    headers_eq := f.headers.eq_collect_map _
    last_blank := ⟨List.not_mem_nil, Dialect.trimLine_of_getLast?_ne (by simp)⟩
    body_length_le := hbody
    body_delimited := hdelimits }, ?_⟩
  · intro line hline
    obtain ⟨e, he, rfl⟩ := List.mem_map.mp hline
    exact (hexact e he).headerLine (hsurrogate e he)
  · simp [Layout.bytes, octets_head, hc, Function.comp_def]

/-- **A frame that comes back is sendable.** If the written form of a frame is a layout of the frame
itself, then each of its lines is what was written for a header. -/
theorem sendable_of_layout (l : Layout v.dialect f)
    (hl : octets f.head ++ f.body ++ [Octet.nul] = l.bytes) : f.Sendable v := by
  have hhead : octets f.head =
      Bytes.unlines (l.blanks ++ l.word :: l.lines.map Prod.fst ++ [l.last]) :=
    List.append_cancel_right (List.append_cancel_right hl)
  -- compare the lengths of the two ways to see the head
  have hlength := congrArg List.length hhead
  rw [octets_head, l.command_eq] at hlength
  simp only [Bytes.unlines_append, Bytes.unlines_cons, Bytes.unlines_nil, List.length_append,
    List.length_cons, List.length_nil, List.cons_append] at hlength
  -- the command line is no shorter than the command
  have hword : (octets l.command.name).length ≤ l.word.length := by
    rw [← l.word_eq]
    exact (Dialect.length_trimLine _ _).1
  obtain ⟨hle, heq⟩ := Headers.length_unlines_of_collect Headers.empty l.lines_read
  rw [← l.headers_eq, Headers.entries_empty, Headers.weight_nil, Headers.weight] at hle heq
  -- the two agree only if no header line is longer than the line of its header
  obtain ⟨hentries, hexact⟩ := heq (by omega)
  rw [List.nil_append] at hentries
  refine sendable_iff.mpr ⟨l.command, l.command_eq, fun e he => ?_, ?_, l.body_delimited⟩
  · rw [hentries] at he
    obtain ⟨line, hline, rfl⟩ := List.mem_map.mp he
    exact hexact line hline
  · rw [Headers.size, hentries, List.length_map]
    exact l.lines_length_le

/-- **The written form of a frame is its shortest layout.** -/
theorem length_written_le {d : Dialect} (l : Layout d f) :
    (octets f.head ++ f.body ++ [Octet.nul]).length ≤ l.bytes.length := by
  have hword : (octets l.command.name).length ≤ l.word.length := by
    rw [← l.word_eq]
    exact (Dialect.length_trimLine _ _).1
  have hlines := (Headers.length_unlines_of_collect Headers.empty l.lines_read).1
  rw [← l.headers_eq, Headers.entries_empty, Headers.weight_nil, Headers.weight] at hlines
  rw [octets_head, l.command_eq, Layout.bytes]
  simp only [Bytes.unlines_append, Bytes.unlines_cons, Bytes.unlines_nil, List.length_append,
    List.length_cons, List.length_nil, List.cons_append]
  omega

/-- A frame that is read from its written form leaves nothing of it unread. -/
theorem scan_toBytes_of_read (hwire : f.toBytes = .ok wire)
    (hread : (Frame.read version (⟨wire, none⟩ : Memory)).1 = .ok f) :
    ∃ v, Version.parse? version = some v ∧
      (decoder v.dialect).scan .start wire = .done (.ok f) [] := by
  cases hversion : Version.parse? version with
  | none =>
    rw [Frame.read, hversion] at hread
    cases hread
  | some v =>
    refine ⟨v, rfl, ?_⟩
    obtain ⟨-, hwire⟩ := toBytes_eq_ok_iff.mp hwire
    rw [read_memory hversion (by decide)] at hread
    cases hscan : (decoder v.dialect).scan .start wire with
    | more state =>
      rw [hscan] at hread
      cases hread
    | done result rest =>
      rw [hscan] at hread
      obtain rfl : result = .ok f := hread
      -- what was read is a layout of the frame, which is no shorter than all there was
      obtain ⟨l, hl⟩ := Decoder.scan_start_eq_done_ok_iff.mp hscan
      have hle := length_written_le l
      rw [← hwire, hl, List.length_append] at hle
      obtain rfl : rest = [] := List.eq_nil_of_length_eq_zero (by omega)
      rfl

/-- **The exact round trip.** A written frame, whatever follows it, is read back as it was with all
that follows left unread, if and only if it is sendable. -/
theorem read_toBytes_append_iff (hwire : f.toBytes = .ok wire)
    (hbody : f.body.length ≤ maxBodyLength) (hversion : Version.parse? version = some v)
    {cap : Option Nat} (hcap : cap ≠ some 0) (rest : Bytes) :
    Frame.read version (⟨wire ++ rest, cap⟩ : Memory) = (.ok f, ⟨rest, cap⟩) ↔ f.Sendable v := by
  obtain ⟨hhead, rfl⟩ := toBytes_eq_ok_iff.mp hwire
  rw [read_memory_eq_ok_iff hversion hcap]
  constructor
  · rintro ⟨l, hl⟩
    -- the same bytes are left unread, so the layout is all of what was written
    exact sendable_of_layout l (List.append_cancel_right hl)
  · intro h
    obtain ⟨l, hl⟩ := h.exists_layout hbody hhead
    exact ⟨l, by rw [hl]⟩

/-- A message with an announced body that holds a NUL and a line feed. -/
def ofTwoBytes : Frame :=
  { command := "MESSAGE", headers := Headers.ofList [("content-length", "2")], body := [0, 10] }

theorem sendable_ofTwoBytes : ofTwoBytes.Sendable ⟨[1, 2]⟩ where
  command := ⟨.message, rfl⟩
  names := by decide +kernel
  values := by decide +kernel
  size_le := by decide +kernel
  lines := by decide +kernel
  backslashes := by decide +kernel
  carriageReturns := by decide +kernel
  body := by decide +kernel

theorem read_toBytes_ofTwoBytes :
    ofTwoBytes.toBytes = .ok (octets "MESSAGE\ncontent-length:2\n\n" ++ [0, 10, 0]) ∧
      Frame.read "1.2"
          (⟨octets "MESSAGE\ncontent-length:2\n\n" ++ [0, 10, 0] ++ [10, 65], some 1⟩ : Memory) =
        (.ok ofTwoBytes, ⟨[10, 65], some 1⟩) := by
  have hwire : ofTwoBytes.toBytes =
      .ok (octets "MESSAGE\ncontent-length:2\n\n" ++ [0, 10, 0]) := by decide +kernel
  have hversion : Version.parse? "1.2" = some ⟨[1, 2]⟩ := by decide +kernel
  have hbody : ofTwoBytes.body.length ≤ maxBodyLength := by decide +kernel
  exact ⟨hwire, (read_toBytes_append_iff hwire hbody hversion (by decide) [10, 65]).mpr
    sendable_ofTwoBytes⟩

end Frame

/-! ### What is written with escapes -/

/-- How a line ends in a dialect: by a line feed, or from 1.2 on by a carriage return and a line
feed. -/
inductive LineEnd : Dialect → Type
  | lineFeed {d : Dialect} : LineEnd d
  | returnLineFeed : LineEnd .v12

namespace LineEnd

variable {d : Dialect}

/-- What stands before the line feed. -/
def mark : LineEnd d → Bytes
  | lineFeed => []
  | returnLineFeed => [Octet.carriageReturn]

/-- The mark does not belong to the line. -/
theorem trimLine_append_mark (e : LineEnd d) {line : Bytes}
    (h : d = .v12 → line.getLast? ≠ some Octet.carriageReturn) :
    d.trimLine (line ++ e.mark) = line := by
  cases e with
  | lineFeed =>
    rw [mark, List.append_nil]
    exact Dialect.trimLine_of_getLast?_ne h
  | returnLineFeed =>
    rw [mark, Dialect.trimLine, if_pos ⟨rfl, List.getLast?_concat⟩, List.dropLast_concat]

theorem lineFeed_not_mem_mark (e : LineEnd d) : Octet.lineFeed ∉ e.mark := by
  cases e with
  | lineFeed => exact List.not_mem_nil
  | returnLineFeed => decide

theorem blank_mark (e : LineEnd d) : d.Blank e.mark where
  lineFeed_not_mem := e.lineFeed_not_mem_mark
  trimLine_eq := by
    rw [← List.nil_append e.mark]
    exact e.trimLine_append_mark (by simp)

end LineEnd

/-- The free choices of a peer that writes a frame: how many blank lines it sends first, and how
each line ends. A name stands in one header line only, so the names tell the header lines apart. -/
structure LineEnds (d : Dialect) where
  blanks : List (LineEnd d)
  command : LineEnd d
  header : Text → LineEnd d
  last : LineEnd d

namespace Dialect

/-- A header as a line with escapes, with what stands before its line feed. -/
def escapedLine (d : Dialect) (ends : LineEnds d) (e : Text × Text) : Bytes :=
  octets (e.1.flatMap d.escapePoint) ++ octets [CodePoint.ofChar ':'] ++
    octets (e.2.flatMap d.escapePoint) ++ (ends.header e.1).mark

/-- A frame as a peer writes it in a dialect with escapes. -/
def written (d : Dialect) (ends : LineEnds d) (f : Frame) : Bytes :=
  ends.blanks.flatMap (fun e => e.mark ++ [Octet.lineFeed]) ++
    (octets f.command ++ ends.command.mark ++ [Octet.lineFeed]) ++
    f.headers.entries.flatMap (fun e => d.escapedLine ends e ++ [Octet.lineFeed]) ++
    (ends.last.mark ++ [Octet.lineFeed]) ++ f.body ++ [Octet.nul]

/-- An escaped line is read as the header that was escaped, whatever its texts hold. -/
theorem headerLine_escapedLine {d : Dialect} (hd : d ≠ .v10) {c : Command}
    (hc : c.isHandshake = false) (ends : LineEnds d) {e : Text × Text}
    (hsurrogate : ∀ p ∈ e.1 ++ e.2, ¬ p.IsSurrogate)
    (hlength : (d.escapedLine ends e).length ≤ Frame.maxHeaderLength) :
    d.HeaderLine c (d.escapedLine ends e) e := by
  obtain ⟨hnameColon, hnameFeed, hnameReturn⟩ := not_mem_flatMap_escapePoint (d := d) (t := e.1)
  obtain ⟨-, hvalueFeed, hvalueReturn⟩ := not_mem_flatMap_escapePoint (d := d) (t := e.2)
  have hline : d.escapedLine ends e =
      octets (e.1.flatMap d.escapePoint ++ CodePoint.ofChar ':' :: e.2.flatMap d.escapePoint) ++
        (ends.header e.1).mark := by
    rw [escapedLine, octets_append, octets_cons, List.append_assoc (octets _) (octets _)]
    simp
  -- a mark other than the colon would have to stand in one of the escaped texts
  have hmarks : ∀ m : CodePoint, m ≠ CodePoint.ofChar ':' → m ∉ e.1.flatMap d.escapePoint →
      m ∉ e.2.flatMap d.escapePoint →
      m ∉ e.1.flatMap d.escapePoint ++ CodePoint.ofChar ':' :: e.2.flatMap d.escapePoint := by
    intro m hcolon hname hvalue
    rw [List.mem_append, List.mem_cons, not_or, not_or]
    exact ⟨hname, hcolon, hvalue⟩
  -- the carriage return that is dropped is the one of the line end
  have htrim : d.trimLine (d.escapedLine ends e) =
      octets (e.1.flatMap d.escapePoint ++ CodePoint.ofChar ':' :: e.2.flatMap d.escapePoint) := by
    rw [hline]
    refine LineEnd.trimLine_append_mark _ fun h12 hlast => ?_
    exact hmarks (CodePoint.ofChar '\r') (by decide) (hnameReturn h12) (hvalueReturn h12)
      ((Utf8.ofNat_mem_octets_iff (by decide) _).mp (List.mem_of_getLast? hlast))
  refine ⟨?_, hlength, e.1.flatMap d.escapePoint, e.2.flatMap d.escapePoint, ?_, hnameColon, ?_, ?_⟩
  · rw [hline, List.mem_append, not_or]
    refine ⟨fun hmem => ?_, LineEnd.lineFeed_not_mem_mark _⟩
    exact hmarks (CodePoint.ofChar '\n') (by decide) hnameFeed hvalueFeed
      ((Utf8.ofNat_mem_octets_iff (by decide) _).mp hmem)
  · -- escapes bring no surrogates, so what was written is read
    rw [htrim]
    refine Utf8.decode_eq_ok_iff.mpr ⟨fun p hp => ?_, rfl⟩
    have hescaped : ∀ t : Text, (∀ p ∈ t, ¬ p.IsSurrogate) →
        p ∈ t.flatMap d.escapePoint → ¬ p.IsSurrogate := by
      intro t ht hmem
      obtain ⟨q, hq, hpq⟩ := List.mem_flatMap.mp hmem
      exact not_isSurrogate_of_mem_escapePoint (ht q hq) p hpq
    rcases List.mem_append.mp hp with hname | hrest
    · exact hescaped _ (fun q hq => hsurrogate q (List.mem_append_left _ hq)) hname
    · rcases List.mem_cons.mp hrest with rfl | hvalue
      · exact CodePoint.not_isSurrogate_ofChar _
      · exact hescaped _ (fun q hq => hsurrogate q (List.mem_append_right _ hq)) hvalue
  · rw [readAs, if_neg (by simp [hc]), unescape?_flatMap_escapePoint hd]
  · rw [readAs, if_neg (by simp [hc]), unescape?_flatMap_escapePoint hd]

/-- What a peer writes is a layout of its frame. -/
theorem exists_layout_written {d : Dialect} (hd : d ≠ .v10) (ends : LineEnds d) {c : Command}
    (hc : c.isHandshake = false) {headers : Headers} (hsize : headers.size ≤ Frame.maxHeaders)
    (hsurrogate : ∀ e ∈ headers.entries, ∀ p ∈ e.1 ++ e.2, ¬ p.IsSurrogate)
    (hlines : ∀ e ∈ headers.entries, (d.escapedLine ends e).length ≤ Frame.maxHeaderLength)
    {body : Bytes} (hdelimits : headers.Delimits body) (hbody : body.length ≤ Frame.maxBodyLength) :
    ∃ l : Layout d ⟨c.name, headers, body⟩, l.bytes = d.written ends ⟨c.name, headers, body⟩ := by
  obtain ⟨-, ⟨-, hreturn⟩, -⟩ := Frame.Decoder.octets_name c
  refine ⟨{
    blanks := ends.blanks.map LineEnd.mark
    command := c
    word := octets c.name ++ ends.command.mark
    lines := headers.entries.map fun e => (d.escapedLine ends e, e)
    last := ends.last.mark
    blanks_blank := ?_
    command_eq := rfl
    word_eq := LineEnd.trimLine_append_mark _ fun _ hlast => hreturn (List.mem_of_getLast? hlast)
    lines_read := ?_
    lines_length_le := by rw [List.length_map]; exact hsize
    headers_eq := headers.eq_collect_map _
    last_blank := ends.last.blank_mark
    body_length_le := hbody
    body_delimited := hdelimits }, ?_⟩
  · intro line hline
    obtain ⟨e, -, rfl⟩ := List.mem_map.mp hline
    exact e.blank_mark
  · intro line hline
    obtain ⟨e, he, rfl⟩ := List.mem_map.mp hline
    exact headerLine_escapedLine hd hc ends (hsurrogate e he) (hlines e he)
  · simp [Layout.bytes, written, Bytes.unlines, List.flatMap_map, Function.comp_def]

end Dialect

namespace Frame

/-- **What a peer writes is read back.** From version 1.1 on, a frame that is written with escapes,
after any blank lines and with any line ends of the dialect, is read back as it was, whatever its
header texts hold, and what follows it is left unread. -/
theorem read_written_append {version : Text} {v : Version}
    (hversion : Version.parse? version = some v) (hv : ¬ v < ⟨[1, 1]⟩) {c : Command}
    (hconnect : c ≠ .connect) (hconnected : c ≠ .connected) {headers : Headers}
    (hsize : headers.size ≤ 1000)
    (hsurrogate : ∀ e ∈ headers.entries, ∀ p ∈ e.1 ++ e.2, ¬ p.IsSurrogate) {body : Bytes}
    (hdelimits : headers.Delimits body) (hbody : body.length ≤ maxBodyLength)
    (ends : LineEnds v.dialect)
    (hlines : ∀ e ∈ headers.entries, (v.dialect.escapedLine ends e).length ≤ 10240)
    {cap : Option Nat} (hcap : cap ≠ some 0) (rest : Bytes) :
    Frame.read version
        (⟨v.dialect.written ends ⟨c.name, headers, body⟩ ++ rest, cap⟩ : Memory) =
      (.ok ⟨c.name, headers, body⟩, ⟨rest, cap⟩) := by
  have hd : v.dialect ≠ .v10 := fun h => hv (Version.dialect_eq_v10_iff.mp h)
  have hhandshake : c.isHandshake = false := by
    simp [Command.isHandshake, hconnect, hconnected]
  obtain ⟨l, hl⟩ := Dialect.exists_layout_written hd ends hhandshake hsize hsurrogate hlines
    hdelimits hbody
  exact (read_memory_eq_ok_iff hversion hcap).mpr ⟨l, by rw [hl]⟩

/-- Headers whose texts hold all that is escaped, a NUL, and nothing. -/
def oddHeaders : Headers where
  entries := [("a:b\\", "c\nd:\r"), ("", "\x00")]
  nodup := by decide +kernel

/-- A peer that begins with two blank lines and mixes its line ends. -/
def mixedEnds : LineEnds .v12 where
  blanks := [.returnLineFeed, .lineFeed]
  command := .lineFeed
  header name := if name = [] then .lineFeed else .returnLineFeed
  last := .returnLineFeed

theorem read_written_oddHeaders :
    Frame.read "1.2"
        (⟨Dialect.v12.written mixedEnds ⟨"MESSAGE", oddHeaders, [65]⟩ ++ [66], none⟩ : Memory) =
      (.ok ⟨"MESSAGE", oddHeaders, [65]⟩, ⟨[66], none⟩) := by
  have hversion : Version.parse? "1.2" = some ⟨[1, 2]⟩ := by decide +kernel
  have hsurrogate : ∀ e ∈ oddHeaders.entries, ∀ p ∈ e.1 ++ e.2, ¬ p.IsSurrogate := by
    intro e he p hp
    have htexts : ∃ name value : String, e = (Text.ofString name, Text.ofString value) := by
      rcases List.mem_cons.mp he with rfl | he
      · exact ⟨_, _, rfl⟩
      · exact ⟨_, _, List.mem_singleton.mp he⟩
    obtain ⟨name, value, rfl⟩ := htexts
    rcases List.mem_append.mp hp with hp | hp <;> exact Text.not_isSurrogate_of_mem_ofString hp
  have hlines : ∀ e ∈ oddHeaders.entries,
      (Dialect.v12.escapedLine mixedEnds e).length ≤ 10240 := by decide +kernel
  have hdelimits : oddHeaders.Delimits [65] := by decide +kernel
  have hbody : [65].length ≤ maxBodyLength := by decide +kernel
  exact read_written_append hversion (by decide) (c := .message) (by decide) (by decide)
    (by decide +kernel) hsurrogate hdelimits hbody mixedEnds hlines (by decide) [66]

end Frame

end Stomp
