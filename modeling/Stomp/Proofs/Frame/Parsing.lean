import Stomp.Frame.Parser
import Stomp.Proofs.Frame.Outgoing

/-!
# What is parsed as which frame

`Frame.parse` takes the bytes of a frame that are at hand as a whole: it drops line feeds in front
and one NUL at the end, and the rest has to be a command line, header lines, an empty line and the
body. `parse_eq_ok_iff` is that statement, in both directions.

For a written frame, `parse_written_iff` says when it is parsed as itself. As for the decoder, its
"only if" half is an argument on lengths: nothing may be dropped at either end, and no header may be
lost, or the frame would be shorter than the bytes.
-/

namespace Stomp

open Utf8 (octets octets_append octets_cons)

namespace Headers

/-- The line of a header shows where its name ends and where it ends itself. -/
structure OnOneLine (e : Text × Text) : Prop where
  colon_not_mem : CodePoint.ofChar ':' ∉ e.1
  name_lineFeed_not_mem : CodePoint.ofChar '\n' ∉ e.1
  value_lineFeed_not_mem : CodePoint.ofChar '\n' ∉ e.2

theorem lineFeed_mem_lineOf_iff (e : Text × Text) :
    Octet.lineFeed ∈ lineOf e ↔ CodePoint.ofChar '\n' ∈ e.1 ∨ CodePoint.ofChar '\n' ∈ e.2 := by
  have hcolon : CodePoint.ofChar '\n' ≠ CodePoint.ofChar ':' := by decide
  rw [lineOf, Utf8.lineFeed_mem_octets_iff, List.mem_append, List.mem_cons]
  simp [hcolon]

theorem lineOf_ne_nil (e : Text × Text) : lineOf e ≠ [] := by
  intro hnil
  have := length_lineOf e
  rw [hnil, List.length_nil] at this
  omega

/-- What is collected from lines is no longer than the lines, and equally long only if no name comes
twice. -/
theorem weight_collect (h : Headers) (entries : List (Text × Text)) :
    weight (h.collect entries).entries ≤ weight h.entries + weight entries ∧
      (weight (h.collect entries).entries = weight h.entries + weight entries →
        (h.collect entries).entries = h.entries ++ entries) := by
  induction entries generalizing h with
  | nil => simp
  | cons e entries ih =>
    obtain ⟨hle, heq⟩ := ih (h.insertIfNew e.1 e.2)
    -- a line with a name that was there adds nothing
    obtain ⟨hinsertLe, hinsertEq⟩ := weight_insertIfNew h e
    rw [collect_cons, weight_cons]
    refine ⟨by omega, fun hlength => ?_⟩
    rw [heq (by omega), hinsertEq (by omega), List.append_assoc, List.singleton_append]

end Headers

namespace Frame

/-! ### The header block -/

/-- One line of the header block. -/
theorem headerBlock_eq (headers : Headers) (data : Bytes) :
    headerBlock headers data =
      (match cut? Octet.lineFeed data with
      | none => .error (.protocol .unterminatedHeaders)
      | some ([], body) => .ok (headers, body)
      | some (line, rest) => do
        let text ← Bytes.decode line
        match cut? (CodePoint.ofChar ':') text with
        | none => .error (.protocol (.invalidHeaderLine line))
        | some (name, value) => headerBlock (headers.insertIfNew name value) rest) := by
  rw [headerBlock]
  split
  · next h => rw [h]
  · next h => rw [h]
  · next line rest hne h =>
    -- rewriting is barred here by the proof that the recursion ends
    split
    · next h' => cases h.symm.trans h'
    · next h' =>
      cases h.symm.trans h'
      exact absurd rfl hne
    · next h' =>
      cases h.symm.trans h'
      rfl

/-- The header is told by its line, and its line can be written. -/
structure Legible (e : Text × Text) : Prop where
  onOneLine : Headers.OnOneLine e
  surrogateFree : Text.SurrogateFree (e.1 ++ CodePoint.ofChar ':' :: e.2)

theorem Legible.lineFeed_not_mem {e : Text × Text} (h : Legible e) :
    Octet.lineFeed ∉ Headers.lineOf e := by
  rw [Headers.lineFeed_mem_lineOf_iff, not_or]
  exact ⟨h.onOneLine.name_lineFeed_not_mem, h.onOneLine.value_lineFeed_not_mem⟩

/-- A header that is told by its line is legible if its texts can be written. -/
theorem Legible.of_onOneLine {e : Text × Text} (he : Headers.OnOneLine e)
    (hfree : Text.SurrogateFree e.1 ∧ Text.SurrogateFree e.2) : Legible e where
  onOneLine := he
  surrogateFree := by
    refine Text.surrogateFree_append.mpr ⟨hfree.1, fun c hc => ?_⟩
    rcases List.mem_cons.mp hc with rfl | hc
    · exact CodePoint.not_isSurrogate_ofChar _
    · exact hfree.2 c hc

/-- The line of a legible header is read as the header. -/
theorem Legible.headerBlock_append {e : Text × Text} (h : Legible e) (headers : Headers)
    (data : Bytes) :
    headerBlock headers (Headers.lineOf e ++ Octet.lineFeed :: data) =
      headerBlock (headers.insertIfNew e.1 e.2) data := by
  have hcut : cut? Octet.lineFeed (Headers.lineOf e ++ Octet.lineFeed :: data) =
      some (Headers.lineOf e, data) := cut?_eq_some_iff.mpr ⟨rfl, h.lineFeed_not_mem⟩
  have hdecode : Bytes.decode (Headers.lineOf e) = .ok (e.1 ++ CodePoint.ofChar ':' :: e.2) :=
    Bytes.decode_eq_ok_iff.mpr ⟨h.surrogateFree, rfl⟩
  have hcolon : cut? (CodePoint.ofChar ':') (e.1 ++ CodePoint.ofChar ':' :: e.2) =
      some (e.1, e.2) := cut?_eq_some_iff.mpr ⟨rfl, h.onOneLine.colon_not_mem⟩
  obtain ⟨b, line, hcons⟩ := List.exists_cons_of_ne_nil (Headers.lineOf_ne_nil e)
  rw [headerBlock_eq, hcut]
  rw [hcons] at hdecode ⊢
  simp only [hdecode, bind, Except.bind, hcolon]

/-- **The header block**: lines of legible headers, up to an empty line. -/
theorem headerBlock_eq_ok_iff {headers collected : Headers} {data body : Bytes} :
    headerBlock headers data = .ok (collected, body) ↔
      ∃ entries, (∀ e ∈ entries, Legible e) ∧
        data = Bytes.unlines (entries.map Headers.lineOf ++ [[]]) ++ body ∧
        collected = headers.collect entries := by
  constructor
  · intro h
    -- each line takes bytes away
    induction hlen : data.length using Nat.strongRecOn generalizing headers data with
    | ind len ih =>
      rw [headerBlock_eq] at h
      cases hcut : cut? Octet.lineFeed data with
      | none => simp [hcut] at h
      | some parts =>
        obtain ⟨line, rest⟩ := parts
        obtain ⟨rfl, hline⟩ := cut?_eq_some_iff.mp hcut
        cases line with
        | nil =>
          -- the empty line
          rw [hcut] at h
          cases h
          exact ⟨[], by simp, rfl, rfl⟩
        | cons b line =>
          simp only [hcut, bind, Except.bind] at h
          cases hdecode : Bytes.decode (b :: line) with
          | error e => simp [hdecode] at h
          | ok text =>
            simp only [hdecode] at h
            cases hcolon : cut? (CodePoint.ofChar ':') text with
            | none => simp [hcolon] at h
            | some parts =>
              obtain ⟨name, value⟩ := parts
              simp only [hcolon] at h
              obtain ⟨rfl, hname⟩ := cut?_eq_some_iff.mp hcolon
              obtain ⟨hfree, hoctets⟩ := Bytes.decode_eq_ok_iff.mp hdecode
              have hlineOf : b :: line = Headers.lineOf (name, value) := hoctets
              -- the line holds no line feed, so its texts hold none
              rw [hlineOf, Headers.lineFeed_mem_lineOf_iff, not_or] at hline
              have hshort : rest.length < len := by
                rw [← hlen, List.length_append, List.length_cons, List.length_cons]
                omega
              obtain ⟨entries, hentries, rfl, rfl⟩ := ih _ hshort h rfl
              refine ⟨(name, value) :: entries, ?_, ?_, rfl⟩
              · intro e he
                rcases List.mem_cons.mp he with rfl | he
                · exact ⟨⟨hname, hline.1, hline.2⟩, hfree⟩
                · exact hentries e he
              · rw [hlineOf]
                simp
  · rintro ⟨entries, hentries, rfl, rfl⟩
    -- the other way line by line, each being taken for its own header
    induction entries generalizing headers with
    | nil => rw [headerBlock_eq]; rfl
    | cons e entries ih =>
      have he := hentries e (List.mem_cons_self ..)
      rw [List.map_cons, List.cons_append, Bytes.unlines_cons, List.append_assoc, List.cons_append,
        he.headerBlock_append, ih fun e' he' => hentries e' (List.mem_cons_of_mem _ he')]
      rfl

/-! ### The whole -/

/-- **What is parsed as which frame**: what is left without line feeds in front and a NUL at the end
is the command line, the lines of the headers, an empty line and the body. -/
theorem parse_eq_ok_iff {data : Bytes} {f : Frame} :
    parse data = .ok f ↔
      f.command.SurrogateFree ∧ CodePoint.ofChar '\n' ∉ f.command ∧
      ∃ entries, (∀ e ∈ entries, Legible e) ∧
        withoutFinalNul (data.dropWhile (· = Octet.lineFeed)) =
          Bytes.unlines (octets f.command :: entries.map Headers.lineOf ++ [[]]) ++ f.body ∧
        f.headers = Headers.empty.collect entries := by
  have hfeed : ∀ t : Text, Octet.lineFeed ∉ octets t ↔ CodePoint.ofChar '\n' ∉ t := fun t =>
    not_congr (Utf8.lineFeed_mem_octets_iff t)
  unfold parse
  generalize withoutFinalNul (data.dropWhile (· = Octet.lineFeed)) = kept
  constructor
  · intro h
    cases hcut : cut? Octet.lineFeed kept with
    | none => simp [hcut] at h
    | some parts =>
      obtain ⟨line, rest⟩ := parts
      obtain ⟨rfl, hline⟩ := cut?_eq_some_iff.mp hcut
      simp only [hcut, bind, Except.bind] at h
      cases hdecode : Bytes.decode line with
      | error e => simp [hdecode] at h
      | ok command =>
        simp only [hdecode] at h
        cases hblock : headerBlock Headers.empty rest with
        | error e => simp [hblock] at h
        | ok parts =>
          obtain ⟨headers, body⟩ := parts
          simp only [hblock] at h
          cases h
          obtain ⟨hfree, rfl⟩ := Bytes.decode_eq_ok_iff.mp hdecode
          obtain ⟨entries, hentries, rfl, rfl⟩ := headerBlock_eq_ok_iff.mp hblock
          refine ⟨hfree, (hfeed command).mp hline, entries, hentries, ?_, rfl⟩
          simp
  · rintro ⟨hfree, hline, entries, hentries, hkept, hheaders⟩
    obtain ⟨command, headers, body⟩ := f
    dsimp only at hfree hline hkept hheaders
    subst hheaders
    rw [List.cons_append, Bytes.unlines_cons, List.append_assoc, List.cons_append] at hkept
    have hcut := cut?_eq_some_iff.mpr ⟨hkept, (hfeed command).mpr hline⟩
    have hdecode := Bytes.decode_eq_ok_iff.mpr ⟨hfree, rfl⟩
    have hblock : headerBlock Headers.empty
        (Bytes.unlines (entries.map Headers.lineOf ++ [[]]) ++ body) =
          .ok (Headers.empty.collect entries, body) :=
      headerBlock_eq_ok_iff.mpr ⟨entries, hentries, rfl, rfl⟩
    simp only [hcut, hdecode, hblock, bind, Except.bind]
    rfl

/-- Line feeds in front make no difference. -/
theorem parse_replicate_append (n : Nat) (data : Bytes) :
    parse (List.replicate n Octet.lineFeed ++ data) = parse data := by
  have hdrop : (List.replicate n Octet.lineFeed ++ data).dropWhile (· = Octet.lineFeed) =
      data.dropWhile (· = Octet.lineFeed) :=
    List.dropWhile_append_of_pos fun b hb => by simp [List.eq_of_mem_replicate hb]
  rw [parse, hdrop, parse]

/-- Bytes that begin with no line feed and end in no NUL are taken as they are. -/
theorem withoutFinalNul_dropWhile_of_ne {data : Bytes} (hhead : data.head? ≠ some Octet.lineFeed)
    (hlast : data.getLast? ≠ some Octet.nul) :
    withoutFinalNul (data.dropWhile (· = Octet.lineFeed)) = data := by
  have hdrop : data.dropWhile (· = Octet.lineFeed) = data := by
    cases data with
    | nil => rfl
    | cons b data =>
      refine List.dropWhile_cons_of_neg ?_
      simpa using hhead
  rw [hdrop, withoutFinalNul, if_neg hlast]

/-- All others get shorter. -/
theorem length_withoutFinalNul_dropWhile (data : Bytes) :
    (withoutFinalNul (data.dropWhile (· = Octet.lineFeed))).length ≤ data.length ∧
      ((withoutFinalNul (data.dropWhile (· = Octet.lineFeed))).length = data.length →
        data.head? ≠ some Octet.lineFeed ∧ data.getLast? ≠ some Octet.nul) := by
  have hfinal : ∀ bytes : Bytes, (withoutFinalNul bytes).length ≤ bytes.length ∧
      ((withoutFinalNul bytes).length = bytes.length → bytes.getLast? ≠ some Octet.nul) := by
    intro bytes
    unfold withoutFinalNul
    split
    · next hlast =>
      have hpos := List.length_pos_of_mem (List.mem_of_getLast? hlast)
      rw [List.length_dropLast]
      exact ⟨by omega, fun _ => by omega⟩
    · next hlast => exact ⟨Nat.le_refl _, fun _ => hlast⟩
  obtain ⟨hle, heq⟩ := hfinal (data.dropWhile (· = Octet.lineFeed))
  have hsuffix := List.dropWhile_suffix (l := data) (· = Octet.lineFeed)
  refine ⟨Nat.le_trans hle hsuffix.length_le, fun hlength => ?_⟩
  -- nothing was dropped in front
  have hsame : data.dropWhile (· = Octet.lineFeed) = data :=
    hsuffix.eq_of_length (Nat.le_antisymm hsuffix.length_le (hlength ▸ hle))
  rw [hsame] at heq hlength
  refine ⟨fun hhead => ?_, heq hlength⟩
  obtain ⟨rest, rfl⟩ := List.head?_eq_some_iff.mp hhead
  have hshort := (List.dropWhile_suffix (l := rest) (· = Octet.lineFeed)).length_le
  rw [List.dropWhile_cons_of_pos (by simp)] at hsame
  rw [hsame, List.length_cons] at hshort
  omega

/-- The last byte of a written frame before its NUL is one of the body, or the line feed of the
empty line. -/
theorem getLast?_written_ne_iff {f : Frame} :
    (octets f.head ++ f.body).getLast? ≠ some Octet.nul ↔ f.body.getLast? ≠ some Octet.nul := by
  have hfeed : (octets f.head).getLast? = some Octet.lineFeed := by
    rw [octets_head, Bytes.unlines_append]
    exact List.getLast?_concat
  -- so an empty body does no harm
  rw [List.getLast?_append, hfeed]
  cases f.body.getLast? with
  | none => decide
  | some b => rfl

/-- **A written frame is parsed as itself**, its NUL taken off, exactly if its command is a line and
not an empty one, each header is told by its line, and the body does not end in a NUL. -/
theorem parse_written_iff {f : Frame} (hhead : f.head.SurrogateFree) :
    parse (octets f.head ++ f.body) = .ok f ↔
      f.command ≠ [] ∧ CodePoint.ofChar '\n' ∉ f.command ∧
      (∀ e ∈ f.headers.entries, Headers.OnOneLine e) ∧
      f.body.getLast? ≠ some Octet.nul := by
  rw [parse_eq_ok_iff]
  constructor
  · rintro ⟨-, hline, entries, hentries, hkept, hheaders⟩
    -- compare the lengths of what is kept and of what was written
    obtain ⟨hkeptLe, hkeptEq⟩ := length_withoutFinalNul_dropWhile (octets f.head ++ f.body)
    obtain ⟨hweightLe, hweightEq⟩ := Headers.weight_collect Headers.empty entries
    rw [← hheaders, Headers.entries_empty, Headers.weight_nil, Nat.zero_add] at hweightLe hweightEq
    have hwritten := congrArg List.length (octets_head f)
    have hlength := congrArg List.length hkept
    simp only [Bytes.unlines_append, Bytes.unlines_cons, Bytes.unlines_nil, List.length_append,
      List.length_cons, List.length_nil, List.cons_append] at hwritten hlength hkeptLe hkeptEq
    unfold Headers.weight at hweightLe hweightEq
    -- nothing was dropped at the ends, and no header was lost
    obtain ⟨hfirst, hend⟩ := hkeptEq (by omega)
    obtain rfl : f.headers.entries = entries := by
      rw [hweightEq (by omega), List.nil_append]
    refine ⟨fun hnil => ?_, hline, fun e he => (hentries e he).onOneLine,
      getLast?_written_ne_iff.mp hend⟩
    rw [octets_head, hnil] at hfirst
    exact hfirst rfl
  · rintro ⟨hcommand, hline, hentries, hnul⟩
    have hfree := surrogateFree_head_iff.mp hhead
    refine ⟨hfree.1, hline, f.headers.entries,
      fun e he => Legible.of_onOneLine (hentries e he) (hfree.2 e he), ?_,
      f.headers.collect_entries.symm⟩
    rw [withoutFinalNul_dropWhile_of_ne ?_ (getLast?_written_ne_iff.mpr hnul), octets_head]
    -- the first byte is one of the command
    obtain ⟨b, word, hword⟩ :=
      List.exists_cons_of_ne_nil (mt Utf8.octets_eq_nil_iff.mp hcommand)
    have hb : b ∈ octets f.command := by
      rw [hword]
      exact List.mem_cons_self ..
    rw [octets_head, List.cons_append, Bytes.unlines_cons, hword]
    intro hfirst
    obtain rfl : b = Octet.lineFeed := Option.some.inj hfirst
    exact hline ((Utf8.lineFeed_mem_octets_iff _).mp hb)

/-- A text is parsed as the bytes that it was read from. -/
theorem parseText_of_decode {bytes : Bytes} {t : Text} (h : bytes.decode = .ok t) :
    parseText t = parse bytes := by
  obtain ⟨hfree, rfl⟩ := Bytes.decode_eq_ok_iff.mp h
  rw [parseText, Text.encode_eq_ok_iff.mpr ⟨hfree, rfl⟩]
  rfl

end Frame

end Stomp
