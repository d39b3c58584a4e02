import Stomp.Proofs.Frame.Agreement

/-!
# When a written frame is parsed as itself

The parser drops line feeds in front and one NUL at the end before it looks for any line. A written
frame ends in a NUL of its own, so that the body is never touched, whatever it holds. What can go
wrong is in the lines: an empty command goes with the line feeds in front, and a line feed in a text
or a colon in a name moves the place where the text ends.

`WellLined` says that none of this happens. The main statement, `parse_toBytes_iff`, says that it is
exactly what a written frame takes to be parsed as itself, from its bytes and from its text.
-/

namespace Stomp

open Utf8 (octets)

namespace Frame

/-- The lines of a frame show where its texts begin and where they end. -/
structure WellLined (f : Frame) : Prop where
  command_ne_nil : f.command ≠ []
  lineFeed_not_mem : CodePoint.ofChar '\n' ∉ f.command
  onOneLine : ∀ e ∈ f.headers.entries, Headers.OnOneLine e

section

variable {f : Frame} {wire : Bytes}

/-- A written frame is the plain bytes of its own headers. -/
theorem eq_plainBytes_of_toBytes (hwire : f.toBytes = .ok wire) :
    wire = plainBytes 0 f f.headers.entries := by
  rw [(toBytes_eq_ok_iff.mp hwire).2, octets_head]
  rfl

/-- Only the headers of a frame themselves make up as many bytes as it is written with: header lines
that repeat a name are longer than what is collected from them. -/
theorem entries_eq_of_plainBytes_eq {n : Nat} {entries : List (Text × Text)}
    (hheaders : f.headers = Headers.empty.collect entries)
    (hbytes : plainBytes 0 f f.headers.entries = plainBytes n f entries) :
    entries = f.headers.entries := by
  obtain ⟨hle, heq⟩ := Headers.weight_collect Headers.empty entries
  rw [← hheaders, Headers.entries_empty, Headers.weight_nil, Nat.zero_add] at hle heq
  -- command and body are the same on both sides, so the lengths of the header lines are compared
  have hlength := congrArg List.length hbytes
  simp only [plainBytes, Bytes.unlines_append, Bytes.unlines_cons, Bytes.unlines_nil,
    List.length_append, List.length_cons, List.length_nil, List.length_replicate,
    List.cons_append] at hlength
  unfold Headers.weight at hle heq
  exact (heq (by omega)).symm

/-- The bytes that a frame is written as are parsed as the frame if its lines tell it, and only
then. -/
theorem parse_eq_ok_iff_wellLined (hwire : f.toBytes = .ok wire) :
    parse wire = .ok f ↔ f.WellLined := by
  have hnul : wire.getLast? = some Octet.nul := by
    rw [(toBytes_eq_ok_iff.mp hwire).2]
    exact List.getLast?_concat
  rw [← and_iff_left (a := parse wire = .ok f) hnul, parse_eq_ok_iff_plainBytes]
  constructor
  · -- no header line was lost, so those that were parsed are those of the frame
    rintro ⟨-, hcommand, hline, n, entries, hentries, hbytes, hheaders⟩
    rw [eq_plainBytes_of_toBytes hwire] at hbytes
    obtain rfl := entries_eq_of_plainBytes_eq hheaders hbytes
    exact ⟨hcommand, hline, fun e he => (hentries e he).onOneLine⟩
  · intro h
    -- it was written, so its texts are free of surrogates
    obtain ⟨hfree, hheaders⟩ := surrogateFree_head_iff.mp (toBytes_eq_ok_iff.mp hwire).1
    exact ⟨hfree, h.command_ne_nil, h.lineFeed_not_mem, 0, f.headers.entries,
      fun e he => Legible.of_onOneLine (h.onOneLine e he) (hheaders e he),
      eq_plainBytes_of_toBytes hwire, f.headers.collect_entries.symm⟩

/-- Where the body is UTF-8, the text of a frame is there and is encoded to what the frame is
written as. -/
theorem exists_toText (hwire : f.toBytes = .ok wire) {body : Text} (hbody : f.bodyText = .ok body) :
    ∃ t, f.toText = .ok t ∧ t.encode = .ok wire := by
  have htext := toText_of_bodyText hbody
  refine ⟨_, htext, toOption_eq_some_iff.mp ?_⟩
  rw [toOption_encode_toText htext, hwire]
  rfl

/-- **A written frame is parsed as itself** if and only if its command is a line and not an empty
one and each header is told by its line, whatever the body is. Where the body is UTF-8, the text of
the frame is encoded to the same bytes, so that it is parsed as the frame under the same
condition. -/
theorem parse_toBytes_iff (hwire : f.toBytes = .ok wire) :
    (parse wire = .ok f ↔ f.WellLined) ∧
      ∀ body, f.bodyText = .ok body →
        ∃ t, f.toText = .ok t ∧ t.encode = .ok wire ∧ (parseText t = .ok f ↔ f.WellLined) := by
  have hiff := parse_eq_ok_iff_wellLined hwire
  refine ⟨hiff, fun body hbody => ?_⟩
  obtain ⟨t, htext, hencode⟩ := exists_toText hwire hbody
  refine ⟨t, htext, hencode, ?_⟩
  -- a text is parsed by way of its bytes
  have hparse : parseText t = parse wire := by
    rw [parseText, hencode]
    rfl
  rw [hparse, hiff]

end

/-- Headers with an empty name, an empty value and a colon in a value. -/
def barelyLinedHeaders : Headers where
  entries := [("b", ""), ("", "x:y\r"), ("a", " ")]
  nodup := by decide +kernel

/-- A frame of no known command, whose body ends in what would end a text. -/
def barelyLined : Frame := ⟨"\rÉ", barelyLinedHeaders, [0, 10, 10, 0]⟩

theorem parse_barelyLined :
    barelyLined.WellLined ∧
      (∃ wire, barelyLined.toBytes = .ok wire ∧ parse wire = .ok barelyLined) ∧
      ∃ t, barelyLined.toText = .ok t ∧ parseText t = .ok barelyLined := by
  have hwire : barelyLined.toBytes =
      .ok (octets "\rÉ\nb:\n:x:y\r\na: \n\n" ++ [0, 10, 10, 0] ++ [0]) := by decide +kernel
  have hbody : barelyLined.bodyText = .ok "\x00\n\n\x00" := by decide +kernel
  have hlines : ∀ e ∈ barelyLined.headers.entries, CodePoint.ofChar ':' ∉ e.1 ∧
      CodePoint.ofChar '\n' ∉ e.1 ∧ CodePoint.ofChar '\n' ∉ e.2 := by decide +kernel
  have hlined : barelyLined.WellLined := by
    refine ⟨by decide +kernel, by decide +kernel, fun e he => ?_⟩
    obtain ⟨hcolon, hname, hvalue⟩ := hlines e he
    exact ⟨hcolon, hname, hvalue⟩
  obtain ⟨hparse, htext⟩ := parse_toBytes_iff hwire
  obtain ⟨t, ht, -, hparseText⟩ := htext _ hbody
  exact ⟨hlined, ⟨_, hwire, hparse.mpr hlined⟩, t, ht, hparseText.mpr hlined⟩

end Frame

end Stomp
