import Mathlib.Data.List.Induction
import Stomp.Proofs.Frame.Layout
import Stomp.Proofs.Headers.Escape

/-!
# The grammar of frames

`Spelling v f` is one of the ways in which the frame `f` can stand on the wire at version `v`: blank
lines, a command line, header lines, a blank line, the body and a NUL. It is a grammar, and goes by
the two versions at which the rules change, 1.1 and 1.2. Unlike `Layout`, which is made to follow
the decoder and goes by dialects, it takes nothing from the decoder:

* `Version.Line` — which part of a line counts;
* `Version.Means` — what header text with escapes stands for, pair by pair;
* `Version.Entry` — which line spells which header;
* `Headers.FirstOf` — each name has its first value, and the names stand in the order in which they
  first came.

`exists_spelling_iff` is that the two say the same, with a lemma for each of the notions above, and
`read_eq_ok_iff_spelled` that the decoder returns a frame, having taken a number of bytes, if and
only if these bytes are a spelling of the frame.
-/

namespace Stomp

open Utf8 (octets)

namespace Version

/-- **What counts of a line**: all of it, or from 1.2 on all but one carriage return at its end. -/
inductive Line (v : Version) : Bytes → Bytes → Prop
  | whole {line : Bytes} (hfeed : Octet.lineFeed ∉ line)
    (hlast : ¬ v < ⟨[1, 2]⟩ → line.getLast? ≠ some Octet.carriageReturn) : Line v line line
  | returned {line : Bytes} (hfeed : Octet.lineFeed ∉ line) (hv : ¬ v < ⟨[1, 2]⟩) :
    Line v (line ++ [Octet.carriageReturn]) line

/-- The pairs of a backslash and a letter, and what each stands for; one of them is new in 1.2. -/
inductive Pair (v : Version) : CodePoint → CodePoint → Prop
  | lineFeed : Pair v 'n' '\n'
  | colon : Pair v 'c' ':'
  | backslash : Pair v '\\' '\\'
  | carriageReturn (hv : ¬ v < ⟨[1, 2]⟩) : Pair v 'r' '\r'

/-- **What header text with escapes stands for.** It consists of pairs and of code points other than
the backslash. -/
inductive Means (v : Version) : Text → Text → Prop
  | nil : Means v [] []
  | plain {c : CodePoint} {t u : Text} (hc : c ≠ '\\') (h : Means v t u) :
    Means v (c :: t) (c :: u)
  | pair {letter c : CodePoint} {t u : Text} (hpair : v.Pair letter c) (h : Means v t u) :
    Means v ('\\' :: letter :: t) (c :: u)

/-- What header text stands for in the frames of a command: before 1.1 and in the handshake nothing
is an escape. -/
inductive Stands (v : Version) (c : Command) : Text → Text → Prop
  | verbatim {t : Text} (h : v < ⟨[1, 1]⟩ ∨ c = .connect ∨ c = .connected) : Stands v c t t
  | escaped {t u : Text} (hv : ¬ v < ⟨[1, 1]⟩) (hconnect : c ≠ .connect)
    (hconnected : c ≠ .connected) (h : v.Means t u) : Stands v c t u

/-- **A line that spells a header.** What counts of it is UTF-8, and what stands before its first
colon and what stands after it stand for the name and the value. -/
structure Entry (v : Version) (c : Command) (line : Bytes) (header : Text × Text) : Prop where
  length_le : line.length ≤ 10240
  parts : ∃ name value : Text, v.Line line (octets (name ++ CodePoint.ofChar ':' :: value)) ∧
    (∀ p ∈ name ++ CodePoint.ofChar ':' :: value, ¬ p.IsSurrogate) ∧
    CodePoint.ofChar ':' ∉ name ∧ v.Stands c name header.1 ∧ v.Stands c value header.2

end Version

/-- **The headers of some lines**: each name has the first of its values, and the names stand in the
order in which they first came. -/
structure Headers.FirstOf (h : Headers) (entries : List (Text × Text)) : Prop where
  names_eq : h.names = (entries.map Prod.fst).eraseDups
  get?_eq : ∀ name, h.get? name = entries.lookup name

/-- **A way to spell a frame** at a version. -/
structure Spelling (v : Version) (f : Frame) where
  blanks : List Bytes
  command : Command
  /-- The command line. -/
  word : Bytes
  /-- The header lines, each with the header that it spells. -/
  lines : List (Bytes × (Text × Text))
  /-- The line after the header lines. -/
  last : Bytes
  blanks_blank : ∀ line ∈ blanks, v.Line line []
  command_eq : f.command = command.name
  word_line : v.Line word (octets command.name)
  lines_entry : ∀ line ∈ lines, v.Entry command line.1 line.2
  lines_length_le : lines.length ≤ 1000
  headers_first : f.headers.FirstOf (lines.map Prod.snd)
  last_blank : v.Line last []
  /-- A length that the headers announce is that of the body, and else there is no NUL in it. -/
  body_delimited : f.headers.Delimits f.body
  /-- No body is longer than this, whether its length is announced or not. -/
  body_length_le : f.body.length ≤ 104857600

/-- The bytes of a spelling: its lines, each ended by a line feed, then the body and a NUL. -/
def Spelling.bytes {v : Version} {f : Frame} (s : Spelling v f) : Bytes :=
  Bytes.unlines (s.blanks ++ s.word :: s.lines.map Prod.fst ++ [s.last]) ++ f.body ++ [Octet.nul]

/-! ### Lines and escapes -/

namespace Version

variable {v : Version}

theorem line_iff {line content : Bytes} :
    v.Line line content ↔ Octet.lineFeed ∉ line ∧ v.dialect.trimLine line = content := by
  have hv : v.dialect = .v12 ↔ ¬ v < ⟨[1, 2]⟩ := dialect_eq_v12_iff
  constructor
  · rintro (⟨hfeed, hlast⟩ | ⟨hfeed, h12⟩)
    · exact ⟨hfeed, Dialect.trimLine_of_getLast?_ne fun h => hlast (hv.mp h)⟩
    · refine ⟨?_, ?_⟩
      · rw [List.mem_append, List.mem_singleton, not_or]
        exact ⟨hfeed, by decide⟩
      · rw [Dialect.trimLine, if_pos ⟨hv.mpr h12, List.getLast?_concat⟩, List.dropLast_concat]
  · rintro ⟨hfeed, rfl⟩
    -- whether a carriage return is trimmed decides which kind of line it is
    by_cases hreturn : v.dialect = .v12 ∧ line.getLast? = some Octet.carriageReturn
    · have hline : line.dropLast ++ [Octet.carriageReturn] = line :=
        List.dropLast_append_getLast? _ hreturn.2
      rw [Dialect.trimLine, if_pos hreturn]
      have hcontent : Octet.lineFeed ∉ line.dropLast := fun h => hfeed (List.dropLast_subset _ h)
      have hreturned := Line.returned hcontent (hv.mp hreturn.1)
      rwa [hline] at hreturned
    · rw [Dialect.trimLine, if_neg hreturn]
      exact .whole hfeed fun h12 hlast => hreturn ⟨hv.mpr h12, hlast⟩

theorem line_nil_iff {line : Bytes} : v.Line line [] ↔ v.dialect.Blank line :=
  line_iff.trans ⟨fun h => ⟨h.1, h.2⟩, fun h => ⟨h.lineFeed_not_mem, h.trimLine_eq⟩⟩

/-- The pairs are the escapes of the dialect. -/
theorem pair_iff (hv : ¬ v < ⟨[1, 1]⟩) {letter c : CodePoint} :
    v.Pair letter c ↔ v.dialect.meaning? letter = some c := by
  have h12 : v.dialect = .v12 ↔ ¬ v < ⟨[1, 2]⟩ := dialect_eq_v12_iff
  have hne : v.dialect ≠ .v10 := mt dialect_eq_v10_iff.mp hv
  constructor
  · -- three pairs stand in both tables, the fourth in the newer one alone
    rintro (_ | _ | _ | hnew)
    · cases hd : v.dialect with
      | v10 => exact absurd hd hne
      | v11 | v12 => rfl
    · cases hd : v.dialect with
      | v10 => exact absurd hd hne
      | v11 | v12 => rfl
    · cases hd : v.dialect with
      | v10 => exact absurd hd hne
      | v11 | v12 => rfl
    · rw [h12.mpr hnew]
      rfl
  · intro h
    -- what the table gives stands in it, and each of its rows is a pair
    obtain ⟨before, later, heq, -⟩ := List.lookup_eq_some_iff.mp h
    have hmem : (letter, c) ∈ v.dialect.escapes := by
      rw [heq]
      exact List.mem_append_right _ (List.mem_cons_self ..)
    cases hd : v.dialect with
    | v10 => exact absurd hd hne
    | v11 =>
      rw [hd] at hmem
      simp only [Dialect.escapes, List.mem_cons, Prod.mk.injEq, List.not_mem_nil, or_false] at hmem
      rcases hmem with ⟨rfl, rfl⟩ | ⟨rfl, rfl⟩ | ⟨rfl, rfl⟩
      · exact .lineFeed
      · exact .colon
      · exact .backslash
    | v12 =>
      rw [hd] at hmem
      simp only [Dialect.escapes, List.mem_cons, Prod.mk.injEq, List.not_mem_nil, or_false] at hmem
      rcases hmem with ⟨rfl, rfl⟩ | ⟨rfl, rfl⟩ | ⟨rfl, rfl⟩ | ⟨rfl, rfl⟩
      · exact .lineFeed
      · exact .colon
      · exact .backslash
      · exact .carriageReturn (h12.mp hd)

/-- Escapes are read as what they stand for. -/
theorem means_iff (hv : ¬ v < ⟨[1, 1]⟩) {t u : Text} :
    v.Means t u ↔ v.dialect.unescapePairs? t = some u := by
  constructor
  · intro h
    -- piece by piece, as the text is put together
    induction h with
    | nil => rfl
    | plain hc _ ih => rw [Dialect.unescapePairs?_cons_of_ne hc, ih, Option.map_some]
    | pair hpair _ ih =>
      rw [Dialect.unescapePairs?, if_pos rfl, (pair_iff hv).mp hpair]
      simp only [ih, Option.map_some]
  · intro h
    -- the cases are those of the reading: a backslash goes with its letter, all else alone
    fun_induction Dialect.unescapePairs? v.dialect t generalizing u with
    | case1 =>
      obtain rfl := Option.some.inj h
      exact .nil
    | case2 => cases h
    | case3 c hc =>
      obtain rfl := Option.some.inj h
      exact .plain hc .nil
    | case4 => cases h
    | case5 letter rest m hm ih =>
      obtain ⟨w, hw, rfl⟩ := Option.map_eq_some_iff.mp h
      exact .pair ((pair_iff hv).mpr hm) (ih hw)
    | case6 c letter rest hc ih =>
      obtain ⟨w, hw, rfl⟩ := Option.map_eq_some_iff.mp h
      exact .plain hc (ih hw)

theorem stands_iff {c : Command} {t u : Text} :
    v.Stands c t u ↔ v.dialect.readAs c t = some u := by
  have hhandshake : c.isHandshake = true ↔ c = .connect ∨ c = .connected := by
    simp [Command.isHandshake]
  unfold Dialect.readAs
  constructor
  · intro hstands
    cases hstands with
    | verbatim hverbatim =>
      split
      · rfl
      · next hno =>
        -- it is no handshake, so there are no escapes at this version
        have hold : v < ⟨[1, 1]⟩ := hverbatim.resolve_right (mt hhandshake.mpr hno)
        rw [dialect_eq_v10_iff.mpr hold]
        rfl
    | escaped hv hconnect hconnected h =>
      rw [if_neg (mt hhandshake.mp (not_or.mpr ⟨hconnect, hconnected⟩)),
        Dialect.unescape?_eq (mt dialect_eq_v10_iff.mp hv)]
      exact (means_iff hv).mp h
  · intro h
    split at h
    · next hyes =>
      obtain rfl := Option.some.inj h
      exact .verbatim (.inr (hhandshake.mp hyes))
    · next hno =>
      obtain ⟨hconnect, hconnected⟩ := not_or.mp (mt hhandshake.mpr hno)
      -- outside of the handshake the version decides whether there are escapes
      by_cases hv : v < ⟨[1, 1]⟩
      · rw [dialect_eq_v10_iff.mpr hv] at h
        obtain rfl := Option.some.inj h
        exact .verbatim (.inl hv)
      · rw [Dialect.unescape?_eq (mt dialect_eq_v10_iff.mp hv)] at h
        exact .escaped hv hconnect hconnected ((means_iff hv).mpr h)

theorem entry_iff {c : Command} {line : Bytes} {header : Text × Text} :
    v.Entry c line header ↔ v.dialect.HeaderLine c line header := by
  constructor
  · rintro ⟨hlength, name, value, hline, hfree, hcolon, hname, hvalue⟩
    obtain ⟨hfeed, htrim⟩ := line_iff.mp hline
    exact ⟨hfeed, hlength, name, value, Utf8.decode_eq_ok_iff.mpr ⟨hfree, htrim⟩, hcolon,
      stands_iff.mp hname, stands_iff.mp hvalue⟩
  · rintro ⟨hfeed, hlength, name, value, hdecode, hcolon, hname, hvalue⟩
    obtain ⟨hfree, htrim⟩ := Utf8.decode_eq_ok_iff.mp hdecode
    exact ⟨hlength, name, value, line_iff.mpr ⟨hfeed, htrim⟩, hfree, hcolon, stands_iff.mpr hname,
      stands_iff.mpr hvalue⟩

end Version

/-! ### First values -/

namespace Headers

theorem get?_insertIfNew (h : Headers) (name value other : Text) :
    (h.insertIfNew name value).get? other = (h.get? other).or ([(name, value)].lookup other) := by
  unfold get?
  rw [entries_insertIfNew]
  split
  · next hmem =>
    -- the name is bound already, so a look-up does not come to the new value
    by_cases hother : other = name
    · subst hother
      obtain ⟨bound, hbound⟩ : ∃ bound, h.entries.lookup other = some bound := by
        refine Option.ne_none_iff_exists'.mp fun hnone => ?_
        obtain ⟨e, he, hname⟩ := List.mem_map.mp hmem
        have := List.lookup_eq_none_iff.mp hnone e he
        simp [hname] at this
      rw [hbound, Option.some_or]
    · have hnone : [(name, value)].lookup other = none :=
        List.lookup_eq_none_iff.mpr (by simpa using hother)
      rw [hnone, Option.or_none]
  · rw [List.lookup_append]

/-- One more line. -/
theorem FirstOf.concat {h : Headers} {entries : List (Text × Text)} (hfirst : h.FirstOf entries)
    (e : Text × Text) : (h.insertIfNew e.1 e.2).FirstOf (entries ++ [e]) where
  names_eq := by
    -- a name is appended if it is new, which is what removing repetitions comes to
    have hnames : (h.insertIfNew e.1 e.2).names =
        if e.1 ∈ h.names then h.names else h.names ++ [e.1] := by
      rw [names, entries_insertIfNew]
      split
      · rfl
      · rw [List.map_append]
        rfl
    have hmem : e.1 ∈ h.names ↔ e.1 ∈ entries.map Prod.fst := by
      rw [hfirst.names_eq, List.mem_eraseDups]
    rw [hnames, List.map_append, List.eraseDups_append, ← hfirst.names_eq]
    split
    · next hold => simp [List.removeAll, hmem.mp hold]
    · next hnew => simp [List.removeAll, mt hmem.mpr hnew, List.eraseDups_cons]
  get?_eq other := by
    rw [get?_insertIfNew, hfirst.get?_eq, List.lookup_append]

/-- What is collected line by line are the first values. -/
theorem firstOf_collect (entries : List (Text × Text)) :
    (Headers.empty.collect entries).FirstOf entries := by
  induction entries using List.reverseRecOn with
  | nil => exact ⟨rfl, fun _ => rfl⟩
  | append_singleton entries e ih =>
    rw [collect, List.foldl_concat]
    exact ih.concat e

/-- Each header is found under its name, as no name stands in two of them. -/
theorem get?_of_mem {h : Headers} {e : Text × Text} (he : e ∈ h.entries) :
    h.get? e.1 = some e.2 := by
  obtain ⟨before, later, heq⟩ := List.append_of_mem he
  refine List.lookup_eq_some_iff.mpr ⟨before, later, heq, fun p hp => ?_⟩
  have hnodup := h.nodup
  rw [heq, List.map_append, List.map_cons, List.nodup_append] at hnodup
  -- a header in front of it has another name
  have hne := hnodup.2.2 p.1 (List.mem_map_of_mem hp) e.1 (List.mem_cons_self ..)
  simpa using Ne.symm hne

/-- Names and values determine the headers. -/
theorem eq_of_names_eq_of_get?_eq {h k : Headers} (hnames : h.names = k.names)
    (hget : ∀ name, h.get? name = k.get? name) : h = k := by
  -- each entry is its name with the value that is found for it
  have hentries : ∀ h : Headers,
      h.entries = h.names.map fun name => (name, (h.get? name).getD []) := by
    intro h
    rw [names, List.map_map]
    refine (List.map_id _).symm.trans (List.map_congr_left fun e he => ?_)
    simp [get?_of_mem he]
  refine Headers.ext ?_
  rw [hentries h, hentries k, hnames]
  exact List.map_congr_left fun name _ => by rw [hget]

theorem firstOf_iff {h : Headers} {entries : List (Text × Text)} :
    h.FirstOf entries ↔ h = Headers.empty.collect entries := by
  have hcollect := firstOf_collect entries
  constructor
  · intro hfirst
    -- both are the first values of the same lines, and first values determine the headers
    refine eq_of_names_eq_of_get?_eq ?_ fun name => ?_
    · rw [hfirst.names_eq, hcollect.names_eq]
    · rw [hfirst.get?_eq, hcollect.get?_eq]
  · rintro rfl
    exact hcollect

end Headers

/-! ### Spellings -/

/-- **Grammar and layout agree.** -/
theorem exists_spelling_iff {v : Version} {f : Frame} {bytes : Bytes} :
    (∃ s : Spelling v f, s.bytes = bytes) ↔ ∃ l : Layout v.dialect f, l.bytes = bytes := by
  constructor
  · rintro ⟨s, rfl⟩
    -- the fields are translated one by one; the bytes are made of the same lines
    refine ⟨{
      blanks := s.blanks
      command := s.command
      word := s.word
      lines := s.lines
      last := s.last
      blanks_blank := fun line hline => Version.line_nil_iff.mp (s.blanks_blank line hline)
      command_eq := s.command_eq
      word_eq := (Version.line_iff.mp s.word_line).2
      lines_read := fun line hline => Version.entry_iff.mp (s.lines_entry line hline)
      lines_length_le := s.lines_length_le
      headers_eq := Headers.firstOf_iff.mp s.headers_first
      last_blank := Version.line_nil_iff.mp s.last_blank
      body_length_le := s.body_length_le
      body_delimited := s.body_delimited }, rfl⟩
  · rintro ⟨l, rfl⟩
    refine ⟨{
      blanks := l.blanks
      command := l.command
      word := l.word
      lines := l.lines
      last := l.last
      blanks_blank := fun line hline => Version.line_nil_iff.mpr (l.blanks_blank line hline)
      command_eq := l.command_eq
      -- a layout need not say that there is no line feed in the command line
      word_line := Version.line_iff.mpr ⟨Frame.Decoder.lineFeed_not_mem_word l.word_eq, l.word_eq⟩
      lines_entry := fun line hline => Version.entry_iff.mpr (l.lines_read line hline)
      lines_length_le := l.lines_length_le
      headers_first := Headers.firstOf_iff.mpr l.headers_eq
      last_blank := Version.line_nil_iff.mpr l.last_blank
      body_delimited := l.body_delimited
      body_length_le := l.body_length_le }, rfl⟩

namespace Frame

/-- **The decoder accepts exactly the grammar.** At an accepted version it returns a frame and has
taken a number of bytes, from a memory that hands them over in blocks of whatever size, if and only
if these bytes are a spelling of the frame. -/
theorem read_eq_ok_iff_spelled {version : Text} {v : Version}
    (hversion : Version.parse? version = some v) {cap : Option Nat} (hcap : cap ≠ some 0)
    (bytes : Bytes) (k : Nat) (f : Frame) :
    Frame.read version (⟨bytes, cap⟩ : Memory) = (.ok f, ⟨bytes.drop k, cap⟩) ↔
      ∃ s : Spelling v f, s.bytes = bytes.take k := by
  rw [exists_spelling_iff, read_memory_eq_ok_iff hversion hcap]
  refine exists_congr fun l => ?_
  constructor
  · -- what is left is the same on both sides, so what was taken is too
    intro hbytes
    have hsplit := (List.take_append_drop k bytes).trans hbytes
    exact (List.append_cancel_right hsplit).symm
  · intro hl
    rw [hl, List.take_append_drop]

/-- A message with a NUL in its body, and with a colon in the name of a header. -/
def ofTwoNames : Frame where
  command := "MESSAGE"
  headers := { entries := [("a:b", "1"), ("content-length", "2")], nodup := by decide +kernel }
  body := [0, 10]

/-- In 1.2 a lone carriage return is a blank line. -/
theorem line_return : Version.Line ⟨[1, 2]⟩ [Octet.carriageReturn] [] := by
  have hreturned : Version.Line ⟨[1, 2]⟩ ([] ++ [Octet.carriageReturn]) [] :=
    .returned List.not_mem_nil (by decide)
  exact hreturned

/-- Two blank lines come before it, some lines end in a carriage return, and one repeats a name that
is the same only once it is unescaped. -/
def spellingOfTwoNames : Spelling ⟨[1, 2]⟩ ofTwoNames where
  blanks := [[Octet.carriageReturn], []]
  command := .message
  word := octets "MESSAGE" ++ [Octet.carriageReturn]
  lines := [(octets "a\\cb:1", "a:b", "1"),
    (octets "content-length:2" ++ [Octet.carriageReturn], "content-length", "2"),
    (octets "a\\cb:3", "a:b", "3")]
  last := [Octet.carriageReturn]
  blanks_blank := by
    intro line hline
    rcases List.mem_cons.mp hline with rfl | hline
    · exact line_return
    · obtain rfl := List.mem_singleton.mp hline
      exact .whole List.not_mem_nil (by decide)
  command_eq := rfl
  word_line := .returned (by decide +kernel) (by decide)
  lines_entry := by
    -- the escape stands for the colon of the name, and the colon of the line comes after it
    have hname : Version.Stands ⟨[1, 2]⟩ .message "a\\cb" "a:b" :=
      .escaped (by decide) (by decide) (by decide)
        (.plain (by decide) (.pair .colon (.plain (by decide) .nil)))
    have hlength : Version.Line ⟨[1, 2]⟩ (octets "content-length:2" ++ [Octet.carriageReturn])
        (octets "content-length:2") := .returned (by decide +kernel) (by decide)
    intro line hline
    simp only [List.mem_cons, List.not_mem_nil, or_false] at hline
    rcases hline with rfl | rfl | rfl
    · exact ⟨by decide +kernel, "a\\cb", "1", .whole (by decide +kernel) (by decide +kernel),
        fun _ => Text.not_isSurrogate_of_mem_ofString (s := "a\\cb:1"), by decide +kernel, hname,
        Version.stands_iff.mpr (by decide +kernel)⟩
    · exact ⟨by decide +kernel, "content-length", "2", hlength,
        fun _ => Text.not_isSurrogate_of_mem_ofString (s := "content-length:2"), by decide +kernel,
        Version.stands_iff.mpr (by decide +kernel), Version.stands_iff.mpr (by decide +kernel)⟩
    · exact ⟨by decide +kernel, "a\\cb", "3", .whole (by decide +kernel) (by decide +kernel),
        fun _ => Text.not_isSurrogate_of_mem_ofString (s := "a\\cb:3"), by decide +kernel, hname,
        Version.stands_iff.mpr (by decide +kernel)⟩
  lines_length_le := by decide
  headers_first := Headers.firstOf_iff.mpr (by decide +kernel)
  last_blank := line_return
  body_delimited := by decide +kernel
  body_length_le := by decide

theorem read_spelled_ofTwoNames :
    Version.parse? "1.2" = some ⟨[1, 2]⟩ ∧
      Frame.read "1.2" (⟨spellingOfTwoNames.bytes ++ [65], some 1⟩ : Memory) =
        (.ok ofTwoNames, ⟨[65], some 1⟩) := by
  have hversion : Version.parse? "1.2" = some ⟨[1, 2]⟩ := by decide +kernel
  have hcap : some 1 ≠ some 0 := by decide
  have h := (read_eq_ok_iff_spelled hversion hcap (spellingOfTwoNames.bytes ++ [65])
    spellingOfTwoNames.bytes.length ofTwoNames).mpr ⟨spellingOfTwoNames, List.take_left.symm⟩
  rw [List.drop_left] at h
  exact ⟨hversion, h⟩

end Frame

end Stomp
