import Stomp.Frame.Decoder
import Stomp.Proofs.Text.Octets

/-!
# The layout of a frame on the wire

`Layout d f` takes a byte sequence apart into the lines and the body that dialect `d` reads as the
frame `f`: blank lines, the command line, header lines, a blank line, the body and a NUL. It is
declarative, and says nothing of states or limits but those on the parts themselves.

The main statement, `scan_start_eq_done_ok_iff`, is that the decoder accepts exactly the layouts:
it returns `f` and leaves `rest` unread if and only if the bytes are a layout of `f` followed by
`rest`.

Each phase of the decoder has one lemma, in both directions:

* `scan_line` and `exists_of_scan_line` walk over one line. Both line states feed in the same way
  (`FeedsLine`), so one lemma serves the command line and the header lines;
* `scanFrom_afterHeaders_iff` is the body, whose end is found by its announced length or by its
  first NUL (`Headers.Delimits`);
* `scan_header_iff` is the header block, by recursion on its lines.
-/

namespace Stomp

open Utf8 (octets)

/-- Lines on the wire, each ended by a line feed. -/
def Bytes.unlines (lines : List Bytes) : Bytes := lines.flatMap (· ++ [Octet.lineFeed])

@[simp] theorem Bytes.unlines_nil : Bytes.unlines [] = [] := rfl

@[simp] theorem Bytes.unlines_cons (line : Bytes) (lines : List Bytes) :
    Bytes.unlines (line :: lines) = line ++ Octet.lineFeed :: Bytes.unlines lines := by
  simp [Bytes.unlines]

@[simp] theorem Bytes.unlines_append (lines others : List Bytes) :
    Bytes.unlines (lines ++ others) = Bytes.unlines lines ++ Bytes.unlines others :=
  List.flatMap_append

namespace Dialect

/-- A line that counts as empty: nothing, or from 1.2 on a lone carriage return. -/
structure Blank (d : Dialect) (line : Bytes) : Prop where
  lineFeed_not_mem : Octet.lineFeed ∉ line
  trimLine_eq : d.trimLine line = []

/-- Header text as it is read in the frames of a command: in the handshake it stands as it is. -/
def readAs (d : Dialect) (c : Command) (t : Text) : Option Text :=
  if c.isHandshake then some t else d.unescape? t

/-- A line that is read as the header `entry`: it is UTF-8, and what stands before its first colon
and what stands after it are read as the name and the value. -/
structure HeaderLine (d : Dialect) (c : Command) (line : Bytes) (entry : Text × Text) : Prop where
  lineFeed_not_mem : Octet.lineFeed ∉ line
  length_le : line.length ≤ Frame.maxHeaderLength
  reads : ∃ name value : Text,
    Utf8.decode (d.trimLine line) = .ok (name ++ CodePoint.ofChar ':' :: value) ∧
      CodePoint.ofChar ':' ∉ name ∧
      d.readAs c name = some entry.1 ∧ d.readAs c value = some entry.2

/-- A header line holds a colon at least. -/
theorem HeaderLine.trimLine_ne_nil {d : Dialect} {c : Command} {line : Bytes}
    {entry : Text × Text} (h : d.HeaderLine c line entry) : d.trimLine line ≠ [] := by
  obtain ⟨name, value, hdecode, -⟩ := h.reads
  intro hnil
  have hoctets := (Utf8.decode_eq_ok_iff.mp hdecode).2
  rw [hnil] at hoctets
  have := Utf8.octets_eq_nil_iff.mp hoctets.symm
  simp at this

/-- A line is what is read of it, or that and a carriage return. -/
theorem eq_trimLine_or (d : Dialect) (line : Bytes) :
    line = d.trimLine line ∨
      d = .v12 ∧ line = d.trimLine line ++ [Octet.carriageReturn] := by
  unfold trimLine
  split
  · next hcr => exact .inr ⟨hcr.1, (List.dropLast_append_getLast? _ hcr.2).symm⟩
  · exact .inl rfl

/-- A line that ends in no carriage return, or in a dialect that knows none, is left as it is. -/
theorem trimLine_of_getLast?_ne {d : Dialect} {line : Bytes}
    (h : d = .v12 → line.getLast? ≠ some Octet.carriageReturn) : d.trimLine line = line :=
  if_neg fun hcr => h hcr.1 hcr.2

theorem length_trimLine (d : Dialect) (line : Bytes) :
    (d.trimLine line).length ≤ line.length ∧ line.length ≤ (d.trimLine line).length + 1 := by
  rcases eq_trimLine_or d line with h | ⟨-, h⟩
  · have := congrArg List.length h
    omega
  · have := congrArg List.length h
    rw [List.length_append, List.length_singleton] at this
    omega

theorem Blank.length_le {d : Dialect} {line : Bytes} (h : d.Blank line) : line.length ≤ 1 := by
  have := (length_trimLine d line).2
  rw [h.trimLine_eq] at this
  exact this

end Dialect

/-- The end of the body is found: by the announced length, or else by the first NUL. -/
def Headers.Delimits (h : Headers) (body : Bytes) : Prop :=
  match h.get? Headers.Name.contentLength with
  | some value => Text.toInt? (value.trimmed CodePoint.isBlank) = some (body.length : Int)
  | none => Octet.nul ∉ body

instance (h : Headers) (body : Bytes) : Decidable (h.Delimits body) := by
  unfold Headers.Delimits
  split <;> infer_instance

/-- Headers with those of some lines added; the first value of a name stays. -/
def Headers.collect (h : Headers) (entries : List (Text × Text)) : Headers :=
  entries.foldl (fun h e => h.insertIfNew e.1 e.2) h

@[simp] theorem Headers.collect_nil (h : Headers) : h.collect [] = h := rfl

@[simp] theorem Headers.collect_cons (h : Headers) (e : Text × Text)
    (entries : List (Text × Text)) :
    h.collect (e :: entries) = (h.insertIfNew e.1 e.2).collect entries := rfl

/-- A frame as it stands on the wire. -/
structure Layout (d : Dialect) (f : Frame) where
  blanks : List Bytes
  command : Command
  /-- The command line. -/
  word : Bytes
  /-- The header lines, each with the header that it is read as. -/
  lines : List (Bytes × (Text × Text))
  /-- The line after the header block. -/
  last : Bytes
  blanks_blank : ∀ line ∈ blanks, d.Blank line
  command_eq : f.command = command.name
  word_eq : d.trimLine word = octets command.name
  lines_read : ∀ line ∈ lines, d.HeaderLine command line.1 line.2
  lines_length_le : lines.length ≤ Frame.maxHeaders
  headers_eq : f.headers = Headers.empty.collect (lines.map Prod.snd)
  last_blank : d.Blank last
  body_length_le : f.body.length ≤ Frame.maxBodyLength
  body_delimited : f.headers.Delimits f.body

/-- The bytes that are laid out. -/
def Layout.bytes {d : Dialect} {f : Frame} (l : Layout d f) : Bytes :=
  Bytes.unlines (l.blanks ++ l.word :: l.lines.map Prod.fst ++ [l.last]) ++ f.body ++ [Octet.nul]

/-! ### One line -/

namespace Reader

variable {σ α : Type}

/-- Feeds bytes from a state on, unless there is an error instead. -/
def scanFrom (r : Reader σ α) (state : Except Error σ) (bytes : Bytes) : Scan σ α :=
  match state with
  | .ok state => r.scan state bytes
  | .error e => .done (.error e) bytes

@[simp] theorem scanFrom_ok (r : Reader σ α) (state : σ) (bytes : Bytes) :
    r.scanFrom (.ok state) bytes = r.scan state bytes := rfl

@[simp] theorem scanFrom_error (r : Reader σ α) (e : Error) (bytes : Bytes) :
    r.scanFrom (.error e) bytes = .done (.error e) bytes := rfl

theorem scan_cons_of_feed_eq (r : Reader σ α) {state : σ} {b : UInt8} {next : Except Error σ}
    (h : r.feed state b = .ofExcept next) (rest : Bytes) :
    r.scan state (b :: rest) = r.scanFrom next rest := by
  rw [scan, h]
  cases next <;> rfl

/-- With an error nothing is read. -/
theorem exists_of_scanFrom_eq_done_ok (r : Reader σ α) {state : Except Error σ} {bytes rest : Bytes}
    {a : α} (h : r.scanFrom state bytes = .done (.ok a) rest) : ∃ next, state = .ok next := by
  cases state with
  | error e => cases h
  | ok next => exact ⟨next, rfl⟩

end Reader

namespace Frame.Decoder

/-- The states of a line: a byte lengthens the line, a line feed ends it. -/
def FeedsLine (d : Dialect) (part : HeadLine) (state : Array UInt8 → State)
    (after : Bytes → Except Error State) : Prop :=
  ∀ line b, feed d (state line) b =
    if b = Octet.lineFeed then .ofExcept (after line.toList)
    else .ofExcept ((lengthened part line b).map state)

theorem feedsLine_command (d : Dialect) : FeedsLine d .command .command (afterCommand d) :=
  fun _ _ => rfl

theorem feedsLine_header (d : Dialect) (head : Head) (count : Nat) :
    FeedsLine d .header (.header head count) (afterHeader d head count) :=
  fun _ _ => rfl

section Line

variable {d : Dialect} {part : HeadLine} {state : Array UInt8 → State}
  {after : Bytes → Except Error State}

/-- A line that is not too long is taken whole, and what follows it is left. -/
theorem scan_line (hfeed : FeedsLine d part state after) {bytes : Bytes}
    (hbytes : Octet.lineFeed ∉ bytes) (line : Array UInt8)
    (hlength : line.size + bytes.length ≤ part.maxLength) (rest : Bytes) :
    (decoder d).scan (state line) (bytes ++ Octet.lineFeed :: rest) =
      (decoder d).scanFrom (after (line.toList ++ bytes)) rest := by
  induction bytes generalizing line with
  | nil =>
    -- the line feed ends the line
    rw [List.nil_append, List.append_nil]
    refine Reader.scan_cons_of_feed_eq _ ?_ rest
    exact (hfeed line _).trans (if_pos rfl)
  | cons b bytes ih =>
    rw [List.mem_cons, not_or] at hbytes
    rw [List.length_cons] at hlength
    have hb : lengthened part line b = .ok (line.push b) := if_pos (by omega)
    have hnext : (decoder d).feed (state line) b = .ofExcept (.ok (state (line.push b))) := by
      refine (hfeed line b).trans ?_
      rw [if_neg (Ne.symm hbytes.1), hb]
      rfl
    rw [List.cons_append, Reader.scan_cons_of_feed_eq _ hnext, Reader.scanFrom_ok,
      ih hbytes.2 (line.push b) (by rw [Array.size_push]; omega)]
    simp

/-- Whoever gets a frame out of a line state has walked over a whole line. -/
theorem exists_of_scan_line (hfeed : FeedsLine d part state after) {line : Array UInt8}
    {bytes rest : Bytes} {f : Frame}
    (h : (decoder d).scan (state line) bytes = .done (.ok f) rest) :
    ∃ front later, bytes = front ++ Octet.lineFeed :: later ∧ Octet.lineFeed ∉ front ∧
      line.size + front.length ≤ max part.maxLength line.size ∧
      (decoder d).scanFrom (after (line.toList ++ front)) later = .done (.ok f) rest := by
  induction bytes generalizing line with
  | nil => simp at h
  | cons b bytes ih =>
    by_cases hb : b = Octet.lineFeed
    · -- the line ends here
      subst hb
      rw [Reader.scan_cons_of_feed_eq _ ((hfeed line _).trans (if_pos rfl))] at h
      refine ⟨[], bytes, rfl, List.not_mem_nil, ?_, ?_⟩
      · exact Nat.le_max_right _ _
      · rwa [List.append_nil]
    · rw [Reader.scan_cons_of_feed_eq _ ((hfeed line b).trans (if_neg hb))] at h
      unfold lengthened at h
      split at h
      · next hroom =>
        -- the byte belongs to the line, whose rest is found by the induction
        obtain ⟨front, later, rfl, hfront, hlength, hscan⟩ := ih h
        rw [Array.size_push] at hlength
        refine ⟨b :: front, later, rfl, ?_, ?_, ?_⟩
        · rw [List.mem_cons, not_or]
          exact ⟨Ne.symm hb, hfront⟩
        · rw [List.length_cons]
          omega
        · simpa using hscan
      · -- the line is full, and there is an error instead
        simp [Except.map] at h

/-- The same from the beginning of a line. -/
theorem scan_whole_line (hfeed : FeedsLine d part state after) {line : Bytes}
    (hline : Octet.lineFeed ∉ line) (hlength : line.length ≤ part.maxLength) (rest : Bytes) :
    (decoder d).scan (state #[]) (line ++ Octet.lineFeed :: rest) =
      (decoder d).scanFrom (after line) rest := by
  have hroom : (#[] : Array UInt8).size + line.length ≤ part.maxLength := by
    rw [Array.size_empty, Nat.zero_add]
    exact hlength
  exact scan_line hfeed hline #[] hroom rest

theorem exists_whole_line (hfeed : FeedsLine d part state after) {bytes rest : Bytes} {f : Frame}
    (h : (decoder d).scan (state #[]) bytes = .done (.ok f) rest) :
    ∃ line later, bytes = line ++ Octet.lineFeed :: later ∧ Octet.lineFeed ∉ line ∧
      line.length ≤ part.maxLength ∧
      (decoder d).scanFrom (after line) later = .done (.ok f) rest := by
  obtain ⟨line, later, hbytes, hline, hlength, hscan⟩ := exists_of_scan_line hfeed h
  rw [Array.size_empty, Nat.zero_add, Nat.max_zero] at hlength
  exact ⟨line, later, hbytes, hline, hlength, hscan⟩

end Line

/-! ### The body -/

variable {d : Dialect} {head : Head} {bytes rest : Bytes} {f : Frame}

theorem scan_terminator_iff {body : Bytes} :
    (decoder d).scan (.terminator head body) bytes = .done (.ok f) rest ↔
      bytes = Octet.nul :: rest ∧ f = head.frame body := by
  cases bytes with
  | nil => simp
  | cons b bytes =>
    have hfeed : (decoder d).feed (.terminator head body) b =
        if b = Octet.nul then .done (.ok (head.frame body))
        else .done (.error (.protocol .missingTerminator)) := rfl
    rw [Reader.scan, hfeed]
    by_cases hb : b = Octet.nul
    · rw [if_pos hb, hb]
      simp only [Scan.done.injEq, Except.ok.injEq, List.cons.injEq, true_and]
      exact ⟨fun h => ⟨h.2, h.1.symm⟩, fun h => ⟨h.2.symm, h.1⟩⟩
    · rw [if_neg hb]
      simp [hb]

/-- A body of announced length is the bytes of that number, whatever they are. -/
theorem scan_sized_iff {later : Nat} {body : Array UInt8} :
    (decoder d).scan (.sized head later body) bytes = .done (.ok f) rest ↔
      ∃ front, front.length = later + 1 ∧ bytes = front ++ Octet.nul :: rest ∧
        f = head.frame (body.toList ++ front) := by
  induction later generalizing body bytes with
  | zero =>
    cases bytes with
    | nil => simp
    | cons b bytes =>
      -- the last byte of the body; the NUL comes next
      have hfeed : (decoder d).feed (.sized head 0 body) b =
          .more (.terminator head (body.push b).toList) := rfl
      rw [Reader.scan, hfeed]
      simp only [scan_terminator_iff, Array.toList_push]
      constructor
      · rintro ⟨rfl, rfl⟩
        exact ⟨[b], rfl, rfl, rfl⟩
      · rintro ⟨front, hlength, hbytes, rfl⟩
        obtain ⟨c, rfl⟩ := List.length_eq_one_iff.mp hlength
        rw [List.singleton_append, List.cons.injEq] at hbytes
        exact ⟨hbytes.2, by rw [hbytes.1]⟩
  | succ later ih =>
    cases bytes with
    | nil => simp
    | cons b bytes =>
      have hfeed : (decoder d).feed (.sized head (later + 1) body) b =
          .more (.sized head later (body.push b)) := rfl
      rw [Reader.scan, hfeed]
      simp only [ih, Array.toList_push, List.append_assoc, List.singleton_append]
      constructor
      · rintro ⟨front, hlength, rfl, rfl⟩
        exact ⟨b :: front, by rw [List.length_cons, hlength], rfl, rfl⟩
      · rintro ⟨front, hlength, hbytes, rfl⟩
        cases front with
        | nil => simp at hlength
        | cons c front =>
          rw [List.cons_append, List.cons.injEq] at hbytes
          obtain ⟨rfl, rfl⟩ := hbytes
          exact ⟨front, by rw [List.length_cons] at hlength; omega, rfl, rfl⟩

/-- Any other body is the bytes up to the first NUL. -/
theorem scan_unsized_iff {body : Array UInt8} :
    (decoder d).scan (.unsized head body) bytes = .done (.ok f) rest ↔
      ∃ front, Octet.nul ∉ front ∧ body.size + front.length ≤ max maxBodyLength body.size ∧
        bytes = front ++ Octet.nul :: rest ∧ f = head.frame (body.toList ++ front) := by
  induction bytes generalizing body with
  | nil => simp
  | cons b bytes ih =>
    have hfeed : (decoder d).feed (.unsized head body) b =
        if b = Octet.nul then .done (.ok (head.frame body.toList))
        else if body.size < maxBodyLength then .more (.unsized head (body.push b))
        else .done (.error (.protocol .bodyTooLong)) := rfl
    rw [Reader.scan, hfeed]
    by_cases hb : b = Octet.nul
    · -- the body ends here, so it is what was taken before
      rw [if_pos hb, hb]
      simp only [Scan.done.injEq, Except.ok.injEq]
      constructor
      · rintro ⟨rfl, rfl⟩
        exact ⟨[], List.not_mem_nil, by rw [List.length_nil]; omega, rfl, by rw [List.append_nil]⟩
      · rintro ⟨front, hnul, -, hbytes, rfl⟩
        cases front with
        | nil =>
          rw [List.nil_append, List.cons.injEq] at hbytes
          exact ⟨by rw [List.append_nil], hbytes.2⟩
        | cons c front =>
          rw [List.cons_append, List.cons.injEq] at hbytes
          exact absurd (hbytes.1 ▸ List.mem_cons_self ..) hnul
    · rw [if_neg hb]
      by_cases hroom : body.size < maxBodyLength
      · rw [if_pos hroom]
        simp only [ih, Array.toList_push, Array.size_push, List.append_assoc, List.singleton_append]
        constructor
        · rintro ⟨front, hnul, hlength, rfl, rfl⟩
          refine ⟨b :: front, ?_, ?_, rfl, rfl⟩
          · rw [List.mem_cons, not_or]
            exact ⟨Ne.symm hb, hnul⟩
          · rw [List.length_cons]
            omega
        · rintro ⟨front, hnul, hlength, hbytes, rfl⟩
          cases front with
          | nil => exact absurd (List.cons.inj hbytes).1 hb
          | cons c front =>
            -- the byte is the first of the body
            rw [List.cons_append, List.cons.injEq] at hbytes
            obtain ⟨rfl, rfl⟩ := hbytes
            rw [List.mem_cons, not_or] at hnul
            rw [List.length_cons] at hlength
            exact ⟨front, hnul.2, by omega, rfl, rfl⟩
      · -- the body is full, and what follows is no NUL
        rw [if_neg hroom]
        simp only [Scan.done.injEq, reduceCtorEq, false_and, false_iff]
        rintro ⟨front, hnul, hlength, hbytes, -⟩
        cases front with
        | nil => exact hb (List.cons.inj hbytes).1
        | cons c front =>
          rw [List.length_cons] at hlength
          omega

theorem bodyLength?_eq_ok_none_iff {h : Headers} :
    h.bodyLength? = .ok none ↔ h.get? Headers.Name.contentLength = none := by
  unfold Headers.bodyLength?
  cases h.get? Headers.Name.contentLength with
  | none => simp
  | some value =>
    -- with a value there is a length or an error
    simp only [reduceCtorEq, iff_false]
    split
    · simp
    · split <;> simp

/-- A length is announced by an integer that is no negative number and no greater than the longest
body. -/
theorem bodyLength?_eq_ok_some_iff {h : Headers} {n : Nat} :
    h.bodyLength? = .ok (some n) ↔
      ∃ value, h.get? Headers.Name.contentLength = some value ∧
        Text.toInt? (value.trimmed CodePoint.isBlank) = some (n : Int) ∧ n ≤ maxBodyLength := by
  unfold Headers.bodyLength?
  cases h.get? Headers.Name.contentLength with
  | none => simp
  | some value =>
    cases hsize : Text.toInt? (value.trimmed CodePoint.isBlank) with
    | none => simp [hsize]
    | some size =>
      simp only [hsize]
      split
      · next hrange =>
        -- out of range, so no length of a body
        simp only [reduceCtorEq, Option.some.injEq, false_iff]
        rintro ⟨value, rfl, hn, hle⟩
        rw [hsize, Option.some.injEq] at hn
        omega
      · next hrange =>
        simp only [Except.ok.injEq, Option.some.injEq]
        constructor
        · rintro rfl
          exact ⟨value, rfl, by rw [hsize, Int.toNat_of_nonneg (by omega)], by omega⟩
        · rintro ⟨value, rfl, hn, hle⟩
          rw [hsize, Option.some.injEq] at hn
          omega

/-- A body of announced length may be empty, and then nothing is read before the NUL. -/
theorem scanFrom_afterHeaders_of_announced {n : Nat}
    (hlen : head.headers.bodyLength? = .ok (some n)) :
    (decoder d).scanFrom (afterHeaders head) bytes = .done (.ok f) rest ↔
      ∃ front, front.length = n ∧ bytes = front ++ Octet.nul :: rest ∧ f = head.frame front := by
  cases n with
  | zero =>
    have hafter : afterHeaders head = .ok (.terminator head []) := by
      rw [afterHeaders, hlen]
      rfl
    rw [hafter, Reader.scanFrom_ok, scan_terminator_iff]
    simp [List.length_eq_zero_iff]
  | succ later =>
    have hafter : afterHeaders head = .ok (.sized head later #[]) := by
      rw [afterHeaders, hlen]
      rfl
    rw [hafter, Reader.scanFrom_ok, scan_sized_iff]
    simp

/-- **The body.** After the blank line the decoder takes the body that the headers delimit, and the
NUL. -/
theorem scanFrom_afterHeaders_iff :
    (decoder d).scanFrom (afterHeaders head) bytes = .done (.ok f) rest ↔
      ∃ body, bytes = body ++ Octet.nul :: rest ∧ f = head.frame body ∧
        head.headers.Delimits body ∧ body.length ≤ maxBodyLength := by
  unfold Headers.Delimits
  cases hget : head.headers.get? Headers.Name.contentLength with
  | none =>
    have hafter : afterHeaders head = .ok (.unsized head #[]) := by
      rw [afterHeaders, bodyLength?_eq_ok_none_iff.mpr hget]
      rfl
    rw [hafter, Reader.scanFrom_ok, scan_unsized_iff]
    simp only [List.size_toArray, List.length_nil, Nat.zero_add, Nat.max_zero, List.nil_append]
    constructor
    · rintro ⟨front, hnul, hlength, hbytes, hf⟩
      exact ⟨front, hbytes, hf, hnul, hlength⟩
    · rintro ⟨front, hbytes, hf, hnul, hlength⟩
      exact ⟨front, hnul, hlength, hbytes, hf⟩
  | some value =>
    cases hlen : head.headers.bodyLength? with
    | error e =>
      have hafter : afterHeaders head = .error e := by
        rw [afterHeaders, hlen]
        rfl
      rw [hafter, Reader.scanFrom_error]
      simp only [Scan.done.injEq, reduceCtorEq, false_and, false_iff]
      -- if the length were that of a body, there would be no error
      rintro ⟨body, -, -, hsize, hle⟩
      have hannounced := bodyLength?_eq_ok_some_iff.mpr ⟨value, hget, hsize, hle⟩
      rw [hlen] at hannounced
      simp at hannounced
    | ok announced =>
      cases announced with
      | none =>
        rw [bodyLength?_eq_ok_none_iff, hget] at hlen
        simp at hlen
      | some n =>
        obtain ⟨value', hget', hn, hle⟩ := bodyLength?_eq_ok_some_iff.mp hlen
        rw [hget, Option.some.injEq] at hget'
        subst hget'
        simp only [hn, Option.some.injEq]
        rw [scanFrom_afterHeaders_of_announced hlen]
        constructor
        · rintro ⟨front, rfl, hbytes, hf⟩
          exact ⟨front, hbytes, hf, rfl, hle⟩
        · rintro ⟨front, hbytes, hf, hlength, -⟩
          exact ⟨front, by omega, hbytes, hf⟩

/-! ### The header block -/

/-- Which lines are read as which headers. -/
theorem headerOfLine_eq_ok_iff {c : Command} {line : Bytes} {entry : Text × Text} :
    headerOfLine d c line = .ok entry ↔
      ∃ name value : Text, Utf8.decode line = .ok (name ++ CodePoint.ofChar ':' :: value) ∧
        CodePoint.ofChar ':' ∉ name ∧
        d.readAs c name = some entry.1 ∧ d.readAs c value = some entry.2 := by
  unfold headerOfLine Bytes.decode
  cases Utf8.decode line with
  | error m => simp [Except.mapError, bind, Except.bind]
  | ok text =>
    simp only [Except.mapError, bind, Except.bind, Except.ok.injEq]
    cases hcut : cut? (CodePoint.ofChar ':') text with
    | none =>
      have hcolon := cut?_eq_none_iff.mp hcut
      simp only [reduceCtorEq, false_iff]
      rintro ⟨name, value, rfl, -⟩
      simp at hcolon
    | some parts =>
      obtain ⟨name, value⟩ := parts
      -- the first colon leaves no choice of the two parts
      have hparts : ∀ name' value', (text = name' ++ CodePoint.ofChar ':' :: value' ∧
          CodePoint.ofChar ':' ∉ name') ↔ name = name' ∧ value = value' := by
        intro name' value'
        rw [← cut?_eq_some_iff, hcut, Option.some.injEq, Prod.mk.injEq]
      have hread : (∃ name' value', text = name' ++ CodePoint.ofChar ':' :: value' ∧
          CodePoint.ofChar ':' ∉ name' ∧ d.readAs c name' = some entry.1 ∧
            d.readAs c value' = some entry.2) ↔
          d.readAs c name = some entry.1 ∧ d.readAs c value = some entry.2 := by
        constructor
        · rintro ⟨name', value', htext, hcolon, hname, hvalue⟩
          obtain ⟨rfl, rfl⟩ := (hparts name' value').mp ⟨htext, hcolon⟩
          exact ⟨hname, hvalue⟩
        · rintro ⟨hname, hvalue⟩
          obtain ⟨htext, hcolon⟩ := (hparts name value).mpr ⟨rfl, rfl⟩
          exact ⟨name, value, htext, hcolon, hname, hvalue⟩
      rw [hread]
      unfold Dialect.readAs
      simp only
      split
      · simp [Prod.ext_iff]
      · cases hname : d.unescape? name with
        | none => simp [Dialect.readHeader, hname]
        | some n =>
          cases hvalue : d.unescape? value with
          | none => simp [Dialect.readHeader, hname, hvalue]
          | some v => simp [Dialect.readHeader, hname, hvalue, Prod.ext_iff]

/-- After a header line that leaves room for it, its header is added. -/
theorem afterHeader_of_headerLine {head : Head} {count : Nat} {line : Bytes} {entry : Text × Text}
    (h : d.HeaderLine head.command line entry) (hcount : count < maxHeaders) :
    afterHeader d head count line =
      .ok (.header { head with headers := head.headers.insertIfNew entry.1 entry.2 } (count + 1)
        #[]) := by
  have hread := headerOfLine_eq_ok_iff.mpr h.reads
  unfold afterHeader
  split
  · next hnil => exact absurd hnil h.trimLine_ne_nil
  · rw [if_pos hcount, hread]
    rfl

theorem afterHeader_of_trimLine_eq_nil {head : Head} {count : Nat} {line : Bytes}
    (h : d.trimLine line = []) : afterHeader d head count line = afterHeaders head := by
  unfold afterHeader
  rw [h]

/-- After a header line there is another one, or the line was blank. -/
theorem afterHeader_eq_ok {head : Head} {count : Nat} {line : Bytes} {next : State}
    (h : afterHeader d head count line = .ok next) :
    (d.trimLine line = [] ∧ afterHeaders head = .ok next) ∨
      (count < maxHeaders ∧ ∃ entry, headerOfLine d head.command (d.trimLine line) = .ok entry ∧
        next = .header { head with headers := head.headers.insertIfNew entry.1 entry.2 }
          (count + 1) #[]) := by
  unfold afterHeader at h
  split at h
  · next hnil => exact .inl ⟨hnil, h⟩
  · split at h
    · next hcount =>
      cases hread : headerOfLine d head.command (d.trimLine line) with
      | error e => simp [hread, bind, Except.bind] at h
      | ok entry =>
        simp only [hread, bind, Except.bind, Except.ok.injEq] at h
        exact .inr ⟨hcount, entry, rfl, h.symm⟩
    · simp at h

/-- A line that is passed in the header block is blank, or it is a header line. -/
theorem headerLine_of_scanFrom_afterHeader {head : Head} {count : Nat} {line later : Bytes}
    (hline : Octet.lineFeed ∉ line) (hlength : line.length ≤ maxHeaderLength)
    (h : (decoder d).scanFrom (afterHeader d head count line) later = .done (.ok f) rest) :
    d.trimLine line = [] ∨
      count < maxHeaders ∧ ∃ entry, d.HeaderLine head.command line entry := by
  obtain ⟨next, hnext⟩ := Reader.exists_of_scanFrom_eq_done_ok _ h
  rcases afterHeader_eq_ok hnext with ⟨hnil, -⟩ | ⟨hcount, entry, hread, -⟩
  · exact .inl hnil
  · exact .inr ⟨hcount, entry, hline, hlength, headerOfLine_eq_ok_iff.mp hread⟩

/-- **The header block.** The decoder takes header lines up to a blank line, and then the body that
their headers delimit. -/
theorem scan_header_iff {head : Head} {count : Nat} :
    (decoder d).scan (.header head count #[]) bytes = .done (.ok f) rest ↔
      ∃ (lines : List (Bytes × (Text × Text))) (last body : Bytes),
        (∀ line ∈ lines, d.HeaderLine head.command line.1 line.2) ∧
        count + lines.length ≤ max maxHeaders count ∧ d.Blank last ∧
        bytes = Bytes.unlines (lines.map Prod.fst ++ [last]) ++ (body ++ Octet.nul :: rest) ∧
        f = ⟨head.command.name, head.headers.collect (lines.map Prod.snd), body⟩ ∧
        f.headers.Delimits body ∧ body.length ≤ maxBodyLength := by
  constructor
  · intro h
    -- each line takes bytes away
    induction hlen : bytes.length using Nat.strongRecOn generalizing bytes head count with
    | ind len ih =>
      obtain ⟨line, later, rfl, hfeed, hlength, hscan⟩ :=
        exists_whole_line (feedsLine_header d head count) h
      rcases headerLine_of_scanFrom_afterHeader hfeed hlength hscan with
        hnil | ⟨hcount, entry, hentry⟩
      · -- the line is blank, and what follows it is the body
        rw [afterHeader_of_trimLine_eq_nil hnil, scanFrom_afterHeaders_iff] at hscan
        obtain ⟨body, rfl, rfl, hdelimits, hle⟩ := hscan
        exact ⟨[], line, body, by simp, by rw [List.length_nil]; omega, ⟨hfeed, hnil⟩, by simp, rfl,
          hdelimits, hle⟩
      · -- a header line; the others are read with its header among the headers
        rw [afterHeader_of_headerLine hentry hcount, Reader.scanFrom_ok] at hscan
        have hshort : later.length < len := by
          rw [← hlen, List.length_append, List.length_cons]
          omega
        obtain ⟨lines, last, body, hlines, hcount', hlast, rfl, hf, hdelimits, hle⟩ :=
          ih _ hshort hscan rfl
        refine ⟨(line, entry) :: lines, last, body, ?_, ?_, hlast, ?_, ?_, hdelimits, hle⟩
        · intro l hl
          rcases List.mem_cons.mp hl with rfl | hl
          · exact hentry
          · exact hlines l hl
        · rw [List.length_cons]
          omega
        · simp
        · exact hf
  · rintro ⟨lines, last, body, hlines, hcount, hlast, rfl, hf, hdelimits, hle⟩
    induction lines generalizing head count with
    | nil =>
      -- only the blank line is left of the block
      have hshort : last.length ≤ HeadLine.header.maxLength :=
        Nat.le_trans hlast.length_le (by decide)
      have hscan := scan_whole_line (feedsLine_header d head count) hlast.lineFeed_not_mem hshort
        (body ++ Octet.nul :: rest)
      rw [afterHeader_of_trimLine_eq_nil hlast.trimLine_eq] at hscan
      simp only [List.map_nil, List.nil_append, Bytes.unlines_cons, Bytes.unlines_nil,
        List.append_assoc, List.cons_append]
      rw [hscan, scanFrom_afterHeaders_iff]
      subst hf
      exact ⟨body, rfl, rfl, hdelimits, hle⟩
    | cons line lines ih =>
      have hline := hlines line (List.mem_cons_self ..)
      rw [List.length_cons] at hcount
      have hscan := scan_whole_line (feedsLine_header d head count) hline.lineFeed_not_mem
        hline.length_le
        (Bytes.unlines (lines.map Prod.fst ++ [last]) ++ (body ++ Octet.nul :: rest))
      rw [afterHeader_of_headerLine hline (by omega), Reader.scanFrom_ok] at hscan
      simp only [List.map_cons, List.cons_append, Bytes.unlines_cons, List.append_assoc]
      rw [hscan]
      exact ih (fun l hl => hlines l (List.mem_cons_of_mem _ hl)) (by omega) hf

/-! ### The command line -/

/-- The word of a command is short, holds no mark, and is read as the command. -/
theorem octets_name (c : Command) :
    (∀ p ∈ c.name, ¬ p.IsSurrogate) ∧
      (Octet.lineFeed ∉ octets c.name ∧ Octet.carriageReturn ∉ octets c.name) ∧
      octets c.name ≠ [] ∧ (octets c.name).length < HeadLine.command.maxLength ∧
      Command.ofName? c.name = some c := by
  refine ⟨?_, ?_, ?_, ?_, ?_⟩
  · intro p hp
    have hword : ∃ s : String, c.name = Text.ofString s := by cases c <;> exact ⟨_, rfl⟩
    obtain ⟨s, hs⟩ := hword
    rw [hs] at hp
    exact Text.not_isSurrogate_of_mem_ofString hp
  · cases c <;> decide
  · cases c <;> decide
  · cases c <;> decide
  · cases c <;> decide

theorem afterCommand_of_trimLine_eq_nil {line : Bytes} (h : d.trimLine line = []) :
    afterCommand d line = .ok .start := by
  unfold afterCommand
  rw [h]

theorem afterCommand_of_trimLine_eq {c : Command} {line : Bytes}
    (h : d.trimLine line = octets c.name) :
    afterCommand d line = .ok (.header { command := c } 0 #[]) := by
  obtain ⟨hsurrogate, -, hne, -, hname⟩ := octets_name c
  have hdecode : Utf8.decode (octets c.name) = .ok c.name :=
    Utf8.decode_eq_ok_iff.mpr ⟨hsurrogate, rfl⟩
  unfold afterCommand
  rw [h]
  split
  · -- a word is no blank line
    next hnil => exact absurd hnil hne
  · simp only [Bytes.decode, hdecode, Except.mapError, bind, Except.bind, hname]

/-- After a command line there is the header block, or the line was blank. -/
theorem afterCommand_eq_ok {line : Bytes} {next : State} (h : afterCommand d line = .ok next) :
    (d.trimLine line = [] ∧ next = .start) ∨
      ∃ c : Command, d.trimLine line = octets c.name ∧ next = .header { command := c } 0 #[] := by
  unfold afterCommand at h
  split at h
  · next hnil => exact .inl ⟨hnil, (Except.ok.inj h).symm⟩
  · unfold Bytes.decode at h
    cases hdecode : Utf8.decode (d.trimLine line) with
    | error m => simp [hdecode, Except.mapError, bind, Except.bind] at h
    | ok word =>
      simp only [hdecode, Except.mapError, bind, Except.bind] at h
      split at h
      · -- a word that is no command is an error
        simp at h
      · next c hname =>
        rw [← Command.name_of_ofName? hname] at hdecode
        exact .inr ⟨c, (Utf8.decode_eq_ok_iff.mp hdecode).2, (Except.ok.inj h).symm⟩

/-- A line that is passed before the header block is blank, or it is the word of a command. -/
theorem trimLine_eq_of_scanFrom_afterCommand {line later : Bytes}
    (h : (decoder d).scanFrom (afterCommand d line) later = .done (.ok f) rest) :
    d.trimLine line = [] ∨ ∃ c : Command, d.trimLine line = octets c.name := by
  obtain ⟨next, hnext⟩ := Reader.exists_of_scanFrom_eq_done_ok _ h
  exact (afterCommand_eq_ok hnext).imp And.left fun ⟨c, hword, _⟩ => ⟨c, hword⟩

/-- Blank lines in front are skipped. -/
theorem scan_start_unlines {blanks : List Bytes} (hblanks : ∀ line ∈ blanks, d.Blank line)
    (later : Bytes) :
    (decoder d).scan .start (Bytes.unlines blanks ++ later) = (decoder d).scan .start later := by
  induction blanks with
  | nil => rfl
  | cons line blanks ih =>
    have hline := hblanks line (List.mem_cons_self ..)
    have hshort : line.length ≤ HeadLine.command.maxLength :=
      Nat.le_trans hline.length_le (by decide)
    have hscan := scan_whole_line (feedsLine_command d) hline.lineFeed_not_mem hshort
      (Bytes.unlines blanks ++ later)
    rw [afterCommand_of_trimLine_eq_nil hline.trimLine_eq, Reader.scanFrom_ok] at hscan
    rw [Bytes.unlines_cons, List.append_assoc, List.cons_append]
    exact hscan.trans (ih fun l hl => hblanks l (List.mem_cons_of_mem _ hl))

/-- A command line is one line. -/
theorem lineFeed_not_mem_word {c : Command} {word : Bytes}
    (hword : d.trimLine word = octets c.name) : Octet.lineFeed ∉ word := by
  obtain ⟨-, ⟨hfeed, -⟩, -⟩ := octets_name c
  rcases Dialect.eq_trimLine_or d word with h | ⟨-, h⟩
  · rw [h, hword]
    exact hfeed
  · rw [h, hword, List.mem_append, not_or]
    exact ⟨hfeed, by decide⟩

theorem scan_start_word {c : Command} {word : Bytes} (hword : d.trimLine word = octets c.name)
    (later : Bytes) :
    (decoder d).scan .start (word ++ Octet.lineFeed :: later) =
      (decoder d).scan (.header { command := c } 0 #[]) later := by
  obtain ⟨-, -, -, hshort, -⟩ := octets_name c
  -- what is trimmed is one byte at most
  have hlength : word.length ≤ HeadLine.command.maxLength := by
    have htrim := (Dialect.length_trimLine d word).2
    rw [hword] at htrim
    omega
  have hscan := scan_whole_line (feedsLine_command d) (lineFeed_not_mem_word hword) hlength
    later
  rw [afterCommand_of_trimLine_eq hword] at hscan
  exact hscan

/-- **The decoder accepts exactly the layouts.** It returns a frame and leaves some bytes unread if
and only if the bytes before them are a layout of the frame. -/
theorem scan_start_eq_done_ok_iff :
    (decoder d).scan .start bytes = .done (.ok f) rest ↔
      ∃ l : Layout d f, bytes = l.bytes ++ rest := by
  constructor
  · intro h
    -- each blank line takes bytes away
    induction hlen : bytes.length using Nat.strongRecOn generalizing bytes with
    | ind len ih =>
      obtain ⟨line, later, rfl, hfeed, hlength, hscan⟩ :=
        exists_whole_line (feedsLine_command d) h
      rcases trimLine_eq_of_scanFrom_afterCommand hscan with hnil | ⟨c, hword⟩
      · -- a blank line, which is one more in front of a layout
        rw [afterCommand_of_trimLine_eq_nil hnil, Reader.scanFrom_ok] at hscan
        have hshort : later.length < len := by
          rw [← hlen, List.length_append, List.length_cons]
          omega
        obtain ⟨l, rfl⟩ := ih _ hshort hscan rfl
        refine ⟨{ l with blanks := line :: l.blanks, blanks_blank := ?_ }, ?_⟩
        · intro b hb
          rcases List.mem_cons.mp hb with rfl | hb
          · exact ⟨hfeed, hnil⟩
          · exact l.blanks_blank b hb
        · simp [Layout.bytes]
      · -- the command line, and after it the header block and the body
        rw [afterCommand_of_trimLine_eq hword, Reader.scanFrom_ok, scan_header_iff] at hscan
        obtain ⟨lines, last, body, hlines, hcount, hlast, rfl, rfl, hdelimits, hle⟩ := hscan
        refine ⟨⟨[], c, line, lines, last, by simp, rfl, hword, hlines, by omega, rfl, hlast, hle,
          hdelimits⟩, ?_⟩
        simp [Layout.bytes]
  · rintro ⟨l, rfl⟩
    -- the parts in the order in which the decoder meets them
    have hbytes : l.bytes ++ rest = Bytes.unlines l.blanks ++ (l.word ++ Octet.lineFeed ::
        (Bytes.unlines (l.lines.map Prod.fst ++ [l.last]) ++ (f.body ++ Octet.nul :: rest))) := by
      simp [Layout.bytes]
    rw [hbytes, scan_start_unlines l.blanks_blank, scan_start_word l.word_eq, scan_header_iff]
    have hf : f = ⟨l.command.name, Headers.empty.collect (l.lines.map Prod.snd), f.body⟩ := by
      rw [← l.command_eq, ← l.headers_eq]
    exact ⟨l.lines, l.last, f.body, l.lines_read, by have := l.lines_length_le; omega, l.last_blank,
      rfl, hf, l.body_delimited, l.body_length_le⟩

end Frame.Decoder

namespace Frame

variable {version : Text} {v : Version} {cap : Option Nat} {bytes rest : Bytes}

/-- From memory a frame is read as from bytes at hand, in the dialect of the version. -/
theorem read_memory (hversion : Version.parse? version = some v) (hcap : cap ≠ some 0)
    (bytes : Bytes) :
    Frame.read version (⟨bytes, cap⟩ : Memory) =
      match (decoder v.dialect).scan .start bytes with
      | .done result rest => (result, ⟨rest, cap⟩)
      | .more state => (.error (.protocol (Decoder.ended state)), ⟨[], cap⟩) := by
  have hread : Frame.read version (⟨bytes, cap⟩ : Memory) =
      (decoder v.dialect).run .start ⟨bytes, cap⟩ := by
    unfold Frame.read
    rw [hversion]
  rw [hread, Reader.run_memory _ _ _ hcap]
  cases (decoder v.dialect).scan .start bytes <;> rfl

/-- A frame is read from memory if and only if a layout of it stands in front, and what follows the
layout stays unread. -/
theorem read_memory_eq_ok_iff (hversion : Version.parse? version = some v) (hcap : cap ≠ some 0)
    {f : Frame} :
    Frame.read version (⟨bytes, cap⟩ : Memory) = (.ok f, ⟨rest, cap⟩) ↔
      ∃ l : Layout v.dialect f, bytes = l.bytes ++ rest := by
  rw [read_memory hversion hcap, ← Decoder.scan_start_eq_done_ok_iff]
  cases (decoder v.dialect).scan .start bytes <;> simp

end Frame

end Stomp
