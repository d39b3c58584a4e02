import Stomp.Proofs.Frame.Layout

/-!
# Reading goes on, and takes only so much

Whether it gives a frame or an error, one reading of a frame takes a byte at least, and beyond the
blank lines in front no more than `Frame.maxTaken`, whatever the bytes announce. What bounds it is
not the number of rounds but what a state still has room for: from the header block on, each byte
that is taken makes the room smaller (`Decoder.feed_room`). Only a blank line in front gives the
room back, so these lines are set apart (`Decoder.exists_taken_of_command`).

So a loop that reads again after every frame and every error comes to the end of the bytes, within
as many readings as there are bytes. The main statement is `Frame.read_progresses`.
-/

namespace Stomp

open Utf8 (octets)

section Left

variable {σ α : Type}

/-- The bytes that are left over. -/
def Scan.left : Scan σ α → Bytes
  | .more _ => []
  | .done _ rest => rest

@[simp] theorem Scan.left_more (state : σ) : (Scan.more state : Scan σ α).left = [] := rfl

@[simp] theorem Scan.left_done (result : Except Error α) (rest : Bytes) :
    (Scan.done result rest : Scan σ α).left = rest := rfl

namespace Reader

/-- What is left over is the end of the bytes. -/
theorem exists_eq_append_left (r : Reader σ α) (state : σ) (bytes : Bytes) :
    ∃ taken, bytes = taken ++ (r.scan state bytes).left := by
  cases hscan : r.scan state bytes with
  | more next => exact ⟨bytes, (List.append_nil bytes).symm⟩
  | done result rest =>
    obtain ⟨front, hbytes, -⟩ := r.exists_front_of_scan_done hscan
    exact ⟨front, hbytes⟩

/-- A byte is taken at least, if there is one. -/
theorem length_left_lt (r : Reader σ α) (state : σ) {bytes : Bytes} (h : bytes ≠ []) :
    (r.scan state bytes).left.length < bytes.length := by
  obtain ⟨b, rest, rfl⟩ := List.exists_cons_of_ne_nil h
  rw [scan, List.length_cons]
  -- the first byte is gone, whether or not it ends the reading
  cases r.feed state b with
  | done result => exact Nat.lt_succ_self rest.length
  | more next =>
    obtain ⟨taken, htaken⟩ := r.exists_eq_append_left next rest
    have hlength := congrArg List.length htaken
    rw [List.length_append] at hlength
    show (r.scan next rest).left.length < rest.length + 1
    omega

/-- **Room for so many bytes.** If there is room for a byte in every state that is within limits,
and each byte that does not end the reading leads within the limits again and makes the room
smaller, then no more bytes are taken than there was room for. -/
theorem length_le_of_room (r : Reader σ α) {within : σ → Prop} {room : σ → Nat}
    (hpos : ∀ state, within state → 0 < room state)
    (hfeed : ∀ state b next, within state → r.feed state b = .more next →
      within next ∧ room next < room state)
    {state : σ} (h : within state) (bytes : Bytes) :
    bytes.length ≤ room state + (r.scan state bytes).left.length := by
  induction bytes generalizing state with
  | nil => exact Nat.zero_le _
  | cons b bytes ih =>
    rw [scan, List.length_cons]
    cases hb : r.feed state b with
    | done result =>
      have := hpos state h
      show bytes.length + 1 ≤ room state + bytes.length
      omega
    | more next =>
      -- the rest has the room that is left, which is one less at least
      obtain ⟨hnext, hless⟩ := hfeed state b next h hb
      have := ih hnext
      show bytes.length + 1 ≤ room state + (r.scan next bytes).left.length
      omega

end Reader

end Left

namespace Frame

/-- The most bytes that are taken for one frame: a command line, all header lines with their line
feeds, the blank line, and a body with what follows it. -/
def maxTaken : Nat :=
  (maxCommandLength + 1) + maxHeaders * (maxHeaderLength + 1) + 2 + (maxBodyLength + 1)

namespace Decoder

variable {d : Dialect}

/-! ### From the header block on -/

/-- Past the command line, with nothing over its limit. -/
def State.Within : State → Prop
  | .command _ => False
  | .header _ count line => count ≤ maxHeaders ∧ line.size ≤ maxHeaderLength
  | .sized _ later _ => later < maxBodyLength
  | .terminator .. => True
  | .unsized _ body => body.size ≤ maxBodyLength

/-- How many bytes may still be taken. For a command line, this is if it is not blank. -/
def State.room : State → Nat
  | .command line => maxTaken - line.size
  | .header _ count line =>
    (maxHeaders - count) * (maxHeaderLength + 1) + 2 + (maxBodyLength + 1) - line.size
  | .sized _ later _ => later + 2
  | .terminator .. => 1
  | .unsized _ body => maxBodyLength + 1 - body.size

theorem room_pos (state : State) (h : state.Within) : 0 < state.room := by
  cases state with
  | command line => exact h.elim
  | header head count line =>
    obtain ⟨-, hline⟩ := h
    simp only [State.room, maxHeaderLength, maxBodyLength] at hline ⊢
    omega
  | sized head later body => exact Nat.succ_pos _
  | terminator head body => exact Nat.one_pos
  | unsized head body => exact Nat.sub_pos_of_lt (Nat.lt_succ_of_le h)

/-- A line goes on if it has room for the byte. -/
theorem lengthened_eq_ok_iff {part : HeadLine} {line longer : Array UInt8} {b : UInt8} :
    lengthened part line b = .ok longer ↔ line.size < part.maxLength ∧ line.push b = longer := by
  unfold lengthened
  split
  · next hroom => simp [hroom]
  · next hfull => simp [hfull]

/-- After the header block there is a body. -/
theorem within_of_afterHeaders {head : Head} {next : State} (h : afterHeaders head = .ok next) :
    next.Within ∧ next.room ≤ maxBodyLength + 1 := by
  unfold afterHeaders at h
  cases hlength : head.headers.bodyLength? with
  | error e => simp [hlength, bind, Except.bind] at h
  | ok length? =>
    simp only [hlength, bind, Except.bind] at h
    match length?, h with
    | none, h =>
      obtain rfl := Except.ok.inj h
      exact ⟨Nat.zero_le _, Nat.le_refl _⟩
    | some 0, h =>
      obtain rfl := Except.ok.inj h
      exact ⟨trivial, Nat.le_add_left 1 maxBodyLength⟩
    | some (later + 1), h =>
      obtain rfl := Except.ok.inj h
      -- the length was compared with the limit when it was read
      obtain ⟨-, -, -, hle⟩ := bodyLength?_eq_ok_some_iff.mp hlength
      exact ⟨hle, Nat.succ_le_succ hle⟩

/-- **Each byte makes the room smaller.** -/
theorem feed_room {state next : State} {b : UInt8} (hwithin : state.Within)
    (h : feed d state b = .more next) : next.Within ∧ next.room < state.room := by
  cases state with
  | command line => exact hwithin.elim
  | header head count line =>
    obtain ⟨hcount, hline⟩ := hwithin
    rw [feedsLine_header] at h
    split at h
    · have hafter : afterHeader d head count line.toList = .ok next := by
        cases hnext : afterHeader d head count line.toList with
        | error e => simp [hnext, Step.ofExcept] at h
        | ok state => simpa [hnext, Step.ofExcept] using h
      rcases afterHeader_eq_ok hafter with ⟨hnil, hafter⟩ | ⟨hless, entry, -, rfl⟩
      · -- the blank line is two bytes at most, and the body has its own room
        obtain ⟨hnext, hroom⟩ := within_of_afterHeaders hafter
        refine ⟨hnext, Nat.lt_of_le_of_lt hroom ?_⟩
        have hshort := (Dialect.length_trimLine d line.toList).2
        rw [hnil, Array.length_toList, List.length_nil] at hshort
        simp only [State.room]
        omega
      · -- a header was added, so there is room for one line less
        refine ⟨⟨hless, Nat.zero_le _⟩, ?_⟩
        simp only [State.room, maxHeaders, maxHeaderLength, maxBodyLength, List.size_toArray,
          List.length_nil] at hless hline ⊢
        omega
    · cases hlonger : lengthened .header line b with
      | error e => simp [hlonger, Step.ofExcept, Except.map] at h
      | ok longer =>
        -- the line grows within its limit
        obtain ⟨hroom, rfl⟩ := lengthened_eq_ok_iff.mp hlonger
        simp only [hlonger, Step.ofExcept, Except.map, Step.more.injEq] at h
        subst h
        refine ⟨⟨hcount, by rw [Array.size_push]; exact hroom⟩, ?_⟩
        simp only [State.room, HeadLine.maxLength, maxHeaderLength, maxBodyLength,
          Array.size_push] at hroom ⊢
        omega
  | sized head later body =>
    cases later with
    | zero =>
      obtain rfl := Step.more.inj h
      exact ⟨trivial, Nat.lt_succ_self 1⟩
    | succ later =>
      obtain rfl := Step.more.inj h
      exact ⟨Nat.lt_of_succ_lt hwithin, Nat.lt_succ_self _⟩
  | terminator head body =>
    -- the byte ends the frame in either case
    simp only [feed] at h
    split at h <;> cases h
  | unsized head body =>
    simp only [feed] at h
    split at h
    · cases h
    · split at h
      · next hroom =>
        obtain rfl := Step.more.inj h
        refine ⟨by rw [State.Within, Array.size_push]; exact hroom, ?_⟩
        simp only [State.room, Array.size_push]
        omega
      · cases h

/-- From the header block on, no more is taken than there is room for. -/
theorem length_le_of_within {state : State} (h : state.Within) (bytes : Bytes) :
    bytes.length ≤ state.room + ((decoder d).scan state bytes).left.length :=
  (decoder d).length_le_of_room room_pos (fun _ _ _ => feed_room) h bytes

/-! ### From the command line on -/

/-- A command line, and what is taken after it, is not too much. -/
theorem length_le_maxTaken {line : Array UInt8} (hsize : line.size ≤ maxCommandLength)
    {more : Bytes}
    (hmore : more.length ≤ 1 + (maxHeaders * (maxHeaderLength + 1) + 2 + (maxBodyLength + 1))) :
    (line.toList ++ more).length ≤ maxTaken := by
  rw [List.length_append, Array.length_toList]
  unfold maxTaken
  omega

/-- **Beyond blank lines only so much is taken.** The bytes are blank lines, then what is taken of
one frame, and what is left over. -/
theorem exists_taken_of_command {line : Array UInt8} (hline : Octet.lineFeed ∉ line.toList)
    (hsize : line.size ≤ maxCommandLength) (bytes : Bytes) :
    ∃ blanks taken, (∀ blank ∈ blanks, d.Blank blank) ∧ taken.length ≤ maxTaken ∧
      line.toList ++ bytes =
        Bytes.unlines blanks ++ (taken ++ ((decoder d).scan (.command line) bytes).left) := by
  induction bytes generalizing line with
  | nil =>
    -- the bytes end in the line
    refine ⟨[], line.toList ++ [], by simp, ?_, by simp⟩
    exact length_le_maxTaken hsize (Nat.zero_le _)
  | cons b bytes ih =>
    by_cases hb : b = Octet.lineFeed
    · subst hb
      have hfeed : (decoder d).feed (.command line) Octet.lineFeed =
          .ofExcept (afterCommand d line.toList) :=
        (feedsLine_command d line _).trans (if_pos rfl)
      rw [(decoder d).scan_cons_of_feed_eq hfeed]
      cases hnext : afterCommand d line.toList with
      | error e =>
        -- the whole line was taken, and nothing after it
        refine ⟨[], line.toList ++ [Octet.lineFeed], by simp, ?_, by simp⟩
        exact length_le_maxTaken hsize (Nat.le_add_right 1 _)
      | ok next =>
        rw [Reader.scanFrom_ok]
        rcases afterCommand_eq_ok hnext with ⟨hnil, rfl⟩ | ⟨c, -, rfl⟩
        · -- one more blank line, and from here as from the beginning
          have hempty : Octet.lineFeed ∉ (#[] : Array UInt8).toList := List.not_mem_nil
          obtain ⟨blanks, taken, hblanks, hlength, hbytes⟩ := ih hempty (Nat.zero_le _)
          rw [List.nil_append] at hbytes
          refine ⟨line.toList :: blanks, taken, ?_, hlength, ?_⟩
          · exact List.forall_mem_cons.mpr ⟨⟨hline, hnil⟩, hblanks⟩
          · rw [Bytes.unlines_cons, List.append_assoc, List.cons_append, State.start, ← hbytes]
        · -- the command line is over, and what comes now is bounded by the room of the header block
          have hwithin : (State.header { command := c } 0 #[]).Within :=
            ⟨Nat.zero_le _, Nat.zero_le _⟩
          have hroom := length_le_of_within (d := d) hwithin bytes
          obtain ⟨taken, htaken⟩ :=
            (decoder d).exists_eq_append_left (.header { command := c } 0 #[]) bytes
          have hlength := congrArg List.length htaken
          rw [List.length_append] at hlength
          refine ⟨[], line.toList ++ Octet.lineFeed :: taken, by simp, ?_, ?_⟩
          · apply length_le_maxTaken hsize
            simp only [State.room, List.size_toArray, List.length_nil, Nat.sub_zero] at hroom
            rw [List.length_cons]
            omega
          · rw [Bytes.unlines_nil, List.nil_append, List.append_assoc, List.cons_append, ← htaken]
    · have hfeed : (decoder d).feed (.command line) b =
          .ofExcept ((lengthened .command line b).map .command) :=
        (feedsLine_command d line b).trans (if_neg hb)
      rw [(decoder d).scan_cons_of_feed_eq hfeed]
      cases hlonger : lengthened .command line b with
      | error e =>
        -- the line is full, and the byte too many was taken as well
        refine ⟨[], line.toList ++ [b], by simp, ?_, by simp [Except.map]⟩
        exact length_le_maxTaken hsize (Nat.le_add_right 1 _)
      | ok longer =>
        obtain ⟨hroom, rfl⟩ := lengthened_eq_ok_iff.mp hlonger
        have hpush : Octet.lineFeed ∉ (line.push b).toList := by
          rw [Array.toList_push, List.mem_append, List.mem_singleton, not_or]
          exact ⟨hline, Ne.symm hb⟩
        obtain ⟨blanks, taken, hblanks, hlength, hbytes⟩ :=
          ih hpush (by rw [Array.size_push]; exact hroom)
        refine ⟨blanks, taken, hblanks, hlength, ?_⟩
        rw [Array.toList_push, List.append_assoc, List.singleton_append] at hbytes
        exact hbytes

end Decoder

/-! ### Reading to the end -/

/-- Reads frame after frame, as often as allowed, until no bytes are left; after an error too. Gives
what came of each reading, and what the source is then. -/
def readToEnd (version : Text) : Nat → Memory → List (Except Error Frame) × Memory
  | 0, source => ([], source)
  | readings + 1, source =>
    if source.unread = [] then ([], source)
    else
      let (result, left) := Frame.read version source
      let (results, last) := readToEnd version readings left
      (result :: results, last)

variable {version : Text} {v : Version} {cap : Option Nat} {bytes : Bytes}

/-- What one reading leaves in memory. -/
theorem read_memory_snd (hversion : Version.parse? version = some v) (hcap : cap ≠ some 0)
    (bytes : Bytes) :
    (Frame.read version (⟨bytes, cap⟩ : Memory)).2 =
      ⟨((decoder v.dialect).scan .start bytes).left, cap⟩ := by
  rw [read_memory hversion hcap]
  cases (decoder v.dialect).scan .start bytes <;> rfl

/-- Each reading takes a byte, so there are no more readings than bytes. -/
theorem readToEnd_of_length_le (hversion : Version.parse? version = some v) (hcap : cap ≠ some 0)
    {readings : Nat} (h : bytes.length ≤ readings) :
    (readToEnd version readings ⟨bytes, cap⟩).2 = ⟨[], cap⟩ ∧
      (readToEnd version readings ⟨bytes, cap⟩).1.length ≤ bytes.length := by
  induction readings generalizing bytes with
  | zero =>
    obtain rfl := List.eq_nil_of_length_eq_zero (Nat.le_zero.mp h)
    exact ⟨rfl, Nat.le_refl 0⟩
  | succ readings ih =>
    rw [readToEnd]
    by_cases hbytes : bytes = []
    · subst hbytes
      exact ⟨rfl, Nat.le_refl 0⟩
    · rw [if_neg hbytes]
      -- the reading took a byte, so one reading less is enough for what it left
      have hless := (decoder v.dialect).length_left_lt .start hbytes
      have hshort : ((decoder v.dialect).scan .start bytes).left.length ≤ readings := by omega
      obtain ⟨hlast, hlength⟩ := ih hshort
      simp only [read_memory_snd hversion hcap, List.length_cons]
      exact ⟨hlast, by omega⟩

/-- **Reading goes on, and takes only so much.** From bytes in memory, of which each read hands
over one at least, one reading of a frame takes a byte at least whether it gives a frame or an
error; and beyond blank lines in front it takes no more than `maxTaken`. So reading again after
every frame and every error comes to the end, within as many readings as there are bytes. -/
theorem read_progresses (hversion : Version.parse? version = some v) (hcap : cap ≠ some 0)
    (hbytes : bytes ≠ []) :
    (∃ blanks taken left,
      (Frame.read version (⟨bytes, cap⟩ : Memory)).2 = ⟨left, cap⟩ ∧
      bytes = Bytes.unlines blanks ++ (taken ++ left) ∧ left.length < bytes.length ∧
      (∀ blank ∈ blanks, v.dialect.Blank blank) ∧ taken.length ≤ maxTaken) ∧
    ∀ readings, bytes.length ≤ readings →
      (readToEnd version readings ⟨bytes, cap⟩).2 = ⟨[], cap⟩ ∧
      (readToEnd version readings ⟨bytes, cap⟩).1.length ≤ bytes.length := by
  refine ⟨?_, fun readings h => readToEnd_of_length_le hversion hcap h⟩
  have hempty : Octet.lineFeed ∉ (#[] : Array UInt8).toList := List.not_mem_nil
  obtain ⟨blanks, taken, hblanks, hlength, heq⟩ :=
    Decoder.exists_taken_of_command (d := v.dialect) hempty (Nat.zero_le _) bytes
  exact ⟨blanks, taken, _, read_memory_snd hversion hcap bytes, heq,
    (decoder v.dialect).length_left_lt .start hbytes, hblanks, hlength⟩

/-- A blank line, a word that is no command, a frame that announces no length that a body can have,
and a frame as it should be. -/
def disturbed : Bytes :=
  [13, 10, 69, 10] ++ [83, 69, 78, 68, 10] ++
    octets (Text.ofString "content-length:-1") ++ [10, 10, 65, 67, 75, 10, 10, 0]

/-- Two readings fail, and the third gives the frame. -/
theorem read_progresses_disturbed :
    (∃ blanks taken left,
      (Frame.read "1.2" (⟨disturbed, some 2⟩ : Memory)).2 = ⟨left, some 2⟩ ∧
      disturbed = Bytes.unlines blanks ++ (taken ++ left) ∧ left.length < disturbed.length ∧
      (∀ blank ∈ blanks, Dialect.v12.Blank blank) ∧ taken.length ≤ maxTaken) ∧
    (readToEnd "1.2" 40 ⟨disturbed, some 2⟩).2 = ⟨[], some 2⟩ ∧
    (readToEnd "1.2" 40 ⟨disturbed, some 2⟩).1.map Except.toOption =
      [none, none, some ⟨Text.ofString "ACK", Headers.empty, []⟩] := by
  have hversion : Version.parse? "1.2" = some ⟨[1, 2]⟩ := by decide +kernel
  have hcap : some 2 ≠ some 0 := by decide
  have hne : disturbed ≠ [] := by decide +kernel
  obtain ⟨htaken, hend⟩ := read_progresses hversion hcap hne
  refine ⟨htaken, (hend 40 (by decide +kernel)).1, ?_⟩
  decide +kernel

end Frame

end Stomp
