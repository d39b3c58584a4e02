import Stomp.Frame.Request
import Stomp.Proofs.Frame.RoundTrip
import Stomp.Proofs.Text.Numeral

/-!
# Frames one after another

Reading takes no byte beyond the NUL of a frame, and skips blank lines in front of the next one. So
bytes that are made of frames and heartbeats, in any order, are read as these frames, and reading
once more finds that the bytes end before a command (`readEach_segments`).

What makes a frame readable at 1.0 is that its header lines are `Plain` and its body is delimited; a
body whose length is announced is delimited whatever it holds (`delimits_withBodyLength`).
-/

namespace Stomp

namespace Frame

/-- What comes of reading so many times, one frame after another. -/
def readEach (version : Text) : Nat → Memory → List (Except Error Frame)
  | 0, _ => []
  | n + 1, source =>
    (Frame.read version source).1 :: readEach version n (Frame.read version source).2

section Reading

variable {version : Text} {v : Version} {cap : Option Nat}

/-- Blank lines in front of a frame make no difference. -/
theorem read_blanks (hversion : Version.parse? version = some v) (hcap : cap ≠ some 0)
    {blanks : List Bytes} (hblanks : ∀ line ∈ blanks, v.dialect.Blank line) (later : Bytes) :
    Frame.read version (⟨Bytes.unlines blanks ++ later, cap⟩ : Memory) =
      Frame.read version (⟨later, cap⟩ : Memory) := by
  rw [read_memory hversion hcap, read_memory hversion hcap, Decoder.scan_start_unlines hblanks]

/-- Where nothing is left, the bytes end before a command. -/
theorem read_nil (hversion : Version.parse? version = some v) (hcap : cap ≠ some 0) :
    Frame.read version (⟨[], cap⟩ : Memory) =
      (.error (.protocol (.endedInLine .command)), ⟨[], cap⟩) := by
  rw [read_memory hversion hcap]
  rfl

/-- A part of what is sent: a heartbeat, or a frame. -/
inductive Segment (d : Dialect) : Option Frame → Bytes → Prop
  | heartbeat : Segment d none [Octet.lineFeed]
  | frame {f : Frame} {bytes : Bytes} (l : Layout d f) (h : l.bytes = bytes) :
    Segment d (some f) bytes

/-- **Frames and heartbeats in a row** are read as the frames, and then the bytes end. -/
theorem readEach_segments (hversion : Version.parse? version = some v) (hcap : cap ≠ some 0)
    {segments : List (Option Frame × Bytes)}
    (h : ∀ s ∈ segments, Segment v.dialect s.1 s.2) :
    readEach version ((segments.filterMap Prod.fst).length + 1)
        ⟨segments.flatMap Prod.snd, cap⟩ =
      (segments.filterMap Prod.fst).map .ok ++ [.error (.protocol (.endedInLine .command))] := by
  induction segments with
  | nil =>
    change readEach version 1 ⟨[], cap⟩ = _
    rw [readEach, read_nil hversion hcap]
    rfl
  | cons s segments ih =>
    have hrest := ih fun s' hs' => h s' (List.mem_cons_of_mem _ hs')
    have hfirst := h s (List.mem_cons_self ..)
    obtain ⟨frame?, bytes⟩ := s
    cases hfirst with
    | heartbeat =>
      -- the line feed is a blank line in front of what comes next
      have hblank : ∀ line ∈ [([] : Bytes)], v.dialect.Blank line := by
        intro line hline
        obtain rfl := List.mem_singleton.mp hline
        exact ⟨List.not_mem_nil, Dialect.trimLine_of_getLast?_ne (by simp)⟩
      have hskip := read_blanks hversion hcap hblank (segments.flatMap Prod.snd)
      rw [List.filterMap_cons_none rfl, List.flatMap_cons, readEach]
      rw [readEach] at hrest
      rwa [← hskip] at hrest
    | @frame f _ l hl =>
      -- exactly its bytes are taken, so the next reading begins with what comes after it
      have hread : Frame.read version (⟨bytes ++ segments.flatMap Prod.snd, cap⟩ : Memory) =
          (.ok f, ⟨segments.flatMap Prod.snd, cap⟩) :=
        (read_memory_eq_ok_iff hversion hcap).mpr ⟨l, by rw [hl]⟩
      rw [List.filterMap_cons_some (f := Prod.fst) rfl, List.flatMap_cons, List.length_cons,
        readEach, hread, hrest]
      rfl

end Reading

/-! ### Frames that can be told apart -/

/-- The header lines of a frame are such that they are read back at 1.0, and neither they nor the
body are too much for a reader. -/
structure Plain (f : Frame) : Prop where
  names : ∀ e ∈ f.headers.entries, CodePoint.ofChar ':' ∉ e.1 ∧ CodePoint.ofChar '\n' ∉ e.1
  values : ∀ e ∈ f.headers.entries, CodePoint.ofChar '\n' ∉ e.2
  lines : ∀ e ∈ f.headers.entries, (Headers.lineOf e).length ≤ 10240
  size_le : f.headers.size ≤ 1000
  body_length_le : f.body.length ≤ maxBodyLength

/-- At 1.0 nothing is escaped and no line ends in a carriage return. -/
theorem Plain.sendable {f : Frame} (h : f.Plain) {c : Command} (hcommand : f.command = c.name)
    (hdelimits : f.headers.Delimits f.body) : f.Sendable ⟨[1, 0]⟩ where
  command := ⟨c, hcommand⟩
  names := h.names
  values := h.values
  size_le := h.size_le
  lines := h.lines
  backslashes hversion := absurd (by decide) hversion
  carriageReturns hversion := absurd (by decide) hversion
  body := hdelimits

/-- **An announced length delimits any body**, whatever length the headers announced before. -/
theorem delimits_withBodyLength {f : Frame} (h : f.body.length ≤ maxBodyLength) :
    f.withBodyLength.headers.Delimits f.withBodyLength.body := by
  -- nine digits are far fewer than are read
  have hdigits : (Text.ofNat f.body.length).length ≤ Text.maxDigits :=
    Nat.le_trans (Text.length_ofNat_le (k := 8) (Nat.lt_of_le_of_lt h (by decide))) (by decide)
  have hvalue : f.withBodyLength.headers.get? Headers.Name.contentLength =
      some (Text.ofNat f.body.length) := by
    rw [withBodyLength, Headers.get?_set, if_pos rfl]
  rw [Headers.Delimits, hvalue]
  dsimp only
  rw [Text.trimmed_ofNat (fun _ hc => hc), Text.toInt?_ofNat hdigits]
  rfl

/-- A body without a NUL is delimited if no length is announced. -/
theorem delimits_of_nul_not_mem {f : Frame}
    (hlength : f.headers.get? Headers.Name.contentLength = none) (hbody : Octet.nul ∉ f.body) :
    f.headers.Delimits f.body := by
  rw [Headers.Delimits, hlength]
  exact hbody

/-- The written form of a sendable frame is a part of what is sent. -/
theorem Segment.of_toBytes {f : Frame} {v : Version} {wire : Bytes} (h : f.Sendable v)
    (hbody : f.body.length ≤ maxBodyLength) (hwire : f.toBytes = .ok wire) :
    Segment v.dialect (some f) wire := by
  obtain ⟨hhead, rfl⟩ := toBytes_eq_ok_iff.mp hwire
  obtain ⟨l, hl⟩ := h.exists_layout hbody hhead
  exact .frame l hl

end Frame

end Stomp
