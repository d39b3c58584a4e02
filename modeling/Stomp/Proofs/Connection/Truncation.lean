import Stomp.Proofs.Connection.WithTime
import Stomp.Proofs.Frame.Layout

/-!
# What is cut short is no frame, and what follows a frame does not matter

A decoder stops at the end of what it decodes, and no sooner. So the bytes that it takes for a frame
are told by themselves: with any bytes behind them they give the frame and leave those bytes, and
any part of them, where the input ends, is too short. The same holds of the reader of raw texts, and
of the calls on a connection that read with the one or the other.

The argument is one and the same for every reader (`Reader.exists_front_of_scan_done`,
`Reader.exists_more_of_scan_done`). What differs is how the bytes come:

* `Frame.Delimits` — bytes in memory give a frame by themselves;
* `Call.Delimits` — bytes on a stream make a call give a value by themselves;
* `delimited` — whatever a decoder or a call has taken for a value, delimits it.
-/

namespace Stomp

/-- The other bytes, where some bytes begin with others and are not the same. -/
theorem Bytes.exists_append_of_proper {early taken : Bytes} (h : early <+: taken)
    (hne : early ≠ taken) : ∃ later, taken = early ++ later ∧ later ≠ [] := by
  obtain ⟨later, rfl⟩ := h
  refine ⟨later, rfl, ?_⟩
  rintro rfl
  exact hne (List.append_nil early).symm

namespace Frame

/-- **Bytes in memory are a frame by themselves**, in a version and however many of them one read
hands over. -/
structure Delimits (version : Text) (taken : Bytes) (f : Frame) : Prop where
  /-- What follows them does not matter and is left. -/
  followed : ∀ cap, cap ≠ some 0 → ∀ more,
    Frame.read version (⟨taken ++ more, cap⟩ : Memory) = (.ok f, ⟨more, cap⟩)
  /-- A part of them is not a frame, but an input that ends too early. -/
  cut : ∀ cap, cap ≠ some 0 → ∀ early, early <+: taken → early ≠ taken →
    ∃ fault, Frame.read version (⟨early, cap⟩ : Memory) = (.error (.protocol fault), ⟨[], cap⟩)

/-- Bytes that the decoder is done with are a frame by themselves. -/
theorem delimits_of_scan {version : Text} {v : Version}
    (hversion : Version.parse? version = some v) {taken : Bytes} {f : Frame}
    (hscan : (decoder v.dialect).scan .start taken = .done (.ok f) []) :
    Delimits version taken f where
  followed cap hcap more := by
    rw [read_memory hversion hcap, (decoder v.dialect).scan_append_done hscan more]
    rfl
  cut cap hcap early hearly hne := by
    obtain ⟨later, rfl, hlater⟩ := Bytes.exists_append_of_proper hearly hne
    obtain ⟨next, hmore⟩ := (decoder v.dialect).exists_more_of_scan_done hscan hlater
    rw [read_memory hversion hcap, hmore]
    exact ⟨_, rfl⟩

/-- What is read as a frame begins with bytes that are the frame by themselves. -/
theorem exists_delimits_of_read {version : Text} {bytes : Bytes} {cap : Option Nat}
    (hcap : cap ≠ some 0) {f : Frame} {left : Memory}
    (h : Frame.read version (⟨bytes, cap⟩ : Memory) = (.ok f, left)) :
    ∃ taken rest, bytes = taken ++ rest ∧ left = ⟨rest, cap⟩ ∧ Delimits version taken f := by
  cases hversion : Version.parse? version with
  | none =>
    -- no version, no frame
    simp only [Frame.read, hversion] at h
    cases h
  | some v =>
    rw [read_memory hversion hcap] at h
    cases hscan : (decoder v.dialect).scan .start bytes with
    | more next =>
      -- the input ended first, which is no frame
      rw [hscan] at h
      cases h
    | done result rest =>
      rw [hscan] at h
      cases h
      obtain ⟨taken, hsplit, hfront⟩ := (decoder v.dialect).exists_front_of_scan_done hscan
      exact ⟨taken, rest, hsplit, rfl, delimits_of_scan hversion hfront⟩

end Frame

namespace Connection

open Network (EndsAfterData)
open Stomp.Stream (PastData)

namespace Call

variable {call : Call} {version : Text} {taken : Bytes} {outcome : Except Error Outcome}

/-- Bytes behind those that a call reads are left. -/
theorem Reads.append (h : call.Reads version taken outcome) (more : Bytes) :
    call.read version #[] (⟨taken ++ more, false⟩ : Tape) = (outcome, ⟨more, false⟩) := by
  unfold Reads at h
  rcases call.read_cases version #[] with ⟨e, hread⟩ | ⟨σ, α, r, state, f, -, hread⟩
  · -- nothing is read
    rw [hread] at h ⊢
    cases h
    rfl
  · rw [hread, r.run_tape] at h ⊢
    cases hscan : r.scan state taken with
    | more next =>
      rw [hscan] at h
      cases h
    | done result rest =>
      rw [hscan] at h
      cases h
      rw [r.scan_append_done hscan more]
      rfl

/-- A part of the bytes that a call reads is too short for it. -/
theorem Reads.cut (h : call.Reads version taken outcome) {early : Bytes} (hearly : early <+: taken)
    (hne : early ≠ taken) :
    ∃ fault, call.read version #[] (⟨early, false⟩ : Tape) =
      (.error (.protocol fault), ⟨[], true⟩) := by
  obtain ⟨later, rfl, hlater⟩ := Bytes.exists_append_of_proper hearly hne
  unfold Reads at h
  rcases call.read_cases version #[] with ⟨e, hread⟩ | ⟨σ, α, r, state, f, hended, hread⟩
  · -- nothing is read, so there is no part
    rw [hread] at h
    have hnil : early ++ later = [] := congrArg Tape.unread (Prod.mk.inj h).2
    exact absurd (List.append_eq_nil_iff.mp hnil).2 hlater
  · rw [hread, r.run_tape] at h
    cases hscan : r.scan state (early ++ later) with
    | more next =>
      rw [hscan] at h
      cases h
    | done result rest =>
      rw [hscan] at h
      cases h
      -- the scan is done with the last byte, so without it there is more to come
      obtain ⟨next, hmore⟩ := r.exists_more_of_scan_done hscan hlater
      obtain ⟨fault, hfault⟩ := hended next
      refine ⟨fault, ?_⟩
      rw [hread, r.run_tape, hmore]
      dsimp only
      rw [hfault]
      rfl

/-- **Bytes on a stream make a call give a value by themselves**, on whatever connection and in
whatever pieces they come, as long as the call is undisturbed. A frame is decoded in the version. -/
structure Delimits (call : Call) (version : Text) (taken : Bytes) (value : Outcome) : Prop where
  /-- What follows them does not matter and stays available. -/
  followed : ∀ {timeout c s env}, call.Undisturbed timeout c s env →
    (call = .frame → c.version = version) → ∀ more, s.available = taken ++ more →
      ∃ s' env', (call.action timeout).operation.on c env =
          (.ok value, { c with stream := some s' }, env') ∧
        s'.available = more
  /-- A part of them, at the end of the input, makes it end in an error of the protocol. -/
  cut : ∀ {timeout c s env}, call.Undisturbed timeout c s env →
    (call = .frame → c.version = version) → EndsAfterData s.socket.peer.events →
    s.available <+: taken → s.available ≠ taken →
      ∃ fault s' env', (call.action timeout).operation.on c env =
          (.error (.protocol fault), { c with stream := some s' }, env') ∧
        PastData s.socket.peer s'

/-- A text is the same in every version. -/
theorem Reads.of_version (h : call.Reads version taken outcome) {other : Text}
    (hversion : call = .frame → other = version) : call.Reads other taken outcome := by
  cases call with
  | frame =>
    rw [hversion rfl]
    exact h
  | text => exact h

/-- Bytes that are just what a call reads delimit what it gives. -/
theorem Reads.delimits {value : Outcome} (h : call.Reads version taken (.ok value)) :
    call.Delimits version taken value where
  followed hcall hversion more havailable := by
    -- on a tape that holds what is available, the call takes just these bytes
    have htape := (h.of_version hversion).append more
    rw [← havailable] at htape
    obtain ⟨s', env', hon, -, hleft⟩ := hcall.on_action_of_enough htape
    exact ⟨s', env', hon, hleft⟩
  cut hcall hversion hends hpart hne := by
    obtain ⟨fault, htape⟩ := (h.of_version hversion).cut hpart hne
    obtain ⟨s', env', hon, hpast⟩ := hcall.on_action_of_overrun hends htape
    exact ⟨fault, s', env', hon, hpast⟩

end Call

/-- **What is taken for a frame is told by itself.** If the decoder takes some of the bytes in
memory for a frame, then it takes just these for the frame wherever they come first, and any part of
them for an input that ends too early. If a call that receives a frame or the text of one gives a
value, on an open connection that has kept nothing of a text, then the bytes that it has taken make
every such call in the version give this value, whatever follows them; and where the peer closes its
end after a part of them only, such a call ends in an error of the protocol. -/
theorem delimited :
    (∀ (version : Text) (bytes : Bytes) (cap : Option Nat) (f : Frame) (left : Memory),
      cap ≠ some 0 → Frame.read version (⟨bytes, cap⟩ : Memory) = (.ok f, left) →
        ∃ taken rest, bytes = taken ++ rest ∧ left = ⟨rest, cap⟩ ∧
          Frame.Delimits version taken f) ∧
    ∀ (call : Call) (timeout : Option Rat) (c c' : Connection) (s : Stream)
      (env env' : Environment) (value : Outcome),
      c.stream = some s → s.closed = false → c.inputBuffer = #[] →
      (call.action timeout).operation.on c env = (.ok value, c', env') →
        ∃ s' taken, c' = { c with stream := some s' } ∧ s.available = taken ++ s'.available ∧
          call.Delimits c.version taken value := by
  refine ⟨fun version bytes cap f left hcap hread => Frame.exists_delimits_of_read hcap hread, ?_⟩
  intro call timeout c c' s env env' value hstream hopen hkept hon
  obtain ⟨s', taken, hc', havailable, hreads⟩ := call.reads_of_eq_ok hstream hopen hkept hon
  exact ⟨s', taken, hc', havailable, hreads.delimits⟩

/-- A message whose body is a NUL, with line ends of both kinds before it. -/
def countedNul : Frame where
  command := "MESSAGE"
  headers := Headers.ofList [("content-length", "1"), ("ä", "é")]
  body := [0]

/-- The bytes of the message, after an empty line. -/
def bytesOfCountedNul : Bytes :=
  Utf8.octets "\r\nMESSAGE\r\ncontent-length:1\nä:é\n\r\n" ++ [0, 0]

/-- A connection to which a text comes in pieces, with two NULs before a line feed in it, and then
one byte more. -/
def textComing : Connection where
  stream := some
    { socket :=
        { number := 0
          peer := { events := [.arrival 1 (.data [0, 10, 105]), .arrival 0 (.data [0, 10, 120])] } }
      unread := [104, 0] }

theorem delimited_textComing :
    Frame.Delimits "1.2" bytesOfCountedNul countedNul ∧
      Call.text.Delimits "1.0" [104, 0, 0, 10, 105, 0, 10] (.text "h\x00\x00\ni") := by
  obtain ⟨hmemory, hstream⟩ := delimited
  constructor
  · have hversion : Version.parse? "1.2" = some ⟨[1, 2]⟩ := by decide +kernel
    have hread : Frame.read "1.2" (⟨bytesOfCountedNul ++ [77], some 3⟩ : Memory) =
        (.ok countedNul, ⟨[77], some 3⟩) := by
      rw [Frame.read_memory hversion (by decide)]
      decide +kernel
    obtain ⟨taken, rest, hsplit, hleft, hdelimits⟩ := hmemory _ _ _ _ _ (by decide) hread
    obtain rfl : [77] = rest := congrArg Memory.unread hleft
    rwa [List.append_cancel_right hsplit]
  · set done := (Call.text.action none).operation.on textComing {} with hdone
    have hvalue : done.1 = .ok (.text "h\x00\x00\ni") := by decide +kernel
    have hleft : done.2.1.stream.map Stream.available = some [120] := by decide +kernel
    obtain ⟨s', taken, hafter, havailable, hdelimits⟩ :=
      hstream .text none textComing done.2.1 _ {} done.2.2 _ rfl rfl rfl
        (Prod.ext hvalue rfl)
    rw [hafter] at hleft
    obtain hleft : s'.available = [120] := Option.some.inj hleft
    rw [hleft] at havailable
    have htaken : [104, 0, 0, 10, 105, 0, 10] ++ [120] = taken ++ [120] := havailable
    rwa [List.append_cancel_right htaken]

end Connection

end Stomp
