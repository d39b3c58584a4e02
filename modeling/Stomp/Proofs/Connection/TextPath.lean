import Stomp.Proofs.Connection.Serving
import Stomp.Proofs.Frame.Parsing
import Stomp.Proofs.Frame.RawText

/-!
# Which frames come back as text

A written frame with a line feed after its NUL can be received as a text and the text be parsed. The
frame comes back, and what follows the line feed is left, if and only if it is `Textual`. Most of
the conditions are those of parsing. The others are about NULs: the reader of texts takes them in
pairs, so that no line feed inside may come after an odd run of them, and the parser drops one at
the end.

* `Frame.exists_text_iff` — the same for the bytes alone, without a stream;
* `receiveText_toBytes_iff` — for a call on a connection, in whatever pieces the bytes arrive.
-/

namespace Stomp

open Utf8 (octets)

namespace Frame

/-- **A frame that comes back as text.** -/
structure Textual (f : Frame) : Prop where
  command_ne : f.command ≠ []
  command_lineFeed : CodePoint.ofChar '\n' ∉ f.command
  /-- No name holds a colon or a line feed, and no value a line feed. -/
  headers : ∀ e ∈ f.headers.entries, Headers.OnOneLine e
  body_text : ∃ t, f.body.decode = .ok t
  /-- No line feed in the head or in the body comes after a run of NULs whose length is odd. -/
  unended : Bytes.Unended (octets f.head ++ f.body)
  body_last : f.body.getLast? ≠ some Octet.nul

/-- **The bytes of a frame come back as text** exactly if the frame is textual. -/
theorem exists_text_iff {f : Frame} (hhead : f.head.SurrogateFree) :
    (∃ t, rawReader.scan {} (octets f.head ++ f.body ++ [Octet.nul, Octet.lineFeed]) =
        .done (.ok t) [] ∧ parseText t = .ok f) ↔ f.Textual := by
  constructor
  · rintro ⟨t, hscan, hparse⟩
    obtain ⟨front, hfront, -, hunended, hdecode⟩ := scan_raw_eq_done_iff.mp hscan
    -- the text ends at the last line feed
    obtain rfl : octets f.head ++ f.body ++ [Octet.nul] = front :=
      (List.append_inj' (by rw [← hfront, List.append_assoc]; rfl) rfl).1
    rw [List.dropLast_concat] at hdecode
    rw [Bytes.unended_concat_nul] at hunended
    rw [parseText_of_decode hdecode.symm, parse_written_iff hhead] at hparse
    obtain ⟨u, -, hbody⟩ := (Bytes.decode_octets_append_iff hhead).mp hdecode.symm
    exact
      { command_ne := hparse.1
        command_lineFeed := hparse.2.1
        headers := hparse.2.2.1
        body_text := ⟨u, hbody⟩
        unended := hunended
        body_last := hparse.2.2.2 }
  · intro h
    obtain ⟨u, hbody⟩ := h.body_text
    have hdecode : Bytes.decode (octets f.head ++ f.body) = .ok (f.head ++ u) :=
      (Bytes.decode_octets_append_iff hhead).mpr ⟨u, rfl, hbody⟩
    -- there is no run of NULs before the NUL of the frame
    have hrun : Even (Bytes.nulRun (octets f.head ++ f.body)) := by
      rw [Bytes.nulRun_eq_zero_iff.mpr (getLast?_written_ne_iff.mpr h.body_last)]
      exact Even.zero
    refine ⟨f.head ++ u, ?_, ?_⟩
    · rw [scan_raw_append h.unended hrun [], hdecode]
    · rw [parseText_of_decode hdecode, parse_written_iff hhead]
      exact ⟨h.command_ne, h.command_lineFeed, h.headers, h.body_last⟩

end Frame

namespace Connection

open Network (DelaysNonneg)
open Stomp.Stream (Live)

/-- **Exactly the textual frames survive the way as text.** Let a written frame, a line feed and
anything else be available on an open connection that has kept nothing of a text, in whatever
pieces, and let the limit on the time of the call, if there is one, leave time to wait for the
frame and its line feed. Then receiving a text gives one that is parsed as the frame, with the rest
left available, if and only if the frame is textual. -/
theorem receiveText_toBytes_iff {f : Frame} {wire : Bytes} (hwire : f.toBytes = .ok wire)
    {c : Connection} {s : Stream} (hstream : c.stream = some s) (hlive : Live s)
    (hdelays : DelaysNonneg s.socket.peer.events) (hkept : c.inputBuffer = #[]) {rest : Bytes}
    (havailable : s.available = wire ++ Octet.lineFeed :: rest) {timeout : Option Rat}
    (htime : ∀ limit ∈ timeout, s.wait (wire.length + 1) < limit) (env : Environment) :
    (∃ t s' env', (receiveText timeout).on c env = (.ok t, { c with stream := some s' }, env') ∧
        s'.available = rest ∧ Frame.parseText t = .ok f) ↔ f.Textual := by
  obtain ⟨hhead, rfl⟩ := Frame.toBytes_eq_ok_iff.mp hwire
  have hsplit : s.available =
      octets f.head ++ f.body ++ [Octet.nul, Octet.lineFeed] ++ rest := by
    rw [havailable]
    simp
  rw [← Frame.exists_text_iff hhead]
  constructor
  · rintro ⟨t, s', env', hon, hrest, hparse⟩
    obtain ⟨s'', bytes, hsame, hbytes, hreads⟩ :=
      Call.text.reads_of_eq_ok hstream hlive.closed_eq hkept (Call.on_receiveText_iff.mpr hon)
    obtain rfl : s' = s'' := by
      have := congrArg Connection.stream hsame
      exact Option.some.inj this
    -- what was read is what stands before the rest
    rw [hrest, hsplit] at hbytes
    obtain rfl := List.append_cancel_right hbytes
    exact ⟨t, Call.reads_text_iff.mp hreads, hparse⟩
  · rintro ⟨t, hscan, hparse⟩
    have hlimit : ∀ limit ∈ timeout,
        ∀ n ≤ (octets f.head ++ f.body ++ [Octet.nul, Octet.lineFeed]).length,
          s.wait n < limit := by
      intro limit hmem n hn
      refine lt_of_le_of_lt (Network.waiting_mono hdelays ?_) (htime limit hmem)
      simp only [List.length_append, List.length_cons, List.length_nil] at hn ⊢
      omega
    obtain ⟨s', env', hon, -, havailable', -⟩ :=
      Call.text.served_of_lt hstream hlive hkept env hsplit (Call.reads_text_iff.mpr hscan) hlimit
    exact ⟨t, s', env', Call.on_receiveText_iff.mp hon, havailable', hparse⟩

/-- A message whose body holds two NULs and a line feed. -/
def withNulPair : Frame := { command := "MESSAGE", body := [97, 0, 0, 10, 98] }

theorem textual_withNulPair : withNulPair.Textual where
  command_ne := by decide
  command_lineFeed := by decide
  headers := by simp [withNulPair]
  body_text := ⟨"a\x00\x00\nb", by decide +kernel⟩
  unended := by decide +kernel
  body_last := by decide

/-- A stream on which that message comes in pieces, the first of which is there already, with a line
feed and one byte more. -/
def nulPairComing : Stream where
  socket :=
    { number := 0
      peer :=
        { events :=
            [.arrival 4 (.data [71, 69, 10, 10, 97, 0]),
              .arrival 5 (.data [0, 10, 98, 0, 10, 65])] } }
  unread := [77, 69, 83, 83, 65]

theorem receiveText_toBytes_withNulPair :
    withNulPair.toBytes = .ok (octets "MESSAGE\n\n" ++ [97, 0, 0, 10, 98, 0]) ∧
      ∃ t s' env', (receiveText (some 10)).on { stream := some nulPairComing } {} =
          (.ok t, { stream := some s' }, env') ∧
        s'.available = [65] ∧ Frame.parseText t = .ok withNulPair := by
  have hwire : withNulPair.toBytes = .ok (octets "MESSAGE\n\n" ++ [97, 0, 0, 10, 98, 0]) := by
    decide +kernel
  have hlive : Live nulPairComing := ⟨rfl, by decide, by decide⟩
  have hdelays : DelaysNonneg nulPairComing.socket.peer.events := by decide +kernel
  have havailable : nulPairComing.available =
      octets "MESSAGE\n\n" ++ [97, 0, 0, 10, 98, 0] ++ Octet.lineFeed :: [65] := by decide +kernel
  -- nine seconds are waited for
  have htime : ∀ limit ∈ some (10 : Rat),
      nulPairComing.wait ((octets "MESSAGE\n\n" ++ [97, 0, 0, 10, 98, 0]).length + 1) < limit := by
    decide +kernel
  exact ⟨hwire, (receiveText_toBytes_iff hwire (c := { stream := some nulPairComing }) rfl hlive
    hdelays rfl havailable htime {}).mpr textual_withNulPair⟩

end Connection

end Stomp
