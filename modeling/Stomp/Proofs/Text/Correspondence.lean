import Stomp.Frame.Reply
import Stomp.Proofs.Frame.Outgoing
import Stomp.Proofs.Text.Characters

/-!
# Text and bytes correspond one to one

Text without surrogates and byte sequences that are a whole number of characters are in one to one
correspondence: writing and reading are the two ways of it (`encode_eq_ok_iff_decode_eq_ok`).

* Text with a surrogate cannot be written.
* Other bytes cannot be read, and the error names the place up to which they can
  (`exists_undecodable`).
* Where they have to be shown all the same, in the body of an ERROR frame or of a refused handshake,
  something stands for what is no character, and all characters stay
  (`Utf8.decodeLossy_append_octets_append`).

The main statement is `text_and_bytes_correspond`.
-/

namespace Stomp

open Utf8 (IsWhole decodeLossy wholeFronts)

variable {t : Text} {bytes : Bytes}

/-- **Writing and reading are inverse** to each other, each where it succeeds. -/
theorem encode_eq_ok_iff_decode_eq_ok : t.encode = .ok bytes ↔ bytes.decode = .ok t := by
  rw [Text.encode_eq_ok_iff, Bytes.decode_eq_ok_iff]

theorem exists_encode_eq_ok_iff : (∃ bytes, t.encode = .ok bytes) ↔ t.SurrogateFree := by
  simp only [Text.encode_eq_ok_iff, exists_and_left, exists_eq, and_true]

theorem exists_decode_eq_ok_iff : (∃ t, bytes.decode = .ok t) ↔ IsWhole bytes := by
  -- a whole number of characters is the octets of a text without surrogates, as is what is read
  rw [Utf8.isWhole_iff]
  exact exists_congr fun t => Bytes.decode_eq_ok_iff

/-! ### The place that an error names -/

/-- The message names a position, as the first or the only one: no digit follows. -/
def Text.NamesPosition (message : Text) (n : Nat) : Prop :=
  ∃ before after : Text, message = before ++ " in position " ++ Text.ofNat n ++ after ∧
    (after.head? = some (CodePoint.ofChar ':') ∨ after.head? = some (CodePoint.ofChar '-'))

/-- A stretch of one byte has one position, a longer one has two. -/
theorem exists_positionText (position length : Nat) :
    positionText position length = Text.ofNat position ∨
      ∃ last : Text, positionText position length = Text.ofNat position ++ "-" ++ last := by
  unfold positionText
  split
  · exact .inl rfl
  · exact .inr ⟨_, rfl⟩

theorem exists_message_eq (m : Utf8.Malformed) :
    ∃ stretch : Text, m.message = "'utf-8' codec can't decode " ++ stretch ++ " in position " ++
      positionText m.position m.bytes.length ++ ": " ++ m.flaw.message :=
  ⟨_, rfl⟩

theorem namesPosition_undecodable (m : Utf8.Malformed) :
    (Error.encoding (.undecodable m)).message.NamesPosition m.position := by
  obtain ⟨stretch, hmessage⟩ := exists_message_eq m
  change Text.NamesPosition ("invalid UTF-8 in frame data: " ++ m.message) m.position
  rw [hmessage]
  refine ⟨"invalid UTF-8 in frame data: " ++ ("'utf-8' codec can't decode " ++ stretch), ?_⟩
  -- a colon follows the position, or the dash of a second one
  obtain honly | ⟨last, hfirst⟩ := exists_positionText m.position m.bytes.length
  · refine ⟨": " ++ m.flaw.message, ?_, .inl rfl⟩
    simp only [honly, List.append_assoc]
  · refine ⟨"-" ++ last ++ ": " ++ m.flaw.message, ?_, .inr rfl⟩
    simp only [hfirst, List.append_assoc]

/-- **Bytes that are not a whole number of characters** cannot be read, and the error names the
length of the longest front that can. -/
theorem exists_undecodable (h : ¬ IsWhole bytes) :
    ∃ m, bytes.decode = .error (.encoding (.undecodable m)) ∧
      IsGreatest (wholeFronts bytes) m.position ∧
      (Error.encoding (.undecodable m)).message.NamesPosition m.position := by
  cases hdecode : bytes.decode with
  | ok t => exact absurd (exists_decode_eq_ok_iff.mp ⟨t, hdecode⟩) h
  | error e =>
    obtain ⟨m, hm, rfl⟩ := Bytes.decode_eq_error_iff.mp hdecode
    obtain ⟨t, rest, hfound⟩ := Utf8.exists_found_of_decode hm
    exact ⟨m, rfl, hfound.isGreatest, namesPosition_undecodable m⟩

/-! ### Bytes that have to be shown -/

/-- One sign stands for the stretch that the error holds. -/
theorem exists_replaced {m : Utf8.Malformed}
    (h : bytes.decode = .error (.encoding (.undecodable m))) :
    m.bytes ≠ [] ∧ ∃ t rest, Bytes.decode (bytes.take m.position) = .ok t ∧
      bytes.drop m.position = m.bytes ++ rest ∧
      decodeLossy bytes = t ++ CodePoint.ofNat 0xFFFD :: decodeLossy rest := by
  obtain ⟨m', hm, heq⟩ := Bytes.decode_eq_error_iff.mp h
  obtain rfl : m = m' := by
    cases heq
    rfl
  -- the text in front, the stretch and the rest are where strict reading found them
  obtain ⟨t, rest, hfound⟩ := Utf8.exists_found_of_decode hm
  refine ⟨hfound.ne_nil, t, rest, ?_, ?_, hfound.decodeLossy_eq⟩
  · apply Bytes.decode_eq_ok_iff.mpr
    refine ⟨hfound.surrogateFree, ?_⟩
    rw [hfound.bytes_eq, hfound.position_eq, List.take_left]
  · rw [hfound.bytes_eq, hfound.position_eq, List.drop_left]

/-- The body of an ERROR frame is shown whatever it holds. -/
theorem exists_failure {f : Frame} (h : f.command? = some .error) :
    ∃ failure, f.failure? = some failure ∧ failure.body = decodeLossy f.body :=
  ⟨_, if_pos h, rfl⟩

/-- **Text and bytes correspond one to one.** Writing succeeds exactly for text without surrogates,
reading exactly for a whole number of characters, and each undoes the other. Where reading fails,
the error names the length of the longest front that is a whole number of characters.

The body of an ERROR frame, and of a frame that refuses a handshake, is shown by reading that does
not fail. It gives the same text where strict reading succeeds, and reads characters as themselves,
those in front and those that stand anywhere else. One sign stands for the stretch at which strict
reading fails. -/
theorem text_and_bytes_correspond :
    (∀ t : Text, (∃ bytes, t.encode = .ok bytes) ↔ t.SurrogateFree) ∧
    (∀ (t : Text) (bytes : Bytes), t.encode = .ok bytes ↔ bytes.decode = .ok t) ∧
    (∀ bytes : Bytes, (∃ t, bytes.decode = .ok t) ↔ IsWhole bytes) ∧
    (∀ bytes : Bytes, ¬ IsWhole bytes → ∃ m, bytes.decode = .error (.encoding (.undecodable m)) ∧
      IsGreatest (wholeFronts bytes) m.position ∧
      (Error.encoding (.undecodable m)).message.NamesPosition m.position) ∧
    (∀ f : Frame, f.command? = some .error →
      ∃ failure, f.failure? = some failure ∧ failure.body = decodeLossy f.body) ∧
    (∀ reply : Frame, (Error.protocol (.refused reply)).message =
      "Not connected: " ++ decodeLossy reply.body) ∧
    (∀ (bytes : Bytes) (t : Text), bytes.decode = .ok t → decodeLossy bytes = t) ∧
    (∀ (front rest : Bytes) (t : Text), front.decode = .ok t →
      decodeLossy (front ++ rest) = t ++ decodeLossy rest) ∧
    (∀ (before among rest : Bytes) (t : Text), among.decode = .ok t → among ≠ [] →
      decodeLossy (before ++ among ++ rest) = decodeLossy before ++ t ++ decodeLossy rest) ∧
    ∀ (bytes : Bytes) (m : Utf8.Malformed), bytes.decode = .error (.encoding (.undecodable m)) →
      m.bytes ≠ [] ∧ ∃ t rest, Bytes.decode (bytes.take m.position) = .ok t ∧
        bytes.drop m.position = m.bytes ++ rest ∧
        decodeLossy bytes = t ++ CodePoint.ofNat 0xFFFD :: decodeLossy rest := by
  refine ⟨fun t => exists_encode_eq_ok_iff, fun t bytes => encode_eq_ok_iff_decode_eq_ok,
    fun bytes => exists_decode_eq_ok_iff, fun bytes => exists_undecodable, fun f => exists_failure,
    fun reply => rfl, ?_, ?_, ?_, fun bytes m => exists_replaced⟩
  · intro bytes t h
    exact Utf8.decodeLossy_of_decode (Utf8.decode_eq_ok_iff.mpr (Bytes.decode_eq_ok_iff.mp h))
  · intro front rest t h
    obtain ⟨hfree, rfl⟩ := Bytes.decode_eq_ok_iff.mp h
    exact Utf8.decodeLossy_octets_append hfree rest
  · -- bytes among the others hold a character unless there are none
    intro before among rest t h hne
    obtain ⟨hfree, rfl⟩ := Bytes.decode_eq_ok_iff.mp h
    exact Utf8.decodeLossy_append_octets_append hfree (mt Utf8.octets_eq_nil_iff.mpr hne)

/-- An encoded surrogate between two characters: none of its three bytes belongs to a character. -/
theorem text_and_bytes_correspond_encodedSurrogate :
    ¬ IsWhole [0xC3, 0xA9, 0xED, 0xA0, 0x80, 0x7A] ∧
      IsGreatest (wholeFronts [0xC3, 0xA9, 0xED, 0xA0, 0x80, 0x7A]) 2 ∧
      decodeLossy [0xC3, 0xA9, 0xED, 0xA0, 0x80, 0x7A] = "é\uFFFD\uFFFD\uFFFDz" := by
  obtain ⟨-, -, hread, hrefused, -, -, -, hfront, hamong, -⟩ := text_and_bytes_correspond
  have hdecode : Bytes.decode [0xC3, 0xA9, 0xED, 0xA0, 0x80, 0x7A] =
      .error (.encoding (.undecodable ⟨2, [0xED], .continuationByte⟩)) := by decide +kernel
  -- strict reading fails, so there is no text
  have hnot : ¬ IsWhole [0xC3, 0xA9, 0xED, 0xA0, 0x80, 0x7A] := by
    intro hwhole
    obtain ⟨t, ht⟩ := (hread _).mpr hwhole
    rw [hdecode] at ht
    cases ht
  refine ⟨hnot, ?_, ?_⟩
  · obtain ⟨m, hm, hgreatest, -⟩ := hrefused _ hnot
    rw [hdecode] at hm
    cases hm
    exact hgreatest
  · -- each of the three bytes is a stretch by itself
    have hfirst : Bytes.decode [0xC3, 0xA9] = .ok "é" := by decide +kernel
    have hlast : Bytes.decode [0x7A] = .ok "z" := by decide +kernel
    have hstray : decodeLossy [0xED, 0xA0, 0x80] = "\uFFFD\uFFFD\uFFFD" := by decide +kernel
    calc decodeLossy [0xC3, 0xA9, 0xED, 0xA0, 0x80, 0x7A]
        = decodeLossy ([0xC3, 0xA9] ++ [0xED, 0xA0, 0x80]) ++ "z" ++ decodeLossy [] :=
          hamong ([0xC3, 0xA9] ++ [0xED, 0xA0, 0x80]) _ [] _ hlast (List.cons_ne_nil _ _)
      _ = "é" ++ "\uFFFD\uFFFD\uFFFD" ++ "z" ++ decodeLossy [] := by
          rw [hfront _ _ _ hfirst, hstray]
      _ = "é\uFFFD\uFFFD\uFFFDz" := by decide +kernel

end Stomp
