import Stomp.Proofs.Connection.InputBuffer
import Stomp.Proofs.Connection.WithTime
import Stomp.Proofs.Frame.RawText
import Stomp.Proofs.History

/-!
# What receiving a text gives

Receiving the text of a frame is told by the bytes that are available and by nothing before them: a
NUL that an earlier call took counts no more, whatever came of that call. The text ends at the first
line feed that an odd run of NULs comes before, and if there is none, all of the bytes are taken and
the text is not there.

The two halves are `Call.Undisturbed.on_receiveText_of_endsTextAt` and
`Call.Undisturbed.on_receiveText_of_unended`; `receiveText_after` puts them together for a
connection after every history.
-/

namespace Stomp

/-- Bytes that are no text fail for that reason. -/
theorem Bytes.exists_undecodable_of_decode {bytes : Bytes} {e : Error}
    (h : bytes.decode = .error e) : ∃ malformed, e = .encoding (.undecodable malformed) := by
  obtain ⟨malformed, -, rfl⟩ := Bytes.decode_eq_error_iff.mp h
  exact ⟨malformed, rfl⟩

namespace Connection

open Network (EndsAfterData)
open Operation (after history)
open Stomp.Stream (Live PastData)

namespace Call

/-- What a call for a text reads from a tape. -/
theorem read_text_tape (version : Text) (bytes : Bytes) :
    Call.text.read version #[] (⟨bytes, false⟩ : Tape) =
      match Frame.rawReader.scan {} bytes with
      | .done result rest => (result.map .text, ⟨rest, false⟩)
      | .more _ => (.error (.protocol .endedInText), ⟨[], true⟩) := by
  show ((Frame.rawReader.run {} (⟨bytes, false⟩ : Tape)).1.map Outcome.text,
    (Frame.rawReader.run {} (⟨bytes, false⟩ : Tape)).2) = _
  rw [Frame.rawReader.run_tape {} bytes]
  -- the reader is done with the bytes, or it wants more of them
  cases Frame.rawReader.scan {} bytes <;> rfl

namespace Undisturbed

variable {timeout : Option Rat} {c : Connection} {s : Stream} {env : Environment}

/-- **The first line feed after an odd run of NULs ends the text**: the bytes before the last NUL of
the run are the text, if they are one at all, and the bytes after the line feed stay available. -/
theorem on_receiveText_of_endsTextAt (h : Call.text.Undisturbed timeout c s env) {p : Nat}
    (hp : s.available.EndsTextAt p) (hfirst : ∀ q < p, ¬ s.available.EndsTextAt q) :
    ∃ s' env', (receiveText timeout).on c env =
        (Bytes.decode (s.available.take (p - 1)), { c with stream := some s' }, env') ∧
      s'.available = s.available.drop (p + 1) := by
  -- the scan ends at the first line feed of this kind
  have htape : Call.text.read c.version #[] (⟨s.available, false⟩ : Tape) =
      ((Bytes.decode (s.available.take (p - 1))).map .text,
        ⟨s.available.drop (p + 1), false⟩) := by
    rw [read_text_tape, Frame.scan_raw_of_endsTextAt hp hfirst]
  obtain ⟨s', env', hon, -, havailable⟩ := h.on_action_of_enough htape
  exact ⟨s', env', on_receiveText_iff.mp hon, havailable⟩

/-- **Where no line feed ends a text**, all bytes are taken, and the text is missed. -/
theorem on_receiveText_of_unended (h : Call.text.Undisturbed timeout c s env)
    (hends : EndsAfterData s.socket.peer.events) (hnone : s.available.Unended) :
    ∃ s' env', (receiveText timeout).on c env =
        (.error (.protocol .endedInText), { c with stream := some s' }, env') ∧
      PastData s.socket.peer s' := by
  obtain ⟨next, hmore⟩ := Frame.exists_more_of_unended hnone
  have htape : Call.text.read c.version #[] (⟨s.available, false⟩ : Tape) =
      (.error (.protocol .endedInText), ⟨[], true⟩) := by
    rw [read_text_tape, hmore]
  obtain ⟨s', env', hon, hpast⟩ := h.on_action_of_overrun hends htape
  -- the action wraps a text as its outcome, and an error is the same with no text to wrap
  have hmapped : (Call.text.action timeout).operation.on c env =
      ((Except.error (.protocol .endedInText) : Except Error Text).map .text,
        { c with stream := some s' }, env') := hon
  exact ⟨s', env', on_receiveText_iff.mp hmapped, hpast⟩

end Undisturbed

end Call

/-- **What receiving a text gives, after every history.** Let a text be received, with a limit or
without, by an open connection, whatever was done with it before and whatever came of that, and let
the peer close its end after the bytes that are available. If the call has time, then it ends at the
first line feed that an odd run of NULs comes before: it takes the bytes up to there, and gives the
text that the bytes before the last of these NULs are, or the error that they are none. If there is
no such line feed, it takes all of the bytes and gives the error of an end of input. Whatever comes
of the call, in time or not, nothing of a text is kept. -/
theorem receiveText_after (first : Text) (actions : List Action) (start : Environment)
    (timeout : Option Rat) :
    let c := (after Action.operation actions { version := first } start).1
    let env := (after Action.operation actions { version := first } start).2
    (∀ s, c.stream = some s → Live s → EndsAfterData s.socket.peer.events →
        Call.text.HasTime timeout c env →
      (∀ p, s.available.EndsTextAt p → (∀ q < p, ¬ s.available.EndsTextAt q) →
        (∃ s' env', (receiveText timeout).on c env =
            (Bytes.decode (s.available.take (p - 1)), { c with stream := some s' }, env') ∧
          s'.available = s.available.drop (p + 1)) ∧
        ∀ e, Bytes.decode (s.available.take (p - 1)) = .error e →
          ∃ malformed, e = .encoding (.undecodable malformed)) ∧
      ((∀ p, ¬ s.available.EndsTextAt p) →
        ∃ s' env', (receiveText timeout).on c env =
            (.error (.protocol .endedInText), { c with stream := some s' }, env') ∧
          PastData s.socket.peer s')) ∧
    ((receiveText timeout).on c env).2.1.inputBuffer = #[] := by
  intro c env
  -- each action leaves nothing of a text, so the history before the call does not count
  have hkept : c.inputBuffer = #[] := inputBuffer_after actions rfl start
  refine ⟨fun s hstream hlive hends htime => ?_, nothingKept_receiveText timeout c env hkept⟩
  have h : Call.text.Undisturbed timeout c s env := ⟨hstream, hlive, hkept, htime⟩
  refine ⟨fun p hp hfirst => ⟨h.on_receiveText_of_endsTextAt hp hfirst, fun e he => ?_⟩,
    fun hnone => ?_⟩
  · exact Bytes.exists_undecodable_of_decode he
  · exact h.on_receiveText_of_unended hends (Bytes.unended_iff_forall_not_endsTextAt.mpr hnone)

/-- A text that was given up after a NUL, as the rest of it came too late. -/
def interrupted : List Action :=
  [.adopt
      { events :=
          [.arrival 0 (.data [65, 0]), .arrival 5 (.data [0, 0, 10, 66, 0, 0, 0, 10, 67]),
            .arrival 2 .peerClosed] },
    .receiveText (some 1)]

theorem receiveText_interrupted :
    (∃ fault, (history Action.operation interrupted {} {}).map Deed.outcome =
        [.ok .done, .error (.timeout fault)]) ∧
      let c := (after Action.operation interrupted {} {}).1
      let env := (after Action.operation interrupted {} {}).2
      ∃ s' env', (receiveText (some 60)).on c env =
          (.ok "\x00\x00\nB\x00\x00", { c with stream := some s' }, env') ∧
        s'.available = [67] := by
  have houtcomes : (history Action.operation interrupted {} {}).map Deed.outcome =
      [.ok .done, .error (.timeout .noData)] := by decide +kernel
  refine ⟨⟨_, houtcomes⟩, ?_⟩
  intro c env
  obtain ⟨s, hstream⟩ : ∃ s, c.stream = some s := Option.isSome_iff_exists.mp (by decide +kernel)
  have hevents : ∀ t ∈ c.stream, t.socket.peer.events =
      [.arrival 4 (.data [0, 0, 10, 66, 0, 0, 0, 10, 67]), .arrival 2 .peerClosed] := by
    decide +kernel
  have hfields : ∀ t ∈ c.stream, t.closed = false ∧ 0 < t.readSize ∧ t.unread = [] := by
    decide +kernel
  obtain ⟨hclosed, hsize, hunread⟩ := hfields s hstream
  have hlive : Live s := ⟨hclosed, hsize, by rw [hevents s hstream]; decide +kernel⟩
  have havailable : s.available = [0, 0, 10, 66, 0, 0, 0, 10, 67] := by
    rw [Stream.available, hunread, hevents s hstream]
    rfl
  have hends : EndsAfterData s.socket.peer.events := by
    rw [hevents s hstream]
    rintro event ⟨⟩
    exact ⟨2, rfl⟩
  -- the rest is there four seconds later, and all of it comes at once
  have htime : Call.text.HasTime (some 60) c env := by
    rintro limit ⟨⟩
    refine ⟨fun t ht => ?_, .inr ⟨⟨(1, .chunk [0, 0, 10, 66, 0, 0, 0, 10, 67]), ?_, ?_⟩, ?_, ?_⟩⟩
    · rw [hevents t ht]
      decide +kernel
    all_goals decide +kernel
  -- the NUL that was taken before does not count: the run before the first line feed is even
  have hend : s.available.EndsTextAt 7 ∧ ∀ q < 7, ¬ s.available.EndsTextAt q := by
    rw [havailable]
    decide +kernel
  obtain ⟨htold, -⟩ := receiveText_after "1.0" interrupted {} (some 60)
  obtain ⟨htext, -⟩ := htold s hstream hlive hends htime
  obtain ⟨⟨s', env', hon, hleft⟩, -⟩ := htext 7 hend.1 hend.2
  rw [havailable] at hon hleft
  have hdecode : Bytes.decode ([0, 0, 10, 66, 0, 0, 0, 10, 67].take (7 - 1)) =
      .ok "\x00\x00\nB\x00\x00" := by decide +kernel
  rw [hdecode] at hon
  exact ⟨s', env', hon, hleft⟩

end Connection

end Stomp
