import Stomp.Reader

/-!
# Bytes at hand, with a mark at their end

A **tape** is a list of bytes that notices when more is asked for than there is. Running a reader
on a tape is running it on bytes that are all at hand; when it is over, the mark says whether the
bytes alone decided how it ended, or whether their end did.

* `Reader.run_tape` — a reader that is done with the bytes is done with the tape, unmarked, and one
  that is not has asked for a byte past the end, and gives the error of an end of input.
-/

namespace Stomp

/-- Bytes to read, and whether a byte past the last of them was asked for. -/
structure Tape where
  unread : Bytes
  overrun : Bool := false
deriving DecidableEq, Repr

namespace Tape

instance : ByteSource Tape where
  read n tape :=
    (.ok (tape.unread.take n), ⟨tape.unread.drop n, tape.overrun || tape.unread.isEmpty⟩)
  pending tape := tape.unread.length
  pending_read_lt n tape b rest h := by
    have htake : tape.unread.take n = b :: rest := Except.ok.inj h
    have hlength : tape.unread.length = (b :: rest).length + (tape.unread.drop n).length := by
      rw [← htake, ← List.length_append, List.take_append_drop]
    rw [List.length_cons] at hlength
    show (tape.unread.drop n).length < tape.unread.length
    omega

/-- What one read takes and what it leaves. -/
theorem read_eq (n : Nat) (tape : Tape) :
    ByteSource.read n tape =
      (.ok (tape.unread.take n), ⟨tape.unread.drop n, tape.overrun || tape.unread.isEmpty⟩) := rfl

end Tape

/-- **A tape is the bytes.** A reader that is done with the bytes is done with the tape and has not
asked for more; any other asks for more where they end. -/
theorem Reader.run_tape {σ α : Type} (r : Reader σ α) (state : σ) (bytes : Bytes) :
    r.run state (⟨bytes, false⟩ : Tape) =
      match r.scan state bytes with
      | .done result rest => (result, ⟨rest, false⟩)
      | .more next => (.error (r.ended next), ⟨[], true⟩) := by
  refine r.run_of_holds (fun bytes => (⟨bytes, false⟩ : Tape)) ?_ ?_ state bytes
  · intro n bytes hn hbytes
    refine ⟨n, hn, Nat.le_refl n, ?_⟩
    -- there are bytes, so the mark is not set
    rw [Tape.read_eq, List.isEmpty_eq_false_iff.mpr hbytes, Bool.or_false]
  · -- at the end the mark is set, whatever it was before
    intro n
    rw [Tape.read_eq, List.take_nil, List.drop_nil, List.isEmpty_nil, Bool.or_true]

end Stomp
