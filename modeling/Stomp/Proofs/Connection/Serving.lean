import Stomp.Proofs.Connection.Receiving
import Stomp.Proofs.Frame.Layout
import Stomp.Proofs.Stream.Waiting

/-!
# Receiving before a deadline

What a call that receives is given by its stream, with a limit on its time or none. If the bytes at
the front of what is available are just those that the call reads, then they are **served**, or the
call is **late** with a part of them; the limit alone decides between the two.

* `Call.Reads` — bytes are just what a call reads: it ends when it has read them, and no sooner
  (`Call.reads_frame_iff`, `Call.reads_text_iff`);
* `Call.served_or_late` — what becomes of a call where such bytes are at the front;
* `Call.served_of_lt` — it is served if the bytes are not waited for as long as the limit;
* `Call.reads_of_eq_ok` — a call that succeeds, whatever the limit, has read such bytes.
-/

namespace Stomp.Connection

open Stomp.Stream (Late Live Served)

/-- The wait for bytes does not depend on the deadline. -/
@[simp] theorem wait_withTimeout (s : Stream) (timeout : Option Rat) (now : Rat) (n : Nat) :
    (s.withTimeout timeout now).wait n = s.wait n := rfl

/-- Nor does what is available. -/
@[simp] theorem available_withTimeout (s : Stream) (timeout : Option Rat) (now : Rat) :
    (s.withTimeout timeout now).available = s.available := rfl

theorem live_withTimeout {s : Stream} (h : Live s) (timeout : Option Rat) (now : Rat) :
    Live (s.withTimeout timeout now) :=
  ⟨h.closed_eq, h.readSize_pos, h.data_nonempty⟩

/-- **A frame that was read stood at the front** of what was available, and nothing behind it was
taken. -/
theorem exists_layout_of_read {version : Text} {f : Frame} {s s' : Stream} {env env' : Environment}
    (h : Frame.read version (s, env) = (.ok f, s', env')) :
    ∃ v, Version.parse? version = some v ∧
      ∃ l : Layout v.dialect f, s.available = l.bytes ++ s'.available := by
  cases hversion : Version.parse? version with
  | none =>
    -- no version, no frame
    simp only [Frame.read, hversion] at h
    cases h
  | some v =>
    simp only [Frame.read, hversion] at h
    obtain ⟨front, hfront, hscan⟩ := Stream.available_of_run _ h
    obtain ⟨l, hl⟩ := Frame.Decoder.scan_start_eq_done_ok_iff.mp hscan
    rw [List.append_nil] at hl
    exact ⟨v, rfl, l, hl ▸ hfront⟩

namespace Call

/-- **The bytes are just what a call reads** in a version, and the outcome is what comes of them. -/
def Reads (call : Call) (version : Text) (bytes : Bytes) (outcome : Except Error Outcome) : Prop :=
  call.read version #[] (⟨bytes, false⟩ : Tape) = (outcome, ⟨[], false⟩)

/-- The bytes leave a call waiting for more. -/
def Starves (call : Call) (version : Text) (bytes : Bytes) : Prop :=
  (call.read version #[] (⟨bytes, false⟩ : Tape)).2.overrun = true

/-- What a call that receives a frame reads is what the decoder takes. -/
theorem reads_frame_iff {version : Text} {v : Version} (hversion : Version.parse? version = some v)
    {bytes : Bytes} {f : Frame} :
    Call.frame.Reads version bytes (.ok (.frame f)) ↔
      (Frame.decoder v.dialect).scan .start bytes = .done (.ok f) [] := by
  simp only [Reads, read, Frame.read, hversion, Reader.run_tape]
  cases (Frame.decoder v.dialect).scan .start bytes with
  | more next => simp [Except.map]
  | done result rest => cases result <;> simp [Except.map]

/-- What a call that receives a text reads is what the reader of texts takes. -/
theorem reads_text_iff {version : Text} {bytes : Bytes} {t : Text} :
    Call.text.Reads version bytes (.ok (.text t)) ↔
      Frame.rawReader.scan {} bytes = .done (.ok t) [] := by
  simp only [Reads, read, Reader.run_tape]
  cases Frame.rawReader.scan {} bytes with
  | more next => simp [Except.map]
  | done result rest => cases result <;> simp [Except.map]

variable {c c' : Connection} {s s' : Stream} {env env' : Environment} {bytes rest : Bytes}
  {outcome : Except Error Outcome}

/-- What a call reads from a stream with the bytes in front. -/
theorem read_served_or_late (call : Call) {version : Text} (h : Live s) (env : Environment)
    (havailable : s.available = bytes ++ rest) (hreads : call.Reads version bytes outcome) :
    (∃ s' env', call.read version #[] (s, env) = (outcome, s', env') ∧
        Served s env bytes s' env') ∨
      ∃ fault s' env' taken later,
        call.read version #[] (s, env) = (.error (.timeout fault), s', env') ∧
        bytes = taken ++ later ∧ later ≠ [] ∧ call.Starves version taken ∧ Late s env taken s' := by
  unfold Reads at hreads
  unfold Starves
  rcases call.read_cases version #[] with ⟨e, hread⟩ | ⟨σ, α, r, state, f, -, hread⟩
  · -- nothing is read, so nothing stood in front
    rw [hread] at hreads
    cases hreads
    exact .inl ⟨s, env, hread _, h.served_refl env⟩
  · rw [hread, r.run_tape] at hreads
    cases hscan : r.scan state bytes with
    | more next =>
      rw [hscan] at hreads
      cases hreads
    | done result left =>
      rw [hscan] at hreads
      cases hreads
      -- a reader reads, and its whole run is served or late
      rcases h.run r env havailable hscan with ⟨s', env', hrun, hserved⟩ |
        ⟨fault, s', env', taken, later, next, hrun, hsplit, hlater, hmore, hlate⟩
      · refine .inl ⟨s', env', ?_, hserved⟩
        rw [hread, hrun]
      · refine .inr ⟨fault, s', env', taken, later, ?_, hsplit, hlater, ?_, hlate⟩
        · rw [hread, hrun]
          rfl
        · rw [hread, r.run_tape, hmore]

/-- **One call** where the bytes that it reads are at the front of what is available: they are
served and the outcome is what comes of them; or the deadline comes, and the part of them that has
been read by then is gone. -/
theorem served_or_late (call : Call) (timeout : Option Rat) (hstream : c.stream = some s)
    (h : Live s) (hkept : c.inputBuffer = #[]) (env : Environment)
    (havailable : s.available = bytes ++ rest) (hreads : call.Reads c.version bytes outcome) :
    (∃ s' env', (call.action timeout).operation.on c env =
          (outcome, { c with stream := some s' }, env') ∧
        Served (s.withTimeout timeout env.clock) env bytes s' env') ∨
      ∃ fault s' env' taken later, (call.action timeout).operation.on c env =
          (.error (.timeout fault), { c with stream := some s' }, env') ∧
        bytes = taken ++ later ∧ later ≠ [] ∧ call.Starves c.version taken ∧
        Late (s.withTimeout timeout env.clock) env taken s' := by
  obtain ⟨outcome', s', env', hread, hon⟩ := call.on_action timeout hstream h.closed_eq env
  rw [hkept] at hread
  rw [hon, call.after_of_kept hkept]
  rcases call.read_served_or_late (live_withTimeout h timeout env.clock) env havailable hreads with
    ⟨t, env₁, hread', hserved⟩ |
      ⟨fault, t, env₁, taken, later, hread', hsplit, hlater, hmore, hlate⟩
  · rw [hread] at hread'
    cases hread'
    -- what is told to the log takes no time
    exact .inl ⟨_, _, rfl, hserved.live, hserved.deadline_eq, hserved.available_eq,
      hserved.moment_eq⟩
  · rw [hread] at hread'
    cases hread'
    exact .inr ⟨fault, _, _, taken, later, rfl, hsplit, hlater, hmore, hlate⟩

/-- **A call in time is served.** -/
theorem served_of_lt (call : Call) {timeout : Option Rat} (hstream : c.stream = some s)
    (h : Live s) (hkept : c.inputBuffer = #[]) (env : Environment)
    (havailable : s.available = bytes ++ rest) (hreads : call.Reads c.version bytes outcome)
    (hlimit : ∀ limit ∈ timeout, ∀ n ≤ bytes.length, s.wait n < limit) :
    ∃ s' env', (call.action timeout).operation.on c env =
        (outcome, { c with stream := some s' }, env') ∧ Live s' ∧ s'.available = rest ∧
      ∀ n, env'.clock + s'.wait n = env.clock + s.wait (bytes.length + n) := by
  rcases call.served_or_late timeout hstream h hkept env havailable hreads with
    ⟨s', env', hon, hserved⟩ | ⟨fault, s', env', taken, later, -, hsplit, hlater, -, hlate⟩
  · refine ⟨s', env', hon, hserved.live, ?_, hserved.moment_eq⟩
    exact List.append_cancel_left (hserved.available_eq.symm.trans havailable)
  · -- then the deadline would lie before the bytes are there
    exfalso
    obtain ⟨deadline, hdeadline, n, hn, hle⟩ := hlate.expired
    obtain ⟨limit, rfl, hsum⟩ : ∃ limit, timeout = some limit ∧ env.clock + limit = deadline := by
      simpa [Stream.withTimeout] using hdeadline
    have hpart : n ≤ bytes.length := by
      have := List.length_pos_iff.mpr hlater
      rw [hsplit, List.length_append]
      omega
    have := hlimit limit rfl n hpart
    rw [wait_withTimeout] at hle
    linarith

/-- **A call that succeeds** has read the bytes at the front of what was available, and the others
are available still. -/
theorem reads_of_eq_ok (call : Call) {timeout : Option Rat} (hstream : c.stream = some s)
    (h : s.closed = false) (hkept : c.inputBuffer = #[]) {value : Outcome}
    (hon : (call.action timeout).operation.on c env = (.ok value, c', env')) :
    ∃ s' bytes, c' = { c with stream := some s' } ∧ s.available = bytes ++ s'.available ∧
      call.Reads c.version bytes (.ok value) := by
  obtain ⟨outcome, s', env₁, hread, hon'⟩ := call.on_action timeout hstream h env
  rw [hon, call.after_of_kept hkept] at hon'
  cases hon'
  rw [hkept] at hread
  unfold Reads
  rcases call.read_cases c.version #[] with ⟨e, hread'⟩ | ⟨σ, α, r, state, f, -, hread'⟩
  · -- nothing is read, so there is no value
    rw [hread'] at hread
    cases hread
  · rw [hread'] at hread
    rcases hrun : r.run state (s.withTimeout timeout env.clock, env) with ⟨e | a, t, env₂⟩
    · rw [hrun] at hread
      cases hread
    · rw [hrun] at hread
      cases hread
      obtain ⟨front, hfront, hscan⟩ := Stream.available_of_run r hrun
      refine ⟨s', front, rfl, hfront, ?_⟩
      rw [hread', r.run_tape, hscan]
      rfl

end Call

end Stomp.Connection
