import Stomp.Proofs.Reader.Tape
import Stomp.Stream

/-!
# The bytes that are available on a stream

A stream that may wait for ever hands over first what waits in its buffer, then the data of every
arrival before the first that is none. These are the bytes that are **available** on it, and for a
reader they are all there is to a stream: neither the pieces in which they arrive nor the number of
bytes that the socket is asked for make a difference.

* `Listening` — the invariant: the stream is open and has no deadline, no arrival of data is empty,
  and what comes after the data is what comes after the data of a given peer;
* `Listening.read_of_ne_nil` — one read takes some of what is available, and nothing else changes;
* `Listening.read_of_eq_nil` — a read that finds nothing available ends as what comes after the
  data says (`Peer.afterwards`);
* `Listening.run` — a whole run of a reader on the stream is its run on a tape with the bytes that
  are available, except that where the tape ends, the stream goes on to what comes after the data.
-/

namespace Stomp

namespace Network

/-! ### Arrivals -/

/-- The data that arrives before anything else does. -/
def arriving : List Event → Bytes
  | .arrival _ (.data bytes) :: rest => bytes ++ arriving rest
  | _ => []

/-- What is to happen after that data has arrived. -/
def afterData : List Event → List Event
  | .arrival _ (.data _) :: rest => afterData rest
  | events => events

/-- No arrival of data is empty. (An empty one would be taken for the end of the line.) -/
def DataNonempty (events : List Event) : Prop :=
  ∀ delay bytes, .arrival delay (.data bytes) ∈ events → bytes ≠ []

@[simp] theorem arriving_data (delay : Rat) (bytes : Bytes) (rest : List Event) :
    arriving (.arrival delay (.data bytes) :: rest) = bytes ++ arriving rest := rfl

@[simp] theorem afterData_data (delay : Rat) (bytes : Bytes) (rest : List Event) :
    afterData (.arrival delay (.data bytes) :: rest) = afterData rest := rfl

theorem DataNonempty.tail {event : Event} {rest : List Event} (h : DataNonempty (event :: rest)) :
    DataNonempty rest :=
  fun delay bytes hmem => h delay bytes (List.mem_cons_of_mem _ hmem)

/-- If no data arrives, then what is to happen after the data is to happen now. -/
theorem afterData_eq_self {events : List Event} (hdata : DataNonempty events)
    (h : arriving events = []) : afterData events = events := by
  cases events with
  | nil => rfl
  | cons event rest =>
    cases event with
    | stall => rfl
    | arrival delay what =>
      cases what with
      | data bytes =>
        rw [arriving_data, List.append_eq_nil_iff] at h
        exact absurd h.1 (hdata delay bytes (List.mem_cons_self ..))
      | _ => rfl

namespace Peer

/-- **One request without a limit takes some of the data that arrives.** The rest of it arrives
later, and what is to happen after it stays. -/
theorem receive_of_arriving {size : Nat} (hsize : 0 < size) {peer : Peer}
    (hdata : DataNonempty peer.events) (h : arriving peer.events ≠ []) :
    ∃ block elapsed events,
      peer.receive size none = (.chunk block, elapsed, { peer with events := events }) ∧
      block ≠ [] ∧ arriving peer.events = block ++ arriving events ∧
      afterData events = afterData peer.events ∧ DataNonempty events := by
  obtain ⟨events, sendFaults, connectFault, shutdownFault, closeFault⟩ := peer
  cases events with
  | nil => exact absurd rfl h
  | cons event rest =>
    cases event with
    | stall => exact absurd rfl h
    | arrival delay what =>
      cases what with
      | data bytes =>
        have hbytes : bytes ≠ [] := hdata delay bytes (List.mem_cons_self ..)
        have hblock : bytes.take size ≠ [] := by
          intro hnil
          rcases List.take_eq_nil_iff.mp hnil with hzero | hempty
          · exact Nat.ne_of_gt hsize hzero
          · exact hbytes hempty
        -- what does not fit into the request stays in front of the other events
        by_cases hleft : bytes.drop size = []
        · refine ⟨bytes.take size, delay, rest, ?_, hblock, ?_, rfl, hdata.tail⟩
          · simp [receive, hleft]
          · have htake : bytes.take size = bytes := by
              rw [← List.append_nil (bytes.take size), ← hleft, List.take_append_drop]
            rw [arriving_data, htake]
        · refine ⟨bytes.take size, delay, .arrival 0 (.data (bytes.drop size)) :: rest, ?_, hblock,
            ?_, rfl, ?_⟩
          · simp [receive, hleft]
          · rw [arriving_data, arriving_data, ← List.append_assoc, List.take_append_drop]
          · intro delay' bytes' hmem
            rcases List.mem_cons.mp hmem with heq | hmem
            · cases heq
              exact hleft
            · exact hdata.tail delay' bytes' hmem
      | peerClosed => exact absurd rfl h
      | failure reason => exact absurd rfl h
      | localClose => exact absurd rfl h

/-- **How reading ends after the data.** A line that is closed at the other end is the end of the
input, whose error is the reader's; all else is a failure of the stream. -/
def afterwards (peer : Peer) (endOfInput : Error) : Error :=
  match (afterData peer.events).head? with
  | some .stall => .connection (.readFailed "stalled forever")
  | some (.arrival _ (.failure reason)) => .connection (.readFailed reason)
  | some (.arrival _ .localClose) =>
    match peer.closeFault with
    | some reason => .connection (.readFailed reason)
    | none => .connection .closedDuringRead
  | _ => endOfInput

/-- **One request without a limit, if no data arrives**, is answered by the next event. -/
theorem receive_of_arriving_eq_nil (size : Nat) {peer : Peer} (hdata : DataNonempty peer.events)
    (h : arriving peer.events = []) :
    ∃ delivery elapsed, peer.receive size none =
        (delivery, elapsed, { peer with events := peer.events.tail }) ∧
      (delivery = .chunk [] ∧ (∀ e, peer.afterwards e = e) ∨
        delivery = .stalled ∧
          (∀ e, peer.afterwards e = .connection (.readFailed "stalled forever")) ∨
        (∃ reason, delivery = .failed reason ∧
          ∀ e, peer.afterwards e = .connection (.readFailed reason)) ∨
        delivery = .localClose ∧ ∀ e, peer.afterwards e =
          match peer.closeFault with
          | some reason => .connection (.readFailed reason)
          | none => .connection .closedDuringRead) := by
  have hafter := afterData_eq_self hdata h
  simp only [afterwards, hafter]
  obtain ⟨events, sendFaults, connectFault, shutdownFault, closeFault⟩ := peer
  cases events with
  | nil => exact ⟨_, _, rfl, .inl ⟨rfl, fun _ => rfl⟩⟩
  | cons event rest =>
    cases event with
    | stall => exact ⟨_, _, rfl, .inr (.inl ⟨rfl, fun _ => rfl⟩)⟩
    | arrival delay what =>
      cases what with
      | data bytes =>
        -- data that arrives is not empty
        rw [arriving_data, List.append_eq_nil_iff] at h
        exact absurd h.1 (hdata delay bytes (List.mem_cons_self ..))
      | peerClosed => exact ⟨_, _, rfl, .inl ⟨rfl, fun _ => rfl⟩⟩
      | failure reason => exact ⟨_, _, rfl, .inr (.inr (.inl ⟨reason, rfl, fun _ => rfl⟩))⟩
      | localClose => exact ⟨_, _, rfl, .inr (.inr (.inr ⟨rfl, fun _ => rfl⟩))⟩

end Peer

end Network

open Network (Peer arriving afterData afterData_eq_self DataNonempty)

namespace Stream

variable {peer : Peer} {s : Stream}

/-- What can be read from a stream that may wait for ever, before anything but data arrives. -/
def available (s : Stream) : Bytes := s.unread ++ arriving s.socket.peer.events

/-- **A stream that hands over what is available on it.** The peer is one whose data is followed by
what follows the data that is still to arrive; it does not change while data is read. -/
structure Listening (peer : Peer) (s : Stream) : Prop where
  closed_eq : s.closed = false
  deadline_eq : s.deadline = none
  readSize_pos : 0 < s.readSize
  data_nonempty : DataNonempty s.socket.peer.events
  afterData_eq : afterData s.socket.peer.events = afterData peer.events
  closeFault_eq : s.socket.peer.closeFault = peer.closeFault

/-- **A stream that has come to what follows the data**: nothing waits to be read, and the event
after the data has happened. -/
structure PastData (peer : Peer) (s : Stream) : Prop where
  unread_eq : s.unread = []
  events_eq : s.socket.peer.events = (afterData peer.events).tail

namespace Listening

/-- Taking bytes from those that wait keeps the invariant. -/
theorem setUnread (h : Listening peer s) (unread : Bytes) :
    Listening peer { s with unread := unread } where
  closed_eq := h.closed_eq
  deadline_eq := h.deadline_eq
  readSize_pos := h.readSize_pos
  data_nonempty := h.data_nonempty
  afterData_eq := h.afterData_eq
  closeFault_eq := h.closeFault_eq

/-- Getting bytes is asking the socket. -/
theorem on_fill (h : Listening peer s) (env : Environment) :
    fill.on s env = (receive none >>= accept).on s env := by
  rw [Stream.on_fill, h.closed_eq, h.deadline_eq]
  rfl

/-- Data that arrives is put where it can be read, and nothing else changes. -/
theorem fill_of_arriving (h : Listening peer s) (hnil : s.unread = [])
    (harriving : arriving s.socket.peer.events ≠ []) (env : Environment) :
    ∃ s' env', fill.on s env = (.ok (), s', env') ∧ s'.unread ≠ [] ∧
      s'.available = s.available ∧ Listening peer s' := by
  obtain ⟨block, elapsed, events, hreceive, hblock, hsplit, hafter, hdata⟩ :=
    Peer.receive_of_arriving h.readSize_pos h.data_nonempty harriving
  rw [h.on_fill, Operation.on_bind, on_receive, hreceive]
  refine ⟨_, _, rfl, ?_, ?_, ?_⟩
  · show s.unread ++ block ≠ []
    rw [hnil, List.nil_append]
    exact hblock
  · -- the block has moved from what arrives to what waits
    calc s.unread ++ block ++ arriving events
        = s.unread ++ (block ++ arriving events) := List.append_assoc _ _ _
      _ = s.unread ++ arriving s.socket.peer.events := by rw [hsplit]
  · exact
      { closed_eq := h.closed_eq
        deadline_eq := h.deadline_eq
        readSize_pos := h.readSize_pos
        data_nonempty := hdata
        afterData_eq := hafter.trans h.afterData_eq
        closeFault_eq := h.closeFault_eq }

/-- Reading from bytes that wait takes the first of them. -/
theorem read_of_unread (h : Listening peer s) {n : Nat} (hn : 0 < n) (hne : s.unread ≠ [])
    (env : Environment) :
    ∃ block s', (read n).on s env = (.ok block, s', env) ∧ block ≠ [] ∧ block.length ≤ n ∧
      s.available = block ++ s'.available ∧ Listening peer s' := by
  have hempty : ¬ s.unread.isEmpty := fun hempty => hne (List.isEmpty_iff.mp hempty)
  rw [on_read, if_neg hempty]
  refine ⟨s.unread.take n, { s with unread := s.unread.drop n }, rfl, ?_,
    List.length_take_le n s.unread, ?_, h.setUnread _⟩
  · intro hnil
    rcases List.take_eq_nil_iff.mp hnil with hzero | hempty
    · exact Nat.ne_of_gt hn hzero
    · exact hne hempty
  · -- what is taken and what is dropped make up what waited
    show s.unread ++ _ = s.unread.take n ++ (s.unread.drop n ++ _)
    rw [← List.append_assoc, List.take_append_drop]

/-- **One read of what is available.** It takes some bytes from the front, no more than are asked
for, and the rest stays available. -/
theorem read_of_ne_nil (h : Listening peer s) {n : Nat} (hn : 0 < n) (hne : s.available ≠ [])
    (env : Environment) :
    ∃ block s' env', (read n).on s env = (.ok block, s', env') ∧ block ≠ [] ∧ block.length ≤ n ∧
      s.available = block ++ s'.available ∧ Listening peer s' := by
  by_cases hnil : s.unread = []
  · -- nothing waits, so what is available is what arrives
    have harriving : arriving s.socket.peer.events ≠ [] := by
      intro hno
      rw [available, hnil, hno] at hne
      exact hne rfl
    obtain ⟨t, env', hfill, htne, havailable, ht⟩ := h.fill_of_arriving hnil harriving env
    obtain ⟨block, s', hread, hblock⟩ := ht.read_of_unread hn htne env'
    refine ⟨block, s', env', ?_, havailable ▸ hblock⟩
    -- reading from an empty buffer is filling it and reading from what it holds then
    have hfilled : ¬ t.unread.isEmpty := fun hempty => htne (List.isEmpty_iff.mp hempty)
    rw [on_read, if_neg hfilled] at hread
    rw [on_read, if_pos (List.isEmpty_iff.mpr hnil), hfill]
    exact hread
  · obtain ⟨block, s', hread, hblock⟩ := h.read_of_unread hn hnil env
    exact ⟨block, s', env, hread, hblock⟩

/-- **A read that finds nothing available** ends as what comes after the data says: either there is
no byte, and it is for the reader to give the error, or it fails. -/
theorem read_of_eq_nil (h : Listening peer s) (hnil : s.available = []) (n : Nat)
    (env : Environment) :
    ∃ outcome s' env', (read n).on s env = (outcome, s', env') ∧ PastData peer s' ∧
      ((outcome = .ok [] ∧ ∀ e, peer.afterwards e = e) ∨
        ∃ failure, outcome = .error failure ∧ ∀ e, peer.afterwards e = failure) := by
  obtain ⟨hunread, harriving⟩ := List.append_eq_nil_iff.mp hnil
  have hevents : s.socket.peer.events = afterData peer.events := by
    rw [← h.afterData_eq, afterData_eq_self h.data_nonempty harriving]
  have hafterwards : ∀ e, peer.afterwards e = s.socket.peer.afterwards e := by
    intro e
    rw [Peer.afterwards, Peer.afterwards, h.afterData_eq, h.closeFault_eq]
  obtain ⟨delivery, elapsed, hreceive, hdelivery⟩ :=
    Peer.receive_of_arriving_eq_nil s.readSize h.data_nonempty harriving
  -- the socket is asked, and the next event is what it delivers
  rw [on_read, if_pos (List.isEmpty_iff.mpr hunread), h.on_fill, Operation.on_bind, on_receive,
    hreceive]
  simp only [hafterwards]
  have htail : s.socket.peer.events.tail = (afterData peer.events).tail := by rw [hevents]
  rcases hdelivery with ⟨rfl, hend⟩ | ⟨rfl, hend⟩ | ⟨reason, rfl, hend⟩ | ⟨rfl, hend⟩
  · -- an empty block, and the buffer stays empty
    refine ⟨_, _, _, rfl, ⟨?_, htail⟩, .inl ⟨?_, hend⟩⟩
    · show (s.unread ++ []).drop n = []
      rw [hunread, List.append_nil, List.drop_nil]
    · show Except.ok ((s.unread ++ []).take n) = .ok []
      rw [hunread, List.append_nil, List.take_nil]
  · exact ⟨_, _, _, rfl, ⟨hunread, htail⟩, .inr ⟨_, rfl, hend⟩⟩
  · exact ⟨_, _, _, rfl, ⟨hunread, htail⟩, .inr ⟨_, rfl, hend⟩⟩
  · -- the stream closes, so its buffer is empty
    simp only [on_accept_localClose, on_shut, h.closed_eq, Bool.false_eq_true, if_false]
    cases hfault : s.socket.peer.closeFault with
    | none =>
      rw [hfault] at hend
      exact ⟨_, _, _, rfl, ⟨rfl, htail⟩, .inr ⟨_, rfl, hend⟩⟩
    | some reason =>
      rw [hfault] at hend
      exact ⟨_, _, _, rfl, ⟨rfl, htail⟩, .inr ⟨_, rfl, hend⟩⟩

end Listening

/-! ### Whole runs -/

/-- **How reading from a stream and from a tape agree.** As long as the tape is enough, the outcome
is the same and what is unread on the tape stays available; where the tape is overrun, the stream
has come to what follows the data, and this says how reading ends. -/
structure Agrees {α : Type} (peer : Peer) (onTape : Except Error α × Tape)
    (onStream : Except Error α × Stream × Environment) : Prop where
  of_enough : onTape.2.overrun = false →
    onStream.1 = onTape.1 ∧ Listening peer onStream.2.1 ∧
      onStream.2.1.available = onTape.2.unread
  of_overrun : onTape.2.overrun = true →
    ∃ e, onTape.1 = .error e ∧ onStream.1 = .error (peer.afterwards e) ∧
      PastData peer onStream.2.1

/-- Doing something with the result keeps the agreement. -/
theorem Agrees.map {α β : Type} {onTape : Except Error α × Tape}
    {onStream : Except Error α × Stream × Environment} (h : Agrees peer onTape onStream)
    (f : α → β) : Agrees peer (onTape.1.map f, onTape.2) (onStream.1.map f, onStream.2) where
  of_enough henough := by
    obtain ⟨hresult, hlistening⟩ := h.of_enough henough
    exact ⟨congrArg (Except.map f) hresult, hlistening⟩
  of_overrun hoverrun := by
    obtain ⟨e, htape, hstream, hpast⟩ := h.of_overrun hoverrun
    exact ⟨e, congrArg (Except.map f) htape, congrArg (Except.map f) hstream, hpast⟩

/-- **A reader reads what is available.** However the bytes come in pieces, a whole run on a stream
agrees with the run on a tape that holds the bytes. -/
theorem Listening.run {σ α : Type} (r : Reader σ α) (state : σ) (h : Listening peer s)
    (env : Environment) :
    Agrees peer (r.run state (⟨s.available, false⟩ : Tape)) (r.run state (s, env)) := by
  -- one read serves the front of what is available, and the rest is available on what it leaves
  have hserves : ∀ n (source : Stream × Environment) bytes, 0 < n → bytes ≠ [] →
      Listening peer source.1 ∧ source.1.available = bytes →
      ∃ block later left, ByteSource.read n source = (.ok block, left) ∧ block ≠ [] ∧
        block.length ≤ n ∧ bytes = block ++ later ∧
        Listening peer left.1 ∧ left.1.available = later := by
    rintro n ⟨t, env⟩ bytes hn hne ⟨ht, rfl⟩
    obtain ⟨block, t', env', hread, hblock, hlength, hsplit, ht'⟩ := ht.read_of_ne_nil hn hne env
    exact ⟨block, t'.available, (t', env'), hread, hblock, hlength, hsplit, ht', rfl⟩
  have hrun := r.run_of_serves hserves state (s, env) s.available ⟨h, rfl⟩
  rw [r.run_tape]
  cases hscan : r.scan state s.available with
  | done result rest =>
    rw [hscan] at hrun
    obtain ⟨left, hleft, hlistening, havailable⟩ := hrun
    rw [hleft]
    exact
      { of_enough := fun _ => ⟨rfl, hlistening, havailable⟩
        of_overrun := fun hoverrun => absurd hoverrun Bool.false_ne_true }
  | more next =>
    rw [hscan] at hrun
    obtain ⟨left, hleft, hlistening, havailable⟩ := hrun
    obtain ⟨outcome, t, env', hread, hpast, hend⟩ :=
      hlistening.read_of_eq_nil havailable (r.demand next) left.2
    have hround : ByteSource.read (r.demand next) left = (outcome, t, env') := hread
    rw [hleft, r.run_eq, hround]
    -- the next read is past the data, and the run ends with it
    refine ⟨fun henough => absurd henough.symm Bool.false_ne_true, fun _ => ?_⟩
    rcases hend with ⟨rfl, hend⟩ | ⟨failure, rfl, hend⟩ <;>
      exact ⟨r.ended next, rfl, by rw [hend], hpast⟩

end Stream

end Stomp
