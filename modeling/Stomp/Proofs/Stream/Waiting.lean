import Mathlib.Algebra.Order.Ring.Rat
import Mathlib.Data.List.Basic
import Mathlib.Tactic.Linarith
import Stomp.Proofs.Stream.Available
import Stomp.Proofs.Stream.Deadline

/-!
# Reading what is available before a deadline

A stream with a deadline hands over what is available on it, in order, until the deadline has come;
then it fails, and what it has not handed over stays available. When this is follows from the delays
alone: `Stream.wait n` is the time that passes, in waiting, until `n` more bytes have been handed
over.

* `Served` — some bytes were handed over: they are gone from the front of what is available, and the
  time that was waited for them has passed;
* `Late` — after some bytes the deadline came, because it lies no later than the arrival of one byte
  more;
* `Live.on_read` — one read is served, or it is late and takes nothing;
* `Live.run` — a reader that is done with the bytes at the front is served them, or it is late with
  a part of them that leaves it waiting;
* `available_of_run` — whatever comes of the others, a value is made of bytes that stood at the
  front of what was available.
-/

namespace Stomp

namespace Network

/-! ### What is to arrive can be looked through -/

/-- The data that an event brings. -/
def Event.data? : Event → Option Bytes
  | .arrival _ (.data bytes) => some bytes
  | _ => none

/-- How long an event is waited for. -/
def Event.delay? : Event → Option Rat
  | .arrival delay _ => some delay
  | .stall => none

theorem dataNonempty_iff {events : List Event} :
    DataNonempty events ↔ ∀ event ∈ events, event.data? ≠ some [] := by
  constructor
  · intro h event hmem hnil
    match event, hnil with
    | .arrival delay (.data []), _ => exact h delay [] hmem rfl
  · rintro h delay bytes hmem rfl
    exact h _ hmem rfl

theorem delaysNonneg_iff {events : List Event} :
    DelaysNonneg events ↔ ∀ event ∈ events, ∀ delay ∈ event.delay?, 0 ≤ delay := by
  constructor
  · intro h event hmem delay hdelay
    cases event with
    | stall => cases hdelay
    | arrival delay' what =>
      obtain rfl : delay' = delay := Option.some.inj hdelay
      exact h delay' what hmem
  · intro h delay what hmem
    exact h _ hmem delay rfl

instance (events : List Event) : Decidable (DataNonempty events) :=
  decidable_of_iff _ dataNonempty_iff.symm

instance (events : List Event) : Decidable (DelaysNonneg events) :=
  decidable_of_iff _ delaysNonneg_iff.symm

/-! ### The time that is waited -/

/-- The time that is waited for so many bytes of the data that arrives. -/
def waiting : Nat → List Event → Rat
  | n + 1, .arrival delay (.data bytes) :: rest => delay + waiting (n + 1 - bytes.length) rest
  | _, _ => 0

@[simp] theorem waiting_zero (events : List Event) : waiting 0 events = 0 := by
  rw [waiting]
  exact fun n delay bytes rest h => absurd h (Nat.succ_ne_zero n).symm

theorem waiting_data {n : Nat} (hn : 0 < n) (delay : Rat) (bytes : Bytes) (rest : List Event) :
    waiting n (.arrival delay (.data bytes) :: rest) =
      delay + waiting (n - bytes.length) rest := by
  cases n with
  | zero => exact absurd hn (Nat.lt_irrefl 0)
  | succ n => rfl

/-- Nobody waits for a negative time. -/
theorem waiting_mono {events : List Event} (h : DelaysNonneg events) {n m : Nat} (hle : n ≤ m) :
    waiting n events ≤ waiting m events := by
  induction events generalizing n m with
  | nil => cases n <;> cases m <;> exact le_refl _
  | cons event rest ih =>
    have hrest : DelaysNonneg rest := fun delay what hmem =>
      h delay what (List.mem_cons_of_mem _ hmem)
    rcases Nat.eq_zero_or_pos m with rfl | hm
    · obtain rfl := Nat.le_zero.mp hle
      exact le_refl _
    cases event with
    | stall => cases n <;> cases m <;> exact le_refl _
    | arrival delay what =>
      cases what with
      | data bytes =>
        have hdelay : 0 ≤ delay := h delay _ (List.mem_cons_self ..)
        rcases Nat.eq_zero_or_pos n with rfl | hn
        · -- nothing is waited for, and a time that is not negative
          have := ih hrest (Nat.zero_le (m - bytes.length))
          rw [waiting_zero] at this ⊢
          rw [waiting_data hm]
          linarith
        · rw [waiting_data hn, waiting_data hm]
          have := ih hrest (Nat.sub_le_sub_right hle bytes.length)
          linarith
      | _ => cases n <;> cases m <;> exact le_refl _

namespace Peer

/-- **One request, where data arrives.** Either some of the data is delivered after its delay, or
the limit is over before that, and the data arrives later. -/
theorem receive_arriving {size : Nat} (hsize : 0 < size) {peer : Peer}
    (hdata : DataNonempty peer.events) (h : arriving peer.events ≠ []) (wait : Option Rat) :
    (∃ block elapsed events,
        peer.receive size wait = (.chunk block, elapsed, { peer with events }) ∧ block ≠ [] ∧
        arriving peer.events = block ++ arriving events ∧ DataNonempty events ∧
        ∀ n, 0 < n → waiting n peer.events = elapsed + waiting (n - block.length) events) ∨
      ∃ limit events, wait = some limit ∧
        peer.receive size wait = (.timedOut, limit, { peer with events }) ∧
        arriving events = arriving peer.events ∧ DataNonempty events ∧
        limit < waiting 1 peer.events := by
  obtain ⟨events, sendFaults, connectFault, shutdownFault, closeFault⟩ := peer
  cases events with
  | nil => exact absurd rfl h
  | cons event rest =>
    cases event with
    | stall => exact absurd rfl h
    | arrival delay what =>
      cases what with
      | data bytes =>
        have hbytes : bytes ≠ [] := hdata delay bytes (List.mem_cons_self ..)
        have hpos : 0 < bytes.length := List.length_pos_iff.mpr hbytes
        -- the limit decides whether the data comes in time
        by_cases hfits : fits delay wait = true
        · -- the data is in time; what does not fit into the request stays in front
          refine .inl ⟨bytes.take size, delay,
            if (bytes.drop size).isEmpty then rest
              else .arrival 0 (.data (bytes.drop size)) :: rest,
            ?_, ?_, ?_, ?_, fun n hn => ?_⟩
          · simp [receive, hfits]
          · intro hnil
            rcases List.take_eq_nil_iff.mp hnil with hzero | hempty
            · exact Nat.ne_of_gt hsize hzero
            · exact hbytes hempty
          · rw [arriving_data]
            split
            · next hleft =>
              have := List.take_append_drop size bytes
              rw [List.isEmpty_iff.mp hleft, List.append_nil] at this
              rw [this]
            · rw [arriving_data, ← List.append_assoc, List.take_append_drop]
          · split
            · exact hdata.tail
            · next hleft =>
              intro delay' bytes' hmem
              rcases List.mem_cons.mp hmem with heq | hmem
              · cases heq
                exact fun hnil => hleft (List.isEmpty_iff.mpr hnil)
              · exact hdata.tail delay' bytes' hmem
          · -- what is left of the data is there already, so it is not waited for again
            rw [waiting_data hn, List.length_take]
            congr 1
            split
            · next hleft =>
              have := congrArg List.length (List.isEmpty_iff.mp hleft)
              rw [List.length_drop, List.length_nil] at this
              rw [Nat.min_eq_right (by omega)]
            · rcases Nat.eq_zero_or_pos (n - min size bytes.length) with hzero | hmore
              · rw [hzero, waiting_zero, show n - bytes.length = 0 by omega, waiting_zero]
              · rw [waiting_data hmore, zero_add, List.length_drop]
                congr 1
                omega
        · -- the limit is over first
          obtain ⟨limit, rfl⟩ : ∃ limit, wait = some limit := by
            cases wait with
            | none => exact absurd rfl hfits
            | some limit => exact ⟨limit, rfl⟩
          have hlate : limit < delay := by simpa [fits] using hfits
          refine .inr ⟨limit, .arrival (delay - limit) (.data bytes) :: rest, rfl, ?_, rfl, ?_, ?_⟩
          · simp [receive, Bool.eq_false_iff.mpr hfits]
          · intro delay' bytes' hmem
            rcases List.mem_cons.mp hmem with heq | hmem
            · cases heq
              exact hbytes
            · exact hdata.tail delay' bytes' hmem
          · have hone : 1 - bytes.length = 0 := by omega
            rw [waiting_data Nat.one_pos, hone, waiting_zero, add_zero]
            exact hlate
      | peerClosed => exact absurd rfl h
      | failure reason => exact absurd rfl h
      | localClose => exact absurd rfl h

/-- What a request delivers is the front of the data that arrives. -/
theorem arriving_of_receive {size : Nat} {wait : Option Rat} {peer after : Peer} {elapsed : Rat}
    {block : Bytes} (h : peer.receive size wait = (.chunk block, elapsed, after))
    (hne : block ≠ []) : arriving peer.events = block ++ arriving after.events := by
  unfold receive at h
  split at h
  · cases h
    exact absurd rfl hne
  · split at h <;> cases h
  · rename_i delay what rest hevents
    split at h
    · cases h
    · cases what with
      -- the rest of the data stays in front of the later events
      | data bytes =>
        cases h
        rw [hevents, arriving_data]
        dsimp only
        split
        · next hleft =>
          have := List.take_append_drop size bytes
          rw [List.isEmpty_iff.mp hleft, List.append_nil] at this
          rw [this]
        · rw [arriving_data, ← List.append_assoc, List.take_append_drop]
      | peerClosed =>
        cases h
        exact absurd rfl hne
      | failure reason => cases h
      | localClose => cases h

end Peer

end Network

open Network (Peer arriving waiting waiting_zero DataNonempty)

namespace Stream

/-- The time that is waited for so many bytes of what is available. What waits in the buffer is not
waited for. -/
def wait (s : Stream) (n : Nat) : Rat := waiting (n - s.unread.length) s.socket.peer.events

@[simp] theorem wait_zero (s : Stream) : s.wait 0 = 0 := by
  rw [wait, Nat.zero_sub, waiting_zero]

/-- **A stream that can be read**: it is open, and data that arrives is not taken for its end. -/
structure Live (s : Stream) : Prop where
  closed_eq : s.closed = false
  readSize_pos : 0 < s.readSize
  data_nonempty : DataNonempty s.socket.peer.events

/-- **More bytes wait to be read**, and nothing else is different: what is available has not
changed, nor the moment at which any byte of it is there. -/
structure Filled (s : Stream) (env : Environment) (s' : Stream) (env' : Environment) : Prop where
  live : Live s'
  unread_ne : s'.unread ≠ []
  deadline_eq : s'.deadline = s.deadline
  available_eq : s'.available = s.available
  moment_eq : ∀ n, 0 < n → env'.clock + s'.wait n = env.clock + s.wait n

/-- **Bytes were handed over**: they stood in front of what was available, and they were waited
for. -/
structure Served (s : Stream) (env : Environment) (block : Bytes) (s' : Stream)
    (env' : Environment) : Prop where
  live : Live s'
  deadline_eq : s'.deadline = s.deadline
  available_eq : s.available = block ++ s'.available
  moment_eq : ∀ n, env'.clock + s'.wait n = env.clock + s.wait (block.length + n)

/-- **The deadline came** when some bytes had been handed over: it lies no later than the moment at
which one byte more is there. -/
structure Late (s : Stream) (env : Environment) (taken : Bytes) (s' : Stream) : Prop where
  live : Live s'
  available_eq : s.available = taken ++ s'.available
  expired : ∃ deadline, s.deadline = some deadline ∧
    ∃ n ≤ taken.length + 1, deadline ≤ env.clock + s.wait n

section Run

variable {s s' s'' : Stream} {env env' env'' : Environment} {block later : Bytes}

/-- No bytes take no time. -/
theorem Live.served_refl (h : Live s) (env : Environment) : Served s env [] s env where
  live := h
  deadline_eq := rfl
  available_eq := rfl
  moment_eq n := by rw [List.length_nil, Nat.zero_add]

/-- Bytes after bytes. -/
theorem Served.trans (h : Served s env block s' env') (h' : Served s' env' later s'' env'') :
    Served s env (block ++ later) s'' env'' where
  live := h'.live
  deadline_eq := h'.deadline_eq.trans h.deadline_eq
  available_eq := by rw [h.available_eq, h'.available_eq, List.append_assoc]
  moment_eq n := by rw [h'.moment_eq, h.moment_eq, List.length_append, Nat.add_assoc]

/-- Being late after bytes that were handed over. -/
theorem Served.late (h : Served s env block s' env') (h' : Late s' env' later s'') :
    Late s env (block ++ later) s'' where
  live := h'.live
  available_eq := by rw [h.available_eq, h'.available_eq, List.append_assoc]
  expired := by
    obtain ⟨deadline, hdeadline, n, hn, hle⟩ := h'.expired
    refine ⟨deadline, h.deadline_eq.symm.trans hdeadline, block.length + n, ?_, ?_⟩
    · rw [List.length_append]
      omega
    · rwa [h.moment_eq] at hle

/-- Asking the socket, where nothing waits in the buffer and data arrives. The limit is the time
that is left, if there is a deadline. -/
theorem Live.receive_accept (h : Live s) (hnil : s.unread = [])
    (harriving : arriving s.socket.peer.events ≠ []) (env : Environment) (limit : Option Rat)
    (hlimit : ∀ l, limit = some l → s.deadline = some (env.clock + l)) :
    (∃ s' env', (receive limit >>= accept).on s env = (.ok (), s', env') ∧
        Filled s env s' env') ∨
      ∃ fault s' env', (receive limit >>= accept).on s env = (.error (.timeout fault), s', env') ∧
        Late s env [] s' := by
  rw [Operation.on_bind, on_receive]
  rcases Peer.receive_arriving h.readSize_pos h.data_nonempty harriving limit with
    ⟨block, elapsed, events, hreceive, hblock, hsplit, hdata, hwaiting⟩ |
      ⟨limit, events, rfl, hreceive, hsame, hdata, hlate⟩
  · rw [hreceive]
    refine .inl ⟨_, _, rfl, ⟨h.closed_eq, h.readSize_pos, hdata⟩, ?_, rfl, ?_, fun n hn => ?_⟩
    · show s.unread ++ block ≠ []
      rw [hnil, List.nil_append]
      exact hblock
    · -- the block has moved from what arrives to what waits
      show s.unread ++ block ++ arriving events = s.unread ++ arriving s.socket.peer.events
      rw [hsplit, List.append_assoc]
    · -- the clock has gone on by what was waited for the block
      show env.clock + elapsed + waiting (n - (s.unread ++ block).length) events =
        env.clock + waiting (n - s.unread.length) s.socket.peer.events
      rw [hnil, List.nil_append, List.length_nil, Nat.sub_zero, hwaiting n hn, add_assoc]
  · rw [hreceive]
    refine .inr ⟨_, _, _, rfl, ⟨h.closed_eq, h.readSize_pos, hdata⟩, ?_, _, hlimit limit rfl, 1,
      Nat.le_refl _, ?_⟩
    · show s.unread ++ arriving s.socket.peer.events = [] ++ (s.unread ++ arriving events)
      rw [hsame, List.nil_append]
    · -- the limit was over before one byte came
      rw [wait, hnil, List.length_nil, Nat.sub_zero]
      linarith

/-- Getting bytes, where nothing waits in the buffer and data arrives. -/
theorem Live.on_fill (h : Live s) (hnil : s.unread = [])
    (harriving : arriving s.socket.peer.events ≠ []) (env : Environment) :
    (∃ s' env', fill.on s env = (.ok (), s', env') ∧ Filled s env s' env') ∨
      ∃ fault s' env', fill.on s env = (.error (.timeout fault), s', env') ∧ Late s env [] s' := by
  have hopen : ¬ s.closed = true := by
    rw [h.closed_eq]
    exact Bool.false_ne_true
  rw [Stream.on_fill, if_neg hopen]
  cases hdeadline : s.deadline with
  | none => exact h.receive_accept hnil harriving env none (by simp)
  | some deadline =>
    dsimp only
    by_cases hpast : deadline - env.clock ≤ 0
    · -- the deadline has come already
      rw [if_pos hpast]
      refine .inr ⟨_, _, _, rfl, h, (List.nil_append _).symm, deadline, hdeadline, 0, ?_, ?_⟩
      · exact Nat.zero_le _
      · rw [wait_zero]
        linarith
    · rw [if_neg hpast]
      -- the time left is what the deadline is ahead of the clock
      refine h.receive_accept hnil harriving env _ fun l hl => ?_
      rw [hdeadline, ← Option.some.inj hl]
      congr 1
      linarith

/-- Bytes that wait in the buffer are handed over at once. -/
theorem Live.served_take (h : Live s) (n : Nat) (env : Environment) :
    Served s env (s.unread.take n) { s with unread := s.unread.drop n } env where
  live := ⟨h.closed_eq, h.readSize_pos, h.data_nonempty⟩
  deadline_eq := rfl
  available_eq := by rw [available, available, ← List.append_assoc, List.take_append_drop]
  moment_eq m := by
    rw [wait, wait, List.length_take, List.length_drop]
    congr 2
    omega

/-- **One read** of what is available: some bytes from the front, no more than are asked for; or the
deadline comes, and nothing is taken. -/
theorem Live.on_read (h : Live s) {n : Nat} (hn : 0 < n) (hne : s.available ≠ [])
    (env : Environment) :
    (∃ block s' env', (read n).on s env = (.ok block, s', env') ∧ block ≠ [] ∧ block.length ≤ n ∧
        Served s env block s' env') ∨
      ∃ fault s' env', (read n).on s env = (.error (.timeout fault), s', env') ∧
        Late s env [] s' := by
  have htake : ∀ t : Stream, t.unread ≠ [] → t.unread.take n ≠ [] := by
    intro t ht hnil
    rcases List.take_eq_nil_iff.mp hnil with hzero | hempty
    · exact Nat.ne_of_gt hn hzero
    · exact ht hempty
  rw [Stream.on_read]
  by_cases hnil : s.unread = []
  · -- nothing waits, so what is available is what arrives
    have harriving : arriving s.socket.peer.events ≠ [] := by
      intro hno
      rw [available, hnil, hno] at hne
      exact hne rfl
    rw [if_pos (List.isEmpty_iff.mpr hnil)]
    rcases h.on_fill hnil harriving env with ⟨t, env', hfill, hfilled⟩ |
      ⟨fault, t, env', hfill, hlate⟩
    · rw [hfill]
      have hserved := hfilled.live.served_take n env'
      refine .inl ⟨_, _, _, rfl, htake t hfilled.unread_ne, List.length_take_le n _, ?_⟩
      refine ⟨hserved.live, hserved.deadline_eq.trans hfilled.deadline_eq, ?_, fun m => ?_⟩
      · rw [← hfilled.available_eq]
        exact hserved.available_eq
      · rw [hserved.moment_eq, hfilled.moment_eq]
        have := List.length_pos_iff.mpr (htake t hfilled.unread_ne)
        omega
    · rw [hfill]
      exact .inr ⟨fault, t, env', rfl, hlate⟩
  · -- bytes that wait are handed over, and the socket is not asked
    rw [if_neg fun hempty => hnil (List.isEmpty_iff.mp hempty)]
    exact .inl ⟨_, _, _, rfl, htake s hnil, List.length_take_le n _, h.served_take n env⟩

/-- **Whole runs.** A reader that is done with the bytes at the front of what is available gives its
result and leaves the rest; or the deadline comes when a part of these bytes has been taken, which
leaves the reader waiting. -/
theorem Live.run {σ α : Type} (r : Reader σ α) {state : σ} (h : Live s) (env : Environment)
    {front rest : Bytes} {result : Except Error α} (havailable : s.available = front ++ rest)
    (hscan : r.scan state front = .done result []) :
    (∃ s' env', r.run state (s, env) = (result, s', env') ∧ Served s env front s' env') ∨
      ∃ fault s' env' taken later next, r.run state (s, env) = (.error (.timeout fault), s', env') ∧
        front = taken ++ later ∧ later ≠ [] ∧ r.scan state taken = .more next ∧
        Late s env taken s' := by
  -- the induction is on the number of bytes, as each round takes some
  induction hlen : front.length using Nat.strongRecOn generalizing state s env front with
  | ind len ih =>
    subst hlen
    have hfront : front ≠ [] := by
      rintro rfl
      simp at hscan
    have hne : s.available ≠ [] := by
      rw [havailable]
      exact List.append_ne_nil_of_left_ne_nil hfront rest
    have hround := r.run_eq state (s, env)
    rcases h.on_read (r.demand_pos state) hne env with
      ⟨block, t, env₁, hread, hblock, hshort, hserved⟩ | ⟨fault, t, env₁, hread, hlate⟩
    · have hread' : ByteSource.read (r.demand state) (s, env) = (.ok block, t, env₁) := hread
      rw [hread'] at hround
      obtain ⟨b, bytes, rfl⟩ := List.exists_cons_of_ne_nil hblock
      -- the block reaches no further than the reader does
      have hsplit : ∃ later, front = b :: bytes ++ later ∧ t.available = later ++ rest := by
        rcases List.append_eq_append_iff.mp (havailable.symm.trans hserved.available_eq) with
          ⟨extra, hextra, hrest⟩ | ⟨later, hlater, hrest⟩
        · rw [hextra] at hshort
          have hdone := r.scan_append_done hscan extra
          rw [List.nil_append, ← hextra] at hdone
          have := r.eq_nil_of_scan_done (hextra ▸ hshort) hdone
          subst this
          rw [List.append_nil] at hextra
          exact ⟨[], by rw [List.append_nil, hextra], hrest.symm⟩
        · exact ⟨later, hlater, hrest⟩
      obtain ⟨later, rfl, hlater⟩ := hsplit
      simp only at hround
      cases hfirst : r.scan state (b :: bytes) with
      -- the reader is done with the block, so nothing of the front is left
      | done result' unused =>
        obtain rfl := r.eq_nil_of_scan_done hshort hfirst
        rw [r.scan_append_done hfirst later, List.nil_append, Scan.done.injEq] at hscan
        obtain ⟨rfl, rfl⟩ := hscan
        rw [hfirst] at hround
        exact .inl ⟨t, env₁, hround, by rwa [List.append_nil]⟩
      -- the reader goes on with the rest of the front, on a stream that is served so far
      | more next =>
        rw [r.scan_append hfirst later] at hscan
        rw [hfirst] at hround
        have hless : later.length < (b :: bytes ++ later).length := by
          rw [List.length_append, List.length_cons]
          omega
        rcases ih _ hless hserved.live env₁ hlater hscan rfl with ⟨s', env', hrun, hserved'⟩ |
          ⟨fault, s', env', taken, left, next', hrun, rfl, hleft, hmore, hlate⟩
        · exact .inl ⟨s', env', hround.trans hrun, hserved.trans hserved'⟩
        · refine .inr ⟨fault, s', env', b :: bytes ++ taken, left, next', hround.trans hrun, ?_,
            hleft, ?_, hserved.late hlate⟩
          · rw [List.append_assoc]
          · rw [r.scan_append hfirst taken, hmore]
    · have hread' : ByteSource.read (r.demand state) (s, env) =
          (.error (.timeout fault), t, env₁) := hread
      rw [hread'] at hround
      exact .inr ⟨fault, t, env₁, [], front, state, hround, rfl, hfront, rfl, hlate⟩

/-! ### What was read was available -/

/-- Asking the socket moves bytes into the buffer, if it gives any. -/
theorem available_of_receive_accept {limit : Option Rat}
    (h : (receive limit >>= accept).on s env = (.ok (), s', env')) (hnil : s.unread = [])
    (hne : s'.unread ≠ []) : s'.available = s.available := by
  rw [Operation.on_bind, on_receive] at h
  rcases hreceive : s.socket.peer.receive s.readSize limit with ⟨delivery, elapsed, peer⟩
  simp only [hreceive] at h
  cases delivery with
  -- the block moves from what arrives to what waits
  | chunk block =>
    cases h
    change s.unread ++ block ≠ [] at hne
    rw [hnil, List.nil_append] at hne
    show s.unread ++ block ++ arriving peer.events = s.unread ++ arriving s.socket.peer.events
    rw [Peer.arriving_of_receive hreceive hne, List.append_assoc]
  | timedOut => cases h
  | failed reason => cases h
  | stalled => cases h
  | localClose =>
    rw [on_accept_localClose] at h
    split at h <;> cases h

theorem available_of_fill (h : fill.on s env = (.ok (), s', env')) (hnil : s.unread = [])
    (hne : s'.unread ≠ []) : s'.available = s.available := by
  rw [Stream.on_fill] at h
  split at h
  · cases h
  · split at h
    · exact available_of_receive_accept h hnil hne
    · split at h
      · cases h
      · exact available_of_receive_accept h hnil hne

/-- **What a read gave was available**, and the rest still is. -/
theorem available_of_read {n : Nat} (h : (read n).on s env = (.ok block, s', env'))
    (hne : block ≠ []) : s.available = block ++ s'.available ∧ block.length ≤ n := by
  have htaken : ∀ t : Stream, t.available = t.unread.take n ++
      (t.unread.drop n ++ arriving t.socket.peer.events) := by
    intro t
    rw [available, ← List.append_assoc, List.take_append_drop]
  rw [Stream.on_read] at h
  by_cases hnil : s.unread = []
  · rw [if_pos (List.isEmpty_iff.mpr hnil)] at h
    rcases hfill : fill.on s env with ⟨e | ⟨⟩, t, env₁⟩
    · rw [hfill] at h
      cases h
    · rw [hfill] at h
      cases h
      have ht : t.unread ≠ [] := by
        intro hnone
        rw [hnone, List.take_nil] at hne
        exact hne rfl
      rw [← available_of_fill hfill hnil ht]
      exact ⟨htaken t, List.length_take_le n _⟩
  · rw [if_neg fun hempty => hnil (List.isEmpty_iff.mp hempty)] at h
    cases h
    exact ⟨htaken s, List.length_take_le n _⟩

/-- **What a reader made its value of was available**, and the rest still is. -/
theorem available_of_run {σ α : Type} (r : Reader σ α) {state : σ} {a : α}
    (h : r.run state (s, env) = (.ok a, s', env')) :
    ∃ front, s.available = front ++ s'.available ∧ r.scan state front = .done (.ok a) [] := by
  -- the induction is on the bytes that may still arrive, as each round reads some
  induction hpending : s.pending using Nat.strongRecOn generalizing state s env with
  | ind pending ih =>
    subst hpending
    have hround := r.run_eq state (s, env)
    rw [h] at hround
    rcases hread : (read (r.demand state)).on s env with ⟨e | block, t, env₁⟩
    · have hread' : ByteSource.read (r.demand state) (s, env) = (.error e, t, env₁) := hread
      rw [hread'] at hround
      cases hround
    have hread' : ByteSource.read (r.demand state) (s, env) = (.ok block, t, env₁) := hread
    rw [hread'] at hround
    cases block with
    | nil => cases hround
    | cons b bytes =>
      obtain ⟨havailable, hshort⟩ := available_of_read hread (List.cons_ne_nil b bytes)
      simp only at hround
      cases hscan : r.scan state (b :: bytes) with
      | done result unused =>
        rw [hscan] at hround
        cases hround
        obtain rfl := r.eq_nil_of_scan_done hshort hscan
        exact ⟨b :: bytes, havailable, hscan⟩
      | more next =>
        rw [hscan] at hround
        have hfewer := ByteSource.pending_read_lt (r.demand state) (s, env) b bytes
          (by rw [hread'])
        rw [hread'] at hfewer
        obtain ⟨front, hfront, hdone⟩ := ih _ hfewer hround.symm rfl
        refine ⟨b :: bytes ++ front, ?_, ?_⟩
        · rw [havailable, hfront, List.append_assoc]
        · rw [r.scan_append hscan front, hdone]

end Run

end Stream

end Stomp
