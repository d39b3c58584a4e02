import Stomp.Proofs.Connection.Accounts
import Stomp.Proofs.Connection.Session

/-!
# Every socket is released once, and in order

What was done to one socket (`Network.actsOn`) is the life of that socket. A socket that is **in
use** was neither shut down nor closed, and a socket that is **released** was in use, then shut down
and directly after that closed, and nothing was done to it since. There is nothing else: whatever
fails, no socket is shut down without being closed, or twice, or used after it was closed.

A stream is **truthful** if what it says of itself is so: its socket is released if the stream is
closed, and in use otherwise. Each step of a stream keeps it truthful and has no part in any other
socket (`Step.life`), and so does everything that a connection does with the stream that it holds.
What the connection lets go of it has closed, so of the sockets that it has held all but the present
one are released (`Tidy`).

The main statement, `released_after`, is that it is so after every history, that closing never
fails, and that opening fails only for a dial that fails.
-/

namespace Stomp

open Network (Act Entry Peer)
open Operation (Keeps Preserves after deed follows_bind follows_pure history history_cons)

namespace Network

/-- What was done to a socket, oldest first. -/
def actsOn (socket : Nat) (acts : List Entry) : List Act :=
  (acts.filter fun e => e.socket = some socket).map Entry.act

theorem actsOn_append (socket : Nat) (acts more : List Entry) :
    actsOn socket (acts ++ more) = actsOn socket acts ++ actsOn socket more := by
  rw [actsOn, List.filter_append, List.map_append]
  rfl

theorem actsOn_of_own {socket : Nat} {acts : List Entry}
    (h : ∀ e ∈ acts, e.socket = some socket) : actsOn socket acts = acts.map Entry.act := by
  rw [actsOn, List.filter_eq_self.mpr fun e he => decide_eq_true (h e he)]

theorem actsOn_of_other {socket : Nat} {acts : List Entry}
    (h : ∀ e ∈ acts, e.socket ≠ some socket) : actsOn socket acts = [] := by
  rw [actsOn, List.filter_eq_nil_iff.mpr fun e he => by simpa using h e he]
  rfl

/-- What is done to one socket is not done to another. -/
theorem actsOn_of_ne {socket other : Nat} (hne : socket ≠ other) {acts : List Entry}
    (h : ∀ e ∈ acts, e.socket = some socket) : actsOn other acts = [] :=
  actsOn_of_other fun e he hsocket => hne (Option.some.inj ((h e he).symm.trans hsocket))

/-- **A socket that is in use** was neither shut down nor closed. -/
def InUse (acts : List Act) : Prop := .shutdown ∉ acts ∧ .close ∉ acts

/-- **A socket that is released** was in use, was shut down and closed, and that is the last of
it. -/
def Released (acts : List Act) : Prop := ∃ used, InUse used ∧ acts = used ++ [.shutdown, .close]

theorem InUse.append {acts more : List Act} (h : InUse acts) (hmore : InUse more) :
    InUse (acts ++ more) := by
  unfold InUse
  rw [List.mem_append, List.mem_append, not_or, not_or]
  exact ⟨⟨h.1, hmore.1⟩, h.2, hmore.2⟩

/-- What a stream that is closed, or one that is open, says of its socket. -/
def Life (closed : Bool) (acts : List Act) : Prop := if closed then Released acts else InUse acts

theorem life_nil : Life false [] := ⟨List.not_mem_nil, List.not_mem_nil⟩

theorem Life.released {closed : Bool} {acts : List Act} (h : Life closed acts)
    (hclosed : closed = true) : Released acts := by
  rwa [Life, if_pos hclosed] at h

theorem Life.inUse_or_released {closed : Bool} {acts : List Act} (h : Life closed acts) :
    InUse acts ∨ Released acts := by
  unfold Life at h
  split at h
  · exact .inr h
  · exact .inl h

/-- An open socket can be used, and it can be released. -/
theorem Life.append {closed closed' : Bool} {acts more : List Act} (h : Life closed acts)
    (hmore : closed' = closed ∧ more = [] ∨
      closed = false ∧ closed' = false ∧ InUse more ∨
      closed = false ∧ closed' = true ∧ more = [.shutdown, .close]) :
    Life closed' (acts ++ more) := by
  -- nothing was done; or an open socket was used; or it was shut down and closed
  rcases hmore with ⟨rfl, rfl⟩ | ⟨rfl, rfl, hmore⟩ | ⟨rfl, rfl, rfl⟩
  · rwa [List.append_nil]
  · exact InUse.append h hmore
  · exact ⟨acts, h, rfl⟩

end Network

open Network (InUse Life Released actsOn)

/-- **The sockets are in order**: each is in use or released, and nothing was done to a socket that
there has not been yet. -/
structure Environment.InOrder (env : Environment) : Prop where
  past : ∀ e ∈ env.acts, ∀ n ∈ e.socket, n < env.sockets
  each : ∀ n, InUse (actsOn n env.acts) ∨ Released (actsOn n env.acts)

/-- A new socket has no past. -/
theorem Environment.InOrder.actsOn_eq_nil {env : Environment} (h : env.InOrder) {n : Nat}
    (hn : env.sockets ≤ n) : actsOn n env.acts = [] :=
  Network.actsOn_of_other fun e he hsocket => Nat.not_lt.mpr hn (h.past e he n hsocket)

/-- **A truthful stream**: there is its socket, and it is released if the stream is closed, and in
use if it is not. -/
structure Stream.Truthful (s : Stream) (env : Environment) : Prop where
  number_lt : s.socket.number < env.sockets
  life : Life s.closed (actsOn s.socket.number env.acts)

namespace Stream

/-- **What a step does to sockets**: it uses the socket of an open stream, or releases it while it
closes the stream. -/
theorem Step.life {s s' : Stream} {env env' : Environment} (h : Step (s, env) (s', env')) :
    ∃ more, env'.acts = env.acts ++ more ∧ (∀ e ∈ more, e.socket = some s.socket.number) ∧
      env'.sockets = env.sockets ∧
      (s'.closed = s.closed ∧ more.map Entry.act = [] ∨
        s.closed = false ∧ s'.closed = false ∧ InUse (more.map Entry.act) ∨
        s.closed = false ∧ s'.closed = true ∧ more.map Entry.act = [.shutdown, .close]) := by
  cases h with
  | reads h =>
    cases h with
    | buffer | limit => exact ⟨[], (List.append_nil _).symm, by simp, rfl, .inl ⟨rfl, rfl⟩⟩
    | ask s env wait hopen =>
      exact ⟨_, rfl, by simp, rfl, .inr (.inl ⟨hopen, hopen, by simp [InUse]⟩)⟩
    | shut s env hopen => exact ⟨_, rfl, by simp, rfl, .inr (.inr ⟨hopen, rfl, rfl⟩)⟩
  | writes h =>
    cases h with
    | stage => exact ⟨[], (List.append_nil _).symm, by simp, rfl, .inl ⟨rfl, rfl⟩⟩
    | send s env hopen =>
      refine ⟨_, rfl, by simp, rfl, .inr (.inl ⟨hopen, hopen, ?_⟩)⟩
      -- whether the attempt succeeds or not
      unfold sendAct
      split <;> simp [InUse]

/-- The steps of a stream have no part in the socket of another. -/
theorem keeps_truthful_of_ne (other : Stream) :
    Keeps Step fun s env => s.socket.number ≠ other.socket.number ∧ other.Truthful env := by
  rintro s env s' env' hstep ⟨hne, hnumber, hlife⟩
  obtain ⟨more, hacts, hown, hsockets, -⟩ := hstep.life
  refine ⟨hstep.number_eq ▸ hne, hsockets ▸ hnumber, ?_⟩
  rwa [hacts, Network.actsOn_append, Network.actsOn_of_ne hne hown, List.append_nil]

end Stream

/-- **Nothing is left behind**: the sockets are in order, the stream that is held is truthful, and
of the sockets that are known all others are released. -/
structure Tidy (known : Nat → Prop) (held : Option Stream) (env : Environment) : Prop where
  inOrder : env.InOrder
  truthful : ∀ s ∈ held, s.Truthful env
  released : ∀ n, known n → (∀ s ∈ held, s.socket.number ≠ n) → Released (actsOn n env.acts)

namespace Tidy

variable {known : Nat → Prop} {held : Option Stream} {s s' : Stream} {env env' : Environment}

/-- The log and the clock make no difference. -/
theorem congr (h : Tidy known held env) (hacts : env'.acts = env.acts)
    (hsockets : env'.sockets = env.sockets) : Tidy known held env' where
  inOrder := ⟨by rw [hacts, hsockets]; exact h.inOrder.past, by rw [hacts]; exact h.inOrder.each⟩
  truthful s hs := ⟨hsockets ▸ (h.truthful s hs).number_lt, hacts ▸ (h.truthful s hs).life⟩
  released n hn hother := hacts ▸ h.released n hn hother

/-- More acts on the socket that is held: it is used while it is open, or it is released. -/
theorem append (h : Tidy known (some s) env) {more : List Entry}
    (hacts : env'.acts = env.acts ++ more) (hown : ∀ e ∈ more, e.socket = some s.socket.number)
    (hsockets : env'.sockets = env.sockets) (hnumber : s'.socket.number = s.socket.number)
    (hmore : s'.closed = s.closed ∧ more.map Entry.act = [] ∨
      s.closed = false ∧ s'.closed = false ∧ InUse (more.map Entry.act) ∨
      s.closed = false ∧ s'.closed = true ∧ more.map Entry.act = [.shutdown, .close]) :
    Tidy known (some s') env' := by
  have htruthful := h.truthful s rfl
  -- the acts are those of one socket, and all others are as they were
  have hlife : Life s'.closed (actsOn s.socket.number env'.acts) := by
    rw [hacts, Network.actsOn_append, Network.actsOn_of_own hown]
    exact htruthful.life.append hmore
  have hother : ∀ n, s.socket.number ≠ n → actsOn n env'.acts = actsOn n env.acts := by
    intro n hne
    rw [hacts, Network.actsOn_append, Network.actsOn_of_ne hne hown, List.append_nil]
  refine ⟨⟨?_, fun n => ?_⟩, ?_, fun n hn hne => ?_⟩
  · -- only sockets that there are were touched
    intro e he n hsocket
    rw [hsockets]
    rw [hacts] at he
    rcases List.mem_append.mp he with he | he
    · exact h.inOrder.past e he n hsocket
    · obtain rfl : s.socket.number = n := Option.some.inj ((hown e he).symm.trans hsocket)
      exact htruthful.number_lt
  · by_cases hn : s.socket.number = n
    · subst hn
      exact hlife.inUse_or_released
    · -- what is done to the socket that is held is not done to another
      rw [hother n hn]
      exact h.inOrder.each n
  · intro t ht
    obtain rfl := Option.some.inj ht
    rw [← hnumber] at hlife
    exact ⟨by rw [hnumber, hsockets]; exact htruthful.number_lt, hlife⟩
  · have hne : s.socket.number ≠ n := hnumber ▸ hne s' rfl
    rw [hother n hne]
    refine h.released n hn fun t ht => ?_
    obtain rfl := Option.some.inj ht
    exact hne

/-- **The steps of the stream that is held leave nothing behind.** -/
theorem step (h : Tidy known (some s) env) (hstep : Stream.Step (s, env) (s', env')) :
    Tidy known (some s') env' := by
  obtain ⟨more, hacts, hown, hsockets, hmore⟩ := hstep.life
  exact h.append hacts hown hsockets hstep.number_eq hmore

/-- A closed stream can be let go of. -/
theorem release (h : Tidy known (some s) env) (hclosed : s.closed = true) :
    Tidy known none env where
  inOrder := h.inOrder
  truthful := by simp
  released n hn _ := by
    -- the socket that was held is released as the stream is closed, and the others were before
    by_cases hnumber : s.socket.number = n
    · subst hnumber
      exact (h.truthful s rfl).life.released hclosed
    · refine h.released n hn fun t ht => ?_
      obtain rfl := Option.some.inj ht
      exact hnumber

/-- A truthful stream can be taken up. -/
theorem hold (h : Tidy known none env) (hs : s.Truthful env) : Tidy known (some s) env where
  inOrder := h.inOrder
  truthful t ht := Option.some.inj ht ▸ hs
  released n hn _ := h.released n hn (by simp)

/-- There is one socket more. -/
theorem newSocket (h : Tidy known held env) :
    Tidy known held { env with sockets := env.sockets + 1 } where
  inOrder := ⟨fun e he n hn => Nat.lt_succ_of_lt (h.inOrder.past e he n hn), h.inOrder.each⟩
  truthful s hs := ⟨Nat.lt_succ_of_lt (h.truthful s hs).number_lt, (h.truthful s hs).life⟩
  released := h.released

/-- The stream of a new socket is truthful. -/
theorem truthful_newSocket (h : Tidy known held env) (peer : Peer) :
    ({ socket := ⟨env.sockets, peer⟩ } : Stream).Truthful
      { env with sockets := env.sockets + 1 } where
  number_lt := Nat.lt_succ_self _
  life := by
    -- nothing was done to it, so it is in use
    rw [h.inOrder.actsOn_eq_nil (Nat.le_refl _)]
    exact Network.life_nil

/-- A dial that fails has no socket. -/
theorem dial_failed (h : Tidy known none env) {e : Entry} (hsocket : e.socket = none)
    (hacts : env'.acts = env.acts ++ [e]) (hsockets : env'.sockets = env.sockets) :
    Tidy known none env' := by
  -- the entry of a failed dial names no socket, so no socket has it in its life
  have hsame : ∀ n, actsOn n env'.acts = actsOn n env.acts := by
    intro n
    have hnone : actsOn n [e] = [] := Network.actsOn_of_other fun e' he' => by
      rw [List.mem_singleton.mp he', hsocket]
      exact Option.some_ne_none n |>.symm
    rw [hacts, Network.actsOn_append, hnone, List.append_nil]
  refine ⟨⟨?_, fun n => ?_⟩, by simp, fun n hn hother => ?_⟩
  · intro e' he' n hn
    rw [hsockets]
    rw [hacts] at he'
    rcases List.mem_append.mp he' with he' | he'
    · exact h.inOrder.past e' he' n hn
    · rw [List.mem_singleton.mp he', hsocket] at hn
      cases hn
  · rw [hsame]
    exact h.inOrder.each n
  · rw [hsame]
    exact h.released n hn hother

end Tidy

/-! ### What a connection does -/

namespace Connection

variable {known : Nat → Prop}

/-- Nothing is left behind, where the connection holds its stream. -/
abbrev KeptTidy (known : Nat → Prop) (c : Connection) (env : Environment) : Prop :=
  Tidy known c.stream env

theorem keeps_tidy : Keeps (Step Stream.Step) (KeptTidy known) := by
  intro c env c' env' hstep h
  cases hstep with
  | stream c hheld hstep =>
    rw [KeptTidy, hheld] at h
    exact h.step hstep
  | notify c env notice => exact h.congr rfl rfl
  | buffer => exact h

/-- What is held is closed before it is let go of. -/
theorem tidy_close : Preserves (KeptTidy known) close := by
  intro c env h
  cases hstream : c.stream with
  | none => rwa [on_close_of_none hstream]
  | some s =>
    rw [KeptTidy, hstream] at h
    -- closing is a chain of steps on the stream, and at its end the stream is closed
    have hclosed := Stream.follows_close_step.preserves
      (P := fun s env => Tidy known (some s) env) (fun _ _ _ _ hstep h => h.step hstep) s env h
    rw [on_close_of_some hstream]
    exact (hclosed.release (Stream.closed_close s env)).congr rfl rfl

theorem tidy_closed {c : Connection} {env : Environment} (h : KeptTidy known c env) :
    Tidy known none (close.on c env).2.2 := by
  have hclosed := tidy_close c env h
  rwa [KeptTidy, (on_close c env).2] at hclosed

theorem tidy_dial (peer : Peer) (host : Text) (port : Int) (timeout : Option Seconds) :
    Preserves (KeptTidy known) (dial peer host port timeout) := by
  intro c env h
  have hclosed := tidy_closed h
  cases hfault : peer.connectFault with
  | some reason =>
    rw [on_dial_of_fault hfault, KeptTidy, (on_close c env).2]
    exact hclosed.dial_failed rfl rfl rfl
  | none =>
    rw [on_dial_of_none hfault]
    -- the socket is new, and the dial is the first use of it
    have hheld := hclosed.newSocket.hold (hclosed.truthful_newSocket peer)
    exact hheld.append rfl (by simp) rfl rfl (.inr (.inl ⟨rfl, rfl, by simp [InUse]⟩))

/-- A stream can be adopted if it is truthful once what is held has been closed. -/
theorem tidy_adopt {s : Stream} {c : Connection} {env : Environment}
    (hs : s.Truthful (close.on c env).2.2) (h : KeptTidy known c env) :
    KeptTidy known ((adopt s).on c env).2.1 ((adopt s).on c env).2.2 := by
  rw [on_adopt]
  exact (tidy_closed h).hold hs

/-- Closing has no part in the socket of a stream other than the one that is held. -/
theorem truthful_close {s : Stream} {c : Connection} {env : Environment}
    (hother : ∀ t ∈ c.stream, t.socket.number ≠ s.socket.number) (hs : s.Truthful env) :
    s.Truthful (close.on c env).2.2 := by
  cases hstream : c.stream with
  | none => rwa [on_close_of_none hstream]
  | some t =>
    -- the steps by which the held stream is closed touch its own socket only
    have hkept := Stream.follows_close_step.preserves (Stream.keeps_truthful_of_ne s) t env
      ⟨hother t hstream, hs⟩
    rw [on_close_of_some hstream]
    exact ⟨hkept.2.number_lt, hkept.2.life⟩

theorem tidy_adoptSocket (peer : Peer) :
    Preserves (KeptTidy known) (adoptSocket peer) := by
  intro c env h
  rw [on_adoptSocket]
  refine tidy_adopt (truthful_close ?_ (h.truthful_newSocket peer)) h.newSocket
  -- the new socket has a number that no socket had
  intro t ht
  exact Nat.ne_of_lt (h.truthful t ht).number_lt

theorem tidy_asDone {op : Operation Connection Unit} {c : Connection} {env : Environment}
    (h : KeptTidy known (op.on c env).2.1 (op.on c env).2.2) :
    KeptTidy known ((asDone op).on c env).2.1 ((asDone op).on c env).2.2 := by
  rwa [on_asDone]

/-- **No action leaves anything behind**, if a stream that it adopts is truthful. -/
theorem tidy_operation {action : Action} {c : Connection} {env : Environment}
    (hadopted : ∀ s, action = .adoptStream s → s.Truthful (close.on c env).2.2)
    (h : KeptTidy known c env) :
    KeptTidy known (action.operation.on c env).2.1 (action.operation.on c env).2.2 := by
  -- most actions only work on the stream that is held
  have hreads : ∀ {op : Operation Connection Outcome},
      Operation.Follows (Step Stream.Reads) op →
      KeptTidy known (op.on c env).2.1 (op.on c env).2.2 := fun hop =>
    (hop.mono fun _ _ => .mono fun _ _ => .reads).preserves keeps_tidy c env h
  have hwrites : ∀ {op : Operation Connection Outcome},
      Operation.Follows (Step Stream.Writes) op →
      KeptTidy known (op.on c env).2.1 (op.on c env).2.2 := fun hop =>
    (hop.mono fun _ _ => .mono fun _ _ => .writes).preserves keeps_tidy c env h
  cases action with
  | dial peer host port timeout => exact tidy_asDone (tidy_dial peer host port timeout c env h)
  | adopt peer => exact tidy_asDone (tidy_adoptSocket peer c env h)
  | adoptStream s => exact tidy_asDone (tidy_adopt (hadopted s rfl) h)
  | close => exact tidy_asDone (tidy_close c env h)
  | closeStream => exact hreads (follows_asDone follows_closeStream)
  | request r =>
    exact tidy_asDone (preserves_request keeps_tidy (fun _ _ _ _ h => h) r c env h)
  | sendBytes destination data transaction headers =>
    exact hwrites (follows_asDone (follows_sendBytes _ _ _ _))
  | sendText text bytes => exact hwrites (follows_asDone (follows_sendText _ _))
  | keepAlive => exact hwrites (follows_asDone follows_keepAlive)
  | receive timeout => exact hreads (follows_bind (follows_receive timeout) fun _ => follows_pure _)
  | receiveText timeout =>
    exact hreads (follows_bind (follows_receiveText timeout) fun _ => follows_pure _)

/-! ### Every history -/

/-- Each stream that is adopted in the course of some actions is truthful when it is taken up: two
streams on one socket, or a closed stream that is passed off as open, would release it twice. -/
def AdoptsTruthful : List Action → Connection → Environment → Prop
  | [], _, _ => True
  | action :: later, c, env =>
    (∀ s, action = .adoptStream s → s.Truthful (close.on c env).2.2) ∧
      AdoptsTruthful later (action.operation.on c env).2.1 (action.operation.on c env).2.2

/-- There is nothing to ask for if connections are opened on new sockets only. -/
theorem adoptsTruthful_of_not_mem {actions : List Action}
    (h : ∀ s, Action.adoptStream s ∉ actions) (c : Connection) (env : Environment) :
    AdoptsTruthful actions c env := by
  induction actions generalizing c env with
  | nil => trivial
  | cons action actions ih =>
    refine ⟨?_, ih (fun s hs => h s (List.mem_cons_of_mem _ hs)) _ _⟩
    rintro s rfl
    exact absurd (List.mem_cons_self ..) (h s)

theorem adoptsTruthful_append {earlier later : List Action} {c : Connection} {env : Environment} :
    AdoptsTruthful (earlier ++ later) c env ↔
      AdoptsTruthful earlier c env ∧
        AdoptsTruthful later (after Action.operation earlier c env).1
          (after Action.operation earlier c env).2 := by
  induction earlier generalizing c env with
  | nil => exact (and_iff_right trivial).symm
  | cons action earlier ih => exact (and_congr_right fun _ => ih).trans and_assoc.symm

theorem tidy_after {actions : List Action} {c : Connection} {env : Environment}
    (hadopted : AdoptsTruthful actions c env) (h : KeptTidy known c env) :
    KeptTidy known (after Action.operation actions c env).1
      (after Action.operation actions c env).2 := by
  induction actions generalizing c env with
  | nil => exact h
  -- what is asked of adopted streams is asked at the moment at which each is taken up
  | cons action actions ih => exact ih hadopted.2 (tidy_operation hadopted.1 h)

/-- Closing succeeds, and opening does unless it is a dial that fails. -/
theorem outcome_of_opens (action : Action) (c : Connection) (env : Environment) :
    (action = .close → (action.operation.on c env).1 = .ok .done) ∧
      (action.opens → (action.operation.on c env).1 = .ok .done ∨
        ∃ peer host port timeout reason, action = .dial peer host port timeout ∧
          peer.connectFault = some reason ∧
          (action.operation.on c env).1 =
            .error (.connection (.dialFailed host port reason))) := by
  cases action with
  | close =>
    refine ⟨fun _ => ?_, fun h => by cases h⟩
    rw [Action.operation, on_asDone, (on_close c env).1]
    rfl
  | adopt peer =>
    refine ⟨Action.noConfusion, fun _ => .inl ?_⟩
    rw [Action.operation, on_asDone, on_adoptSocket, on_adopt]
    rfl
  | adoptStream s =>
    refine ⟨Action.noConfusion, fun _ => .inl ?_⟩
    rw [Action.operation, on_asDone, on_adopt]
    rfl
  | dial peer host port timeout =>
    refine ⟨Action.noConfusion, fun _ => ?_⟩
    rw [Action.operation, on_asDone]
    cases hfault : peer.connectFault with
    | none =>
      rw [on_dial_of_none hfault]
      exact .inl rfl
    | some reason =>
      rw [on_dial_of_fault hfault]
      exact .inr ⟨peer, host, port, timeout, reason, rfl, hfault, rfl⟩
  | _ => exact ⟨Action.noConfusion, fun h => by cases h⟩

theorem exists_of_mem_history {actions : List Action} {d : Deed Action Outcome} {c : Connection}
    {env : Environment} (h : d ∈ history Action.operation actions c env) :
    ∃ c' env', d = deed Action.operation d.asked c' env' := by
  induction actions generalizing c env with
  | nil => cases h
  | cons action actions ih =>
    rw [history_cons] at h
    rcases List.mem_cons.mp h with rfl | h
    · exact ⟨c, env, rfl⟩
    · exact ih h

/-- **Every socket is released once, and in order.** Whatever is done with a connection, and
whatever fails in it, each socket is either in use, neither shut down nor closed, or it was used and
then shut down and closed, once and with nothing done to it since. A socket that was held at some
time and is held no longer is released. Closing never fails, and opening fails only if it is a dial
and the dial fails. Only a stream that was set up elsewhere has to be truthful when it is
adopted. -/
theorem released_after (first : Text) {env : Environment} (henv : env.InOrder)
    {actions : List Action} (hadopted : AdoptsTruthful actions { version := first } env) :
    let last := after Action.operation actions { version := first } env
    (∀ n, InUse (actsOn n last.2.acts) ∨ Released (actsOn n last.2.acts)) ∧
      (∀ earlier later, actions = earlier ++ later →
        ∀ s ∈ (after Action.operation earlier { version := first } env).1.stream,
          (∀ t ∈ last.1.stream, t.socket.number ≠ s.socket.number) →
          Released (actsOn s.socket.number last.2.acts)) ∧
      ∀ d ∈ history Action.operation actions { version := first } env,
        (d.asked = .close → d.outcome = .ok .done) ∧
          (d.asked.opens → d.outcome = .ok .done ∨
            ∃ peer host port timeout reason, d.asked = .dial peer host port timeout ∧
              peer.connectFault = some reason ∧
              d.outcome = .error (.connection (.dialFailed host port reason))) := by
  intro last
  have hstart : KeptTidy (fun _ => False) { version := first } env :=
    ⟨henv, fun s hs => (Option.not_mem_none s hs).elim, fun _ hn => hn.elim⟩
  refine ⟨(tidy_after hadopted hstart).inOrder.each, ?_, fun d hd => ?_⟩
  · -- the run is parted at the moment at which the socket was held
    rintro earlier later rfl s hs hother
    obtain ⟨hearlier, hlater⟩ := adoptsTruthful_append.mp hadopted
    have hmiddle := tidy_after hearlier hstart
    -- from then on the socket that is held is known
    have hknown : KeptTidy (· = s.socket.number)
        (after Action.operation earlier { version := first } env).1
        (after Action.operation earlier { version := first } env).2 :=
      ⟨hmiddle.inOrder, hmiddle.truthful, fun n hn hne => (hne s hs hn.symm).elim⟩
    have hlast := tidy_after hlater hknown
    rw [← Operation.after_append] at hlast
    exact hlast.released s.socket.number rfl hother
  · obtain ⟨c, env', hdeed⟩ := exists_of_mem_history hd
    have houtcome := congrArg Deed.outcome hdeed
    rw [houtcome]
    exact outcome_of_opens d.asked c env'

/-- A stream on the first socket, which can be neither shut down nor closed without a fault. -/
def stubborn : Stream :=
  { socket := ⟨0, { shutdownFault := some "busy", closeFault := some "broken" }⟩ }

/-- It is closed behind the back of the connection, which then cannot reach a host, and goes on with
a new socket that it closes twice. -/
def restless : List Action :=
  [.adoptStream stubborn, .keepAlive, .closeStream,
    .dial { connectFault := some "refused" } "a" 1 none, .adopt {}, .close, .close]

theorem released_after_restless :
    ({ sockets := 1 } : Environment).InOrder ∧ AdoptsTruthful restless {} { sockets := 1 } ∧
      let last := after Action.operation restless {} { sockets := 1 }
      actsOn 0 last.2.acts = [.send [10], .shutdown, .close] ∧ Released (actsOn 0 last.2.acts) ∧
        Released (actsOn 1 last.2.acts) := by
  have henv : ({ sockets := 1 } : Environment).InOrder := ⟨by simp, fun _ => .inl Network.life_nil⟩
  have hadopted : AdoptsTruthful restless {} { sockets := 1 } := by
    refine ⟨fun s hs => ?_, adoptsTruthful_of_not_mem (by simp) _ _⟩
    obtain rfl := Action.adoptStream.inj hs
    exact ⟨Nat.zero_lt_one, Network.life_nil⟩
  obtain ⟨-, hheld, -⟩ := released_after defaultVersion henv hadopted
  have hlast : (after Action.operation restless {} { sockets := 1 }).1.stream = none := by
    decide +kernel
  have hnone : ∀ n, ∀ t ∈ (after Action.operation restless {} { sockets := 1 }).1.stream,
      t.socket.number ≠ n := by simp [hlast]
  -- the one socket was held after the first action, the other after the fifth
  refine ⟨henv, hadopted, by decide +kernel, ?_, ?_⟩
  · exact hheld (restless.take 1) (restless.drop 1) (List.take_append_drop ..).symm stubborn
      (by decide +kernel) (hnone 0)
  · exact hheld (restless.take 5) (restless.drop 5) (List.take_append_drop ..).symm
      { socket := ⟨1, {}⟩ } (by decide +kernel) (hnone 1)

end Connection

end Stomp
