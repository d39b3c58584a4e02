import Stomp.Proofs.Connection.Steps

/-!
# Every socket is closed once

The **accounts** of a connection are in order if each socket that was dialled has been closed
exactly once, except for the one that the connection holds, which has been closed once if its
stream is closed and not at all otherwise (`Accounts`). The numbers of sockets grow, so a socket
that is dialled is a new one and nothing has been done to it.

The steps of a stream keep the accounts in order (`keeps_accounts`): only `Reads.shut` closes the
socket, and it does so on an open stream. So do dialling and closing, and all that a connection does
on the stream that it holds (`accounts_dial`, `accounts_close`, `accounts_request`).
-/

namespace Stomp

open Network (Entry Peer)
open Operation (Follows Keeps Preserves)

namespace Network

/-- The sockets that were dialled. -/
def dialled (acts : List Entry) : List Nat :=
  acts.filterMap fun e =>
    match e.act with
    | .dial .. => e.socket
    | _ => none

/-- How often a socket was closed. -/
def closes (socket : Nat) (acts : List Entry) : Nat :=
  acts.countP fun e => e.socket = some socket ∧ e.act = .close

theorem dialled_append (acts more : List Entry) :
    dialled (acts ++ more) = dialled acts ++ dialled more :=
  List.filterMap_append

theorem closes_append (socket : Nat) (acts more : List Entry) :
    closes socket (acts ++ more) = closes socket acts + closes socket more :=
  List.countP_append

/-- A socket to which nothing was done was not closed. -/
theorem closes_eq_zero {socket : Nat} {acts : List Entry}
    (h : ∀ e ∈ acts, e.socket ≠ some socket) : closes socket acts = 0 := by
  refine List.countP_eq_zero.mpr fun e he => ?_
  simp [h e he]

end Network

open Network (closes dialled)

/-- **The accounts are in order**: of the sockets that were dialled, all but the one that is held
have been closed once. -/
structure Accounts (held : Option Stream) (env : Environment) : Prop where
  /-- Nothing was done to a socket that there has not been yet. -/
  past : ∀ e ∈ env.acts, ∀ n ∈ e.socket, n < env.sockets
  own_dialled : ∀ s ∈ held, s.socket.number ∈ dialled env.acts
  own_closes : ∀ s ∈ held, closes s.socket.number env.acts = if s.closed then 1 else 0
  released : ∀ n ∈ dialled env.acts, (∀ s ∈ held, s.socket.number ≠ n) →
    closes n env.acts = 1

theorem accounts_empty : Accounts none {} where
  past := by simp
  own_dialled := by simp
  own_closes := by simp
  released := by simp [Network.dialled]

namespace Accounts

/-- What is dialled was there. -/
theorem number_lt {s : Stream} {env : Environment} (h : Accounts (some s) env) :
    s.socket.number < env.sockets := by
  obtain ⟨e, he, hsocket⟩ := List.mem_filterMap.mp (h.own_dialled s rfl)
  refine h.past e he _ ?_
  -- of all acts only a dial puts a socket among those that were dialled
  cases hact : e.act with
  | dial => rwa [hact] at hsocket
  | _ => rw [hact] at hsocket; cases hsocket

/-- More acts on the socket that is held, none of them a dial, if what they close is what is closed
of the stream. -/
theorem append {s s' : Stream} {env env' : Environment} (h : Accounts (some s) env)
    {more : List Entry} (hacts : env'.acts = env.acts ++ more)
    (hsockets : env'.sockets = env.sockets)
    (hnumber : s'.socket.number = s.socket.number)
    (hown : ∀ e ∈ more, e.socket = some s.socket.number) (hdial : Network.dialled more = [])
    (hcloses : (if s'.closed then 1 else 0) =
      (if s.closed then 1 else 0) + closes s.socket.number more) :
    Accounts (some s') env' where
  past e he n hn := by
    rw [hsockets]
    rw [hacts] at he
    rcases List.mem_append.mp he with he | he
    · exact h.past e he n hn
    · rw [hown e he] at hn
      obtain rfl := Option.some.inj hn
      exact h.number_lt
  own_dialled s'' hs'' := by
    obtain rfl := Option.some.inj hs''
    rw [hacts, Network.dialled_append, hnumber]
    exact List.mem_append_left _ (h.own_dialled s rfl)
  own_closes s'' hs'' := by
    obtain rfl := Option.some.inj hs''
    rw [hacts, Network.closes_append, hnumber, h.own_closes s rfl, hcloses]
  released n hn hother := by
    rw [hacts, Network.dialled_append, hdial, List.append_nil] at hn
    -- a socket that was let go of is none that is held now, so nothing more was done to it
    have hne : s.socket.number ≠ n := hnumber ▸ hother s' rfl
    have hzero : closes n more = 0 := by
      refine Network.closes_eq_zero fun e he => ?_
      rw [hown e he]
      exact fun heq => hne (Option.some.inj heq)
    rw [hacts, Network.closes_append, hzero, Nat.add_zero]
    refine h.released n hn fun s'' hs'' => ?_
    obtain rfl := Option.some.inj hs''
    exact hne

/-- A closed stream can be let go of. -/
theorem release {s : Stream} {env : Environment} (h : Accounts (some s) env)
    (hclosed : s.closed = true) : Accounts none env where
  past := h.past
  own_dialled := by simp
  own_closes := by simp
  released n hn _ := by
    -- the socket that was held is closed already, as its stream is
    by_cases hnumber : s.socket.number = n
    · have hheld := h.own_closes s rfl
      rwa [hnumber, if_pos hclosed] at hheld
    · refine h.released n hn fun s' hs' => ?_
      obtain rfl := Option.some.inj hs'
      exact hnumber

/-- A dial that fails has no socket. -/
theorem dial_failed {env env' : Environment} (h : Accounts none env) {time : Rat} {host : Text}
    {port : Int} {timeout : Option Seconds} (hsockets : env'.sockets = env.sockets)
    (hacts : env'.acts = env.acts ++ [⟨time, none, .dial host port timeout⟩]) :
    Accounts none env' where
  past e he n hn := by
    rw [hsockets]
    rw [hacts] at he
    rcases List.mem_append.mp he with he | he
    · exact h.past e he n hn
    · obtain rfl := List.mem_singleton.mp he
      cases hn
  own_dialled := by simp
  own_closes := by simp
  released n hn hother := by
    rw [hacts, Network.dialled_append] at hn
    rw [hacts, Network.closes_append, h.released n (by simpa [Network.dialled] using hn) hother]
    rfl

/-- A dial that succeeds has a new socket. -/
theorem dial {env env' : Environment} (h : Accounts none env) {time : Rat} {host : Text}
    {port : Int} {timeout : Option Seconds} (hsockets : env'.sockets = env.sockets + 1)
    (hacts : env'.acts = env.acts ++ [⟨time, some env.sockets, .dial host port timeout⟩])
    (peer : Peer) : Accounts (some { socket := ⟨env.sockets, peer⟩ }) env' where
  past e he n hn := by
    rw [hacts] at he
    rcases List.mem_append.mp he with he | he
    · have := h.past e he n hn
      omega
    · obtain rfl := List.mem_singleton.mp he
      obtain rfl := Option.some.inj hn
      omega
  own_dialled s hs := by
    obtain rfl := Option.some.inj hs
    rw [hacts, Network.dialled_append]
    exact List.mem_append_right _ (List.mem_singleton_self _)
  own_closes s hs := by
    obtain rfl := Option.some.inj hs
    -- the number is new, so the socket was not closed before
    have hnew : ∀ e ∈ env.acts, e.socket ≠ some env.sockets := fun e he hsocket =>
      absurd (h.past e he _ hsocket) (Nat.lt_irrefl _)
    rw [hacts, Network.closes_append, Network.closes_eq_zero hnew]
    simp [Network.closes]
  released n hn hother := by
    rw [hacts, Network.dialled_append] at hn
    have hne : env.sockets ≠ n := hother _ rfl
    -- a socket that was dialled before is closed as before; the new one is held
    rcases List.mem_append.mp hn with hn | hn
    · rw [hacts, Network.closes_append, h.released n hn (by simp)]
      simp [Network.closes]
    · exact absurd (List.mem_singleton.mp hn).symm hne

end Accounts

/-! ### Streams -/

namespace Stream

/-- **The steps of a stream keep the accounts in order.** -/
theorem keeps_accounts : Keeps Step fun s env => Accounts (some s) env := by
  intro s env s' env' hstep h
  cases hstep with
  | reads hreads =>
    cases hreads with
    | buffer | limit =>
      exact h.append (List.append_nil _).symm rfl rfl (by simp) rfl (by simp [Network.closes])
    | ask => exact h.append rfl rfl rfl (by simp) rfl (by simp [Network.closes])
    -- the one step that closes the socket, and the stream was open before it
    | shut s env hopen =>
      refine h.append rfl rfl rfl (by simp) rfl ?_
      simp [Network.closes, hopen]
  | writes hwrites =>
    cases hwrites with
    | stage =>
      exact h.append (List.append_nil _).symm rfl rfl (by simp) rfl (by simp [Network.closes])
    | send s env hopen =>
      -- whether it is sent or not, an attempt to send neither dials nor closes
      refine h.append rfl rfl rfl (by simp) ?_ ?_
      · rw [sendAct]
        cases s.socket.peer.send.1 <;> rfl
      · rw [sendAct]
        cases s.socket.peer.send.1 <;> simp [Network.closes]

/-- A stream that was closed is closed. -/
theorem closed_close (s : Stream) (env : Environment) : (close.on s env).2.1.closed = true := by
  rw [close, Operation.on_bind, on_shut]
  by_cases hclosed : s.closed = true
  · rw [if_pos hclosed]
    exact hclosed
  · rw [if_neg hclosed]
    dsimp only
    cases s.socket.peer.closeFault <;> rfl

theorem follows_close_step : Follows Step close := follows_close.mono fun _ _ => .reads

end Stream

/-! ### Connections -/

namespace Connection

/-- The accounts of a connection are in order. -/
abbrev Accounted (c : Connection) (env : Environment) : Prop := Accounts c.stream env

theorem accounts_notices {held : Option Stream} {env : Environment} (h : Accounts held env)
    (notices : List Notice) : Accounts held { env with notices } :=
  ⟨h.past, h.own_dialled, h.own_closes, h.released⟩

theorem keeps_accounted : Keeps (Step Stream.Step) Accounted := by
  intro c env c' env' hstep h
  cases hstep with
  | stream c hheld hstep =>
    rw [Accounted, hheld] at h
    exact Stream.keeps_accounts hstep h
  | notify c env notice => exact accounts_notices h _
  | buffer => exact h

theorem keeps_acts (before : List Entry) :
    Keeps (Step Stream.Step) fun _ env => before <+: env.acts := by
  intro c env c' env' hstep h
  cases hstep with
  | stream c hheld hstep => exact Stream.keeps_acts before hstep h
  | notify | buffer => exact h

theorem accounts_close : Preserves Accounted close := by
  intro c env h
  cases hstream : c.stream with
  | none => rwa [on_close_of_none hstream]
  | some s =>
    rw [on_close_of_some hstream]
    rw [Accounted, hstream] at h
    -- closing is a chain of steps, at the end of which the stream is closed and can be let go of
    have hclosed := Stream.follows_close_step.preserves Stream.keeps_accounts s env h
    exact accounts_notices (hclosed.release (Stream.closed_close s env)) _

theorem accounts_dial (peer : Peer) (host : Text) (port : Int) (timeout : Option Seconds) :
    Preserves Accounted (dial peer host port timeout) := by
  intro c env h
  -- the stream that was held is closed first, so no stream is held when the host is dialled
  have hclosed := accounts_close c env h
  rw [Accounted, (on_close c env).2] at hclosed
  cases hfault : peer.connectFault with
  | some reason =>
    rw [on_dial_of_fault hfault, Accounted, (on_close c env).2]
    exact hclosed.dial_failed rfl rfl
  | none =>
    rw [on_dial_of_none hfault]
    exact hclosed.dial rfl rfl peer

theorem accounts_receive (timeout : Option Rat) : Preserves Accounted (receive timeout) :=
  ((follows_receive timeout).mono fun _ _ => .mono fun _ _ => .reads).preserves keeps_accounted

theorem accounts_request (r : Request) : Preserves Accounted (request r) :=
  preserves_request keeps_accounted (fun _ _ _ _ h => h) r

end Connection

end Stomp
