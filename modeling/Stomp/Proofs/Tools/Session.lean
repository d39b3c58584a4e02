import Mathlib.Data.List.Induction
import Stomp.Proofs.Connection.Accounts
import Stomp.Proofs.Connection.Session
import Stomp.Tools.Call

/-!
# What the tools share

The tools are **outside** a session, or in one whose connection is open and accepted, by the broker
of the last call that began a session. Whatever becomes of a call, it leaves them in one of the two
situations, and every socket that was ever dialled has been closed once, except for the one of the
session (`Situated`).

* `follows_call` — every call but `connect` and `disconnect` only takes steps on the connection of
  the session, and those leave all that can be seen of it (`Session.face`);
* `connect_cases`, `on_disconnect_of_some` — what the two others do;
* `enter_cases` — a connection that is not accepted has been closed again;
* `situations_after` — the situation after every history of calls, and what the next call does.
-/

namespace Stomp

open Network (Peer)
open Operation (Follows Keeps Preserves after after_concat deed follows_attempt follows_bind
  follows_ite follows_ofExcept follows_pure follows_subject follows_throw history history_concat
  preserves_attempt preserves_bind preserves_ite preserves_pure preserves_subject preserves_throw)

/-- What can be seen of a session: the broker, the socket, and the state of the connection. -/
structure Face where
  broker : Broker
  socket : Option Nat
  isOpen : Bool
  connected : Bool
  version : Text
deriving DecidableEq, Repr

/-- The session as it is seen. -/
def Session.face (s : Session) : Face where
  broker := s.broker
  socket := s.connection.stream.map (·.socket.number)
  isOpen := s.connection.isOpen
  connected := s.connection.connected
  version := s.connection.version

namespace Tools

/-- The stream of the session, if there is one. -/
def stream? (t : Tools) : Option Stream := t.session.bind (·.connection.stream)

/-- One step on the connection of the session. -/
inductive Step : Tools × Environment → Tools × Environment → Prop
  | connection (session : Session) {c : Connection} {env env' : Environment}
    (h : Connection.Step Stream.Step (session.connection, env) (c, env')) :
    Step ({ session := some session }, env) ({ session := some ⟨c, session.broker⟩ }, env')

/-- **A step leaves all that can be seen of the session.** -/
theorem keeps_face (face? : Option Face) :
    Keeps Step fun t _ => t.session.map Session.face = face? := by
  intro t env t' env' hstep h
  cases hstep with
  | connection session hstep =>
    rw [← h]
    refine congrArg some ?_
    obtain ⟨hopen, hconnected, hversion⟩ := Connection.keeps_session session.connection.isOpen
      session.connection.connected session.connection.version hstep ⟨rfl, rfl, rfl⟩
    rw [Session.face, Session.face, hopen, hconnected, hversion]
    congr 1
    -- the stream may change, but its socket stays
    obtain ⟨c, broker⟩ := session
    dsimp only at hstep ⊢
    cases hstep with
    | stream c hheld hstep =>
      rw [hheld]
      exact congrArg some hstep.number_eq
    | notify | buffer => rfl

theorem keeps_accounts : Keeps Step fun t env => Accounts t.stream? env := by
  intro t env t' env' hstep h
  cases hstep with
  | connection session hstep => exact Connection.keeps_accounted hstep h

/-! ### Calls on the session -/

theorem follows_onSession {α : Type} {otherwise : Operation Tools α} {op : Operation Connection α}
    (hotherwise : Follows Step otherwise) (hop : Follows (Connection.Step Stream.Step) op) :
    Follows Step (onSession otherwise op) := by
  intro t env
  obtain ⟨_ | session⟩ := t
  · rw [on_onSession_of_none rfl]
    exact hotherwise _ env
  · -- what follows is on the connection, and the broker stays beside it
    rw [on_onSession_of_some rfl]
    exact Relation.ReflTransGen.lift
      (fun x : Connection × Environment =>
        (({ session := some ⟨x.1, session.broker⟩ } : Tools), x.2))
      (fun x y h => .connection ⟨x.1, session.broker⟩ h) _ _ (hop session.connection env)

theorem follows_onConnection {α : Type} {op : Operation Connection α}
    (hop : Follows (Connection.Step Stream.Step) op) : Follows Step (onConnection op) := by
  refine follows_bind follows_subject fun t => ?_
  cases t.session with
  | none => exact follows_throw _
  | some session =>
    exact follows_ite (follows_onSession (follows_throw _) hop) (follows_throw _)

theorem follows_request {r : Request} (henters : r.enters = false) (hleaves : r.leaves = false) :
    Follows Step (request r) := by
  refine follows_onConnection ?_
  exact (Connection.follows_request henters hleaves).mono fun _ _ => .mono fun _ _ => .writes

theorem follows_unlessTimeout (timeout : Option Seconds) (outcome : Except Error Answer) :
    Follows Step (unlessTimeout timeout outcome) := by
  unfold unlessTimeout
  split
  · exact follows_pure _
  · exact follows_ofExcept _

/-- A call that neither begins nor ends a session. -/
def Call.quiet : Call → Bool
  | connect .. | disconnect _ => false
  | _ => true

/-- **A quiet call only takes steps on the connection of the session.** -/
theorem follows_call {call : Call} (h : call.quiet) : Follows Step call.operation := by
  -- the steps of reading are among all those of a stream
  have hreads : ∀ {α : Type} {op : Operation Connection α},
      Follows (Connection.Step Stream.Reads) op → Follows (Connection.Step Stream.Step) op :=
    fun hop => hop.mono fun _ _ => .mono fun _ _ => .reads
  cases call with
  | connect | disconnect => cases h
  | send destination body transaction headers =>
    refine follows_bind (follows_request rfl rfl) fun _ => ?_
    exact follows_bind (follows_ofExcept _) fun _ => follows_pure _
  | subscribe destination mode headers =>
    cases mode with
    | none => exact follows_bind (follows_request rfl rfl) fun _ => follows_pure _
    | some m =>
      -- a mode that is not known is answered before anything is sent
      have hsent : Follows Step (do
          request (.subscribe destination (some m) headers)
          return Answer.subscribed destination m) :=
        follows_bind (follows_request rfl rfl) fun _ => follows_pure _
      exact follows_ite (follows_pure _) hsent
  | unsubscribe | ack | nack | begin | commit | abort =>
    exact follows_bind (follows_request rfl rfl) fun _ => follows_pure _
  | receive timeout =>
    refine follows_bind (follows_attempt (follows_onConnection ?_)) fun _ =>
      follows_unlessTimeout _ _
    exact hreads (Connection.follows_receive _)
  | receiveRaw timeout =>
    refine follows_bind (follows_attempt (follows_onConnection ?_)) fun _ =>
      follows_unlessTimeout _ _
    exact hreads (Connection.follows_receiveText _)
  | keepAlive =>
    refine follows_bind (follows_onConnection ?_) fun _ => follows_pure _
    exact Connection.follows_keepAlive.mono fun _ _ => .mono fun _ _ => .writes
  | status => exact follows_bind follows_subject fun _ => follows_pure _
  | commands => exact follows_pure _

/-! ### Beginning a session -/

/-- Has a connection accepted, or closes it. -/
def introduce (r : Request) : Operation Connection Unit := do
  match ← Operation.attempt (Connection.request r) with
  | .ok () => pure ()
  | .error e =>
    Connection.close
    throw e

theorem on_introduce (r : Request) (c : Connection) (env : Environment) :
    (introduce r).on c env =
      match (Connection.request r).on c env with
      | (.ok (), c', env') => (.ok (), c', env')
      | (.error e, c', env') => (.error e, (Connection.close.on c' env').2) := by
  rw [introduce, Operation.on_bind, Operation.on_attempt]
  -- what it gives is decided by the request; closing never fails
  rcases (Connection.request r).on c env with ⟨e | ⟨⟩, c', env'⟩
  · dsimp only
    rw [Operation.on_bind, Connection.on_close_eq_ok]
    rfl
  · rfl

/-- A connection that is not accepted has been closed again, and one that is accepted is open. -/
theorem introduce_cases {r : Request} (hr : r.enters = true) {c : Connection} {env : Environment}
    (h : Accounts c.stream env) :
    (∃ e c' env', (introduce r).on c env = (.error e, c', env') ∧ Accounts none env') ∨
      ∃ c' env', (introduce r).on c env = (.ok (), c', env') ∧ c'.isOpen ∧ c'.connected ∧
        Accounts c'.stream env' ∧ env.acts <+: env'.acts := by
  have haccounts := Connection.accounts_request r c env h
  have hacts := Connection.preserves_request (Connection.keeps_acts env.acts)
    (fun _ _ _ _ h => h) r c env List.prefix_rfl
  rw [on_introduce]
  rcases hrequest : (Connection.request r).on c env with ⟨e | ⟨⟩, c', env'⟩
  · -- refused: the connection is closed, so nothing is held any more
    rw [hrequest] at haccounts
    have hclosed := Connection.accounts_close c' env' haccounts
    rw [Connection.Accounted, (Connection.on_close c' env').2] at hclosed
    exact .inl ⟨e, _, _, rfl, hclosed⟩
  · -- accepted: the connection is left as the request leaves it
    rw [hrequest] at haccounts hacts
    obtain ⟨hopen, hconnected⟩ := Connection.accepted_of_request_eq_ok hr hrequest
    exact .inr ⟨c', env', rfl, hopen, hconnected, haccounts, hacts⟩

/-- A session is entered on a socket that was dialled meanwhile. -/
theorem enter_cases (peer : Peer) (broker : Broker) {r : Request} (hr : r.enters = true)
    {env : Environment} (h : Accounts none env) :
    (∃ e c env', (enter peer broker r).on {} env = (.error e, c, env') ∧ Accounts none env') ∨
      ∃ c env', (enter peer broker r).on {} env = (.ok (), c, env') ∧ c.isOpen ∧ c.connected ∧
        Accounts c.stream env' ∧ Network.dialled (env'.acts.drop env.acts.length) ≠ [] := by
  have hdialled := Connection.accounts_dial peer broker.host broker.port none {} env h
  have henter : enter peer broker r =
      Connection.dial peer broker.host broker.port none >>= fun _ => introduce r := rfl
  rw [henter, Operation.on_bind]
  cases hfault : peer.connectFault with
  -- nobody answers, so there is no socket
  | some reason =>
    rw [Connection.on_dial_of_fault hfault] at hdialled ⊢
    exact .inl ⟨_, _, _, rfl, hdialled⟩
  -- the socket is dialled, and is in the accounts from now on
  | none =>
    rw [Connection.on_dial_of_none hfault] at hdialled ⊢
    rcases introduce_cases hr hdialled with ⟨e, c, env', hintroduce, haccounts⟩ |
      ⟨c, env', hintroduce, hopen, hconnected, haccounts, hacts⟩
    · exact .inl ⟨e, c, env', hintroduce, haccounts⟩
    · refine .inr ⟨c, env', hintroduce, hopen, hconnected, haccounts, ?_⟩
      -- the dial is the first of the acts
      obtain ⟨more, hmore⟩ := hacts
      rw [← hmore, List.append_assoc]
      have hnone : Connection.close.on {} env = (.ok (), {}, env) :=
        Connection.on_close_of_none rfl env
      rw [hnone, List.drop_left]
      simp [Network.dialled]

theorem on_connect_of_connected {t : Tools} {session : Session} (h : t.session = some session)
    (hconnected : session.connection.connected = true) (peer : Peer) (login passcode : Text)
    (broker : Broker) (clientId : Option Text) (env : Environment) :
    (connect peer login passcode broker clientId).on t env =
      (.ok (.alreadyConnected session.broker), t, env) := by
  rw [connect, Operation.on_bind, Operation.on_subject]
  simp only [h, hconnected, if_true]
  rfl

theorem on_connect_of_none (peer : Peer) (login passcode : Text)
    (broker : Broker) (clientId : Option Text) (env : Environment) :
    (connect peer login passcode broker clientId).on {} env =
      match (enter peer broker (.connect login passcode clientId)).on {} env with
      | (.error e, _, env') => (.error e, {}, env')
      | (.ok (), c, env') =>
        (.ok (.connected broker c.version), { session := some ⟨c, broker⟩ }, env') := by
  rw [connect, Operation.on_bind, Operation.on_subject]
  dsimp only
  rw [Operation.on_bind, Operation.on_apart]
  rcases (enter peer broker (.connect login passcode clientId)).on {} env with ⟨_ | _, c, env'⟩ <;>
    rfl

theorem on_disconnect_of_none (receiptId : Option Text) (env : Environment) :
    (disconnect receiptId).on {} env = (.ok (.disconnected none), {}, env) := rfl

/-- The session ends, whatever became of the farewell. -/
theorem on_disconnect_of_some (session : Session) (receiptId : Option Text) (env : Environment) :
    (disconnect receiptId).on { session := some session } env =
      (((farewell receiptId).on session.connection env).1.map .disconnected, {},
        (Connection.close.on ((farewell receiptId).on session.connection env).2.1
          ((farewell receiptId).on session.connection env).2.2).2.2) := by
  rw [disconnect, Operation.on_bind, Operation.on_attempt, on_onSession_of_some rfl]
  dsimp only
  rw [Operation.on_bind, on_onSession_of_some rfl, Connection.on_close_eq_ok]
  dsimp only
  rw [Operation.on_bind, Operation.on_change]
  dsimp only
  rw [Operation.on_bind, Operation.on_ofExcept]
  rcases ((farewell receiptId).on session.connection env).1 with _ | _ <;> rfl

theorem accounts_farewell (receiptId : Option Text) :
    Preserves Connection.Accounted (farewell receiptId) := by
  refine preserves_bind preserves_subject fun c => preserves_ite ?_ (preserves_pure _)
  refine preserves_bind (Connection.accounts_request _) fun _ => ?_
  -- only if a receipt is wanted a frame is waited for
  cases Request.wantedReceipt? receiptId with
  | none => exact preserves_pure _
  | some _ =>
    refine preserves_bind (preserves_attempt (Connection.accounts_receive _)) fun reply => ?_
    split
    · exact preserves_pure _
    · exact preserves_pure _
    · exact preserves_throw _

/-! ### Every history -/

/-- The broker of a call that dialled and began a session. -/
def begun? (d : Deed Call Answer) : Option Broker :=
  match d.asked with
  | .connect _ _ _ broker _ =>
    if d.succeeded ∧ Network.dialled d.acts ≠ [] then some broker else none
  | _ => none

/-- **The situation of the tools** after a history: the accounts are in order, and a session is open
and accepted, by the broker of the last call that began one. -/
structure Situated (past : List (Deed Call Answer)) (t : Tools) (env : Environment) : Prop where
  accounts : Accounts t.stream? env
  session : ∀ session ∈ t.session, session.connection.isOpen ∧ session.connection.connected ∧
    (past.filterMap begun?).getLast? = some session.broker

theorem situated_quiet {past : List (Deed Call Answer)} {t : Tools} {env : Environment}
    (h : Situated past t env) {call : Call} (hquiet : call.quiet) :
    Situated (past ++ [deed Call.operation call t env]) (call.operation.on t env).2.1
      (call.operation.on t env).2.2 := by
  have hfollows := follows_call hquiet
  have hface := hfollows.preserves (keeps_face (t.session.map Session.face)) t env rfl
  -- a quiet call begins no session, so the last one that was begun is the same
  have hbegun : begun? (deed Call.operation call t env) = none := by
    cases call with
    | connect | disconnect => cases hquiet
    | _ => rfl
  refine ⟨hfollows.preserves keeps_accounts t env h.accounts, fun session' hsession' => ?_⟩
  -- the session looks as it did before
  obtain ⟨session, hsession, heq⟩ : ∃ session ∈ t.session, session.face = session'.face := by
    rw [hsession'] at hface
    exact Option.map_eq_some_iff.mp hface.symm
  obtain ⟨hopen, hconnected, hbroker⟩ := h.session session hsession
  have hbroker' : session.broker = session'.broker := congrArg Face.broker heq
  have hopen' : session.connection.isOpen = session'.connection.isOpen := congrArg Face.isOpen heq
  have hconnected' : session.connection.connected = session'.connection.connected :=
    congrArg Face.connected heq
  refine ⟨hopen' ▸ hopen, hconnected' ▸ hconnected, ?_⟩
  rw [List.filterMap_append, ← hbroker', ← hbroker]
  simp [hbegun]

/-- Outside a session, the history does not matter. -/
theorem situated_outside (past : List (Deed Call Answer)) {env : Environment}
    (h : Accounts none env) : Situated past {} env :=
  ⟨h, by simp⟩

/-- **What becomes of a call of `connect`**: in a session nothing does; outside, either the
connection does not come about or is not accepted, or a session begins on a socket that was dialled
meanwhile. -/
theorem connect_cases {past : List (Deed Call Answer)} {t : Tools} {env : Environment}
    (h : Situated past t env) (peer : Peer) (login passcode : Text) (broker : Broker)
    (clientId : Option Text) :
    let op := (Call.connect peer login passcode broker clientId).operation
    (∃ session, t.session = some session ∧
        op.on t env = (.ok (.alreadyConnected session.broker), t, env)) ∨
      (t = {} ∧ ∃ e env', op.on t env = (.error e, {}, env') ∧ Accounts none env') ∨
      t = {} ∧ ∃ c env',
        op.on t env =
          (.ok (.connected broker c.version), { session := some ⟨c, broker⟩ }, env') ∧
        c.isOpen ∧ c.connected ∧ Accounts c.stream env' ∧
        Network.dialled (env'.acts.drop env.acts.length) ≠ [] := by
  intro op
  obtain ⟨_ | session⟩ := t
  · have hon := on_connect_of_none peer login passcode broker clientId env
    rcases enter_cases peer broker (r := .connect login passcode clientId) rfl h.accounts with
      ⟨e, c, env', henter, haccounts⟩ |
        ⟨c, env', henter, hopen, hconnected, haccounts, hdialled⟩
    · rw [henter] at hon
      exact .inr (.inl ⟨rfl, e, env', hon, haccounts⟩)
    · rw [henter] at hon
      exact .inr (.inr ⟨rfl, c, env', hon, hopen, hconnected, haccounts, hdialled⟩)
  · have hconnected := (h.session session rfl).2.1
    exact .inl ⟨session, rfl, on_connect_of_connected rfl hconnected peer login passcode broker
      clientId env⟩

theorem situated_connect {past : List (Deed Call Answer)} {t : Tools} {env : Environment}
    (h : Situated past t env) (peer : Peer) (login passcode : Text) (broker : Broker)
    (clientId : Option Text) :
    let call := Call.connect peer login passcode broker clientId
    Situated (past ++ [deed Call.operation call t env]) (call.operation.on t env).2.1
      (call.operation.on t env).2.2 := by
  intro call
  rcases connect_cases h peer login passcode broker clientId with ⟨session, hsession, hon⟩ |
    ⟨rfl, e, env', hon, haccounts⟩ |
    ⟨rfl, c, env', hon, hopen, hconnected, haccounts, hdialled⟩
  · -- nothing was dialled, so the broker is still that of an earlier call
    have hbegun : begun? (deed Call.operation call t env) = none := by
      rw [begun?]
      refine if_neg fun hdialled => hdialled.2 ?_
      rw [deed, hon]
      dsimp only
      rw [List.drop_length]
      rfl
    rw [hon]
    refine ⟨h.accounts, fun session' hsession' => ?_⟩
    obtain ⟨hopen, hconnected, hbroker⟩ := h.session session' hsession'
    refine ⟨hopen, hconnected, ?_⟩
    rw [List.filterMap_append, ← hbroker]
    simp [hbegun]
  · -- no session has begun, and the history does not matter outside
    rw [hon]
    exact situated_outside _ haccounts
  · -- a session has begun, by the broker of this call
    have hbegun : begun? (deed Call.operation call {} env) = some broker := by
      rw [begun?]
      refine if_pos ⟨?_, ?_⟩
      · rw [Deed.succeeded, deed, hon]
        rfl
      · rw [deed, hon]
        exact hdialled
    rw [hon]
    refine ⟨haccounts, fun session hsession => ?_⟩
    obtain rfl : (⟨c, broker⟩ : Session) = session := Option.some.inj hsession
    refine ⟨hopen, hconnected, ?_⟩
    rw [List.filterMap_append]
    simp [hbegun]

theorem situated_disconnect {past : List (Deed Call Answer)} {t : Tools} {env : Environment}
    (h : Situated past t env) (receiptId : Option Text) (past' : List (Deed Call Answer)) :
    Situated past' ((disconnect receiptId).on t env).2.1 ((disconnect receiptId).on t env).2.2 ∧
      ((disconnect receiptId).on t env).2.1 = {} := by
  obtain ⟨_ | session⟩ := t
  · rw [on_disconnect_of_none]
    exact ⟨situated_outside _ h.accounts, rfl⟩
  · rw [on_disconnect_of_some]
    refine ⟨situated_outside _ ?_, rfl⟩
    -- the farewell keeps the accounts, and closing leaves no socket held
    have hfarewell := accounts_farewell receiptId session.connection env h.accounts
    have hclosed := Connection.accounts_close _ _ hfarewell
    rwa [Connection.Accounted, (Connection.on_close _ _).2] at hclosed

/-- **One call more** leaves the tools in one of the two situations. -/
theorem situated_call {past : List (Deed Call Answer)} {t : Tools} {env : Environment}
    (h : Situated past t env) (call : Call) :
    Situated (past ++ [deed Call.operation call t env]) (call.operation.on t env).2.1
      (call.operation.on t env).2.2 := by
  cases call with
  | connect peer login passcode broker clientId =>
    exact situated_connect h peer login passcode broker clientId
  | disconnect receiptId => exact (situated_disconnect h receiptId _).1
  | _ => exact situated_quiet h rfl

theorem situated_after (calls : List Call) :
    Situated (history Call.operation calls {} {}) (after Call.operation calls {} {}).1
      (after Call.operation calls {} {}).2 := by
  -- from the front to the back, as the situation speaks of the last call that began a session
  induction calls using List.reverseRecOn with
  | nil => exact situated_outside _ accounts_empty
  | append_singleton earlier call ih =>
    rw [history_concat, after_concat]
    exact situated_call ih call

/-- A call that fails has not changed what can be seen of the session, unless it was to end it. -/
theorem face_of_failed {past : List (Deed Call Answer)} {t : Tools} {env : Environment}
    (h : Situated past t env) {call : Call} (hcall : ∀ receiptId, call ≠ .disconnect receiptId)
    (hfailed : (deed Call.operation call t env).succeeded = false) :
    (call.operation.on t env).2.1.session.map Session.face = t.session.map Session.face := by
  cases call with
  | connect peer login passcode broker clientId =>
    rcases connect_cases h peer login passcode broker clientId with ⟨session, -, hon⟩ |
      ⟨rfl, e, env', hon, -⟩ | ⟨rfl, c, env', hon, -⟩
    · -- in a session nothing was done
      rw [hon]
    · rw [hon]
    · rw [Deed.succeeded, deed, hon] at hfailed
      cases hfailed
  | disconnect receiptId => exact absurd rfl (hcall receiptId)
  | _ => exact (follows_call rfl).preserves (keeps_face (t.session.map Session.face)) t env rfl

/-- **The two situations of the tools.** After every history of calls, whatever the network did,
the tools are either outside a session or in one that is open and accepted, by the broker of the
last call that dialled and succeeded; and every socket that was dialled has been closed exactly
once, except for the one of the session, which has only been closed if its stream is closed. From
there a call that fails changes nothing that can be seen of the session, unless it was to end it,
and then it is ended in any case; in a session `connect` does nothing at all; and the document on
the state says which of the two situations it is. -/
theorem situations_after (calls : List Call) :
    let t := (after Call.operation calls {} {}).1
    let env := (after Call.operation calls {} {}).2
    let brokers := (history Call.operation calls {} {}).filterMap begun?
    (t.session = none ∨ ∃ session, t.session = some session ∧ session.connection.isOpen ∧
        session.connection.connected ∧ brokers.getLast? = some session.broker) ∧
      (∀ n ∈ Network.dialled env.acts, t.stream?.map (·.socket.number) ≠ some n →
        Network.closes n env.acts = 1) ∧
      (∀ s ∈ t.stream?, s.socket.number ∈ Network.dialled env.acts ∧
        Network.closes s.socket.number env.acts = if s.closed then 1 else 0) ∧
      (∀ call : Call, (∀ receiptId, call ≠ .disconnect receiptId) →
        (deed Call.operation call t env).succeeded = false →
          (call.operation.on t env).2.1.session.map Session.face = t.session.map Session.face) ∧
      (∀ receiptId, ((Call.disconnect receiptId).operation.on t env).2.1.session = none) ∧
      (∀ session, t.session = some session → ∀ peer login passcode broker clientId,
        (Call.connect peer login passcode broker clientId).operation.on t env =
          (.ok (.alreadyConnected session.broker), t, env)) ∧
      Call.status.operation.on t env =
        (.ok (.document (match t.session with
          | none => Json.object [("open", Json.bool false), ("connected", Json.bool false)]
          | some session => Json.object [
            ("open", Json.bool true), ("connected", Json.bool true),
            ("host", Json.string session.broker.host), ("port", Text.ofInt session.broker.port),
            ("version", Json.string session.connection.version)])), t, env) := by
  intro t env brokers
  have h := situated_after calls
  refine ⟨?_, ?_, fun s hs => ⟨h.accounts.own_dialled s hs, h.accounts.own_closes s hs⟩,
    fun call hcall hfailed => face_of_failed h hcall hfailed, fun receiptId => ?_, ?_, ?_⟩
  · cases hsession : t.session with
    | none => exact .inl rfl
    | some session => exact .inr ⟨session, rfl, h.session session hsession⟩
  · -- a socket that is not the one of the session was released
    intro n hn hother
    refine h.accounts.released n hn fun s hs hnumber => hother ?_
    rw [show t.stream? = some s from hs, Option.map_some, hnumber]
  · exact congrArg Tools.session (situated_disconnect h receiptId []).2
  · intro session hsession peer login passcode broker clientId
    exact on_connect_of_connected hsession (h.session session hsession).2.1 peer login passcode
      broker clientId env
  · rw [Call.operation, Operation.on_bind, Operation.on_subject]
    dsimp only
    rw [Operation.on_pure, status]
    cases hsession : t.session with
    | none => rfl
    | some session =>
      obtain ⟨hopen, hconnected, -⟩ := h.session session hsession
      simp only [hopen, hconnected, if_true]

end Tools

end Stomp
