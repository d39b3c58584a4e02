import Mathlib.Data.List.Induction
import Stomp.Proofs.Connection.Steps
import Stomp.Proofs.History

/-!
# What the history of a connection says

Whether a connection is open, whether it is accepted and which version it speaks is no more than a
summary of what was done with it. The deeds that matter are of four kinds, and all others leave the
three as they are:

* it **opened**: a stream was dialled or adopted;
* it was **dropped**: closed, or opened in vain;
* it was **entered**: a handshake was accepted;
* it was **left**: a farewell was sent.

What one deed changes is said by `Effect`, and each action has it (`effect_operation`), given that
an accepted connection is open. By induction on the history, a connection is open if it was opened
and not dropped since, accepted if it is open and was entered and neither left nor opened anew
since, and it speaks the version that the last handshake to name one agreed to (`session_after`).
-/

namespace Stomp.Connection

open Operation (Follows Keeps Preserves after after_concat deed follows_bind follows_pure history
  history_concat on_bind_eq_ok preserves_bind preserves_changeEnvironment preserves_ofExcept)

/-! ### Kinds of deeds -/

/-- An action that begins afresh on a stream. -/
def Action.opens : Action → Bool
  | dial .. | adopt _ | adoptStream _ => true
  | _ => false

/-- An action that asks to be accepted. -/
def Action.enters : Action → Bool
  | request r => r.enters
  | _ => false

/-- An action that takes leave. -/
def Action.leaves : Action → Bool
  | request r => r.leaves
  | _ => false

/-- The connection was opened. -/
def hasOpened (d : Deed Action Outcome) : Bool := d.asked.opens && d.succeeded

/-- The connection was closed, or opened in vain. -/
def hasDropped (d : Deed Action Outcome) : Bool :=
  decide (d.asked = .close) || d.asked.opens && !d.succeeded

/-- The connection was accepted. -/
def hasEntered (d : Deed Action Outcome) : Bool := d.asked.enters && d.succeeded

/-- Leave was taken. -/
def hasLeft (d : Deed Action Outcome) : Bool := d.asked.leaves && d.succeeded

/-- The frame that the log was told of when it was received. -/
def received? : Notice → Option Frame
  | .received f => some f
  | _ => none

/-- The version that the reply to an accepted handshake names. -/
def agreed? (d : Deed Action Outcome) : Option Text :=
  if hasEntered d then
    (d.notices.findSome? received?).bind (·.headers.get? Headers.Name.version)
  else none

/-- What a deed changes of a connection. -/
structure Effect (d : Deed Action Outcome) (c c' : Connection) : Prop where
  isOpen : c'.isOpen = (hasOpened d || c.isOpen && !hasDropped d)
  connected :
    c'.connected = (hasEntered d || c.connected && !(hasLeft d || hasOpened d || hasDropped d))
  version : c'.version = (agreed? d).getD c.version
  /-- Only an open connection is accepted. -/
  entered : hasEntered d → c'.isOpen
  /-- A version is agreed to only if it can be read. -/
  usable : ∀ version ∈ agreed? d, (Version.parse? version).isSome

theorem hasOpened_of_opens {d : Deed Action Outcome} (h : d.asked.opens = false) :
    hasOpened d = false := by
  rw [hasOpened, h, Bool.false_and]

theorem hasDropped_of_opens {d : Deed Action Outcome} (h : d.asked.opens = false)
    (hclose : d.asked ≠ .close) : hasDropped d = false := by
  rw [hasDropped, h, Bool.false_and, Bool.or_false, decide_eq_false hclose]

/-- What neither opens nor closes leaves an open connection open. -/
theorem isOpen_of_opens {d : Deed Action Outcome} {c c' : Connection} (hsame : c'.isOpen = c.isOpen)
    (hopens : d.asked.opens = false) (hclose : d.asked ≠ .close) :
    c'.isOpen = (hasOpened d || c.isOpen && !hasDropped d) := by
  rw [hasOpened_of_opens hopens, hasDropped_of_opens hopens hclose, Bool.false_or, Bool.not_false,
    Bool.and_true, hsame]

theorem hasEntered_of_enters {d : Deed Action Outcome} (h : d.asked.enters = false) :
    hasEntered d = false := by
  rw [hasEntered, h, Bool.false_and]

theorem hasLeft_of_leaves {d : Deed Action Outcome} (h : d.asked.leaves = false) :
    hasLeft d = false := by
  rw [hasLeft, h, Bool.false_and]

theorem agreed?_of_not_entered {d : Deed Action Outcome} (h : hasEntered d = false) :
    agreed? d = none := by
  rw [agreed?, h]
  rfl

/-- A deed by which the connection is not accepted agrees to no version. -/
theorem Effect.of_not_entered {d : Deed Action Outcome} {c c' : Connection}
    (hentered : hasEntered d = false)
    (hopen : c'.isOpen = (hasOpened d || c.isOpen && !hasDropped d))
    (hconnected : c'.connected = (c.connected && !(hasLeft d || hasOpened d || hasDropped d)))
    (hversion : c'.version = c.version) : Effect d c c' where
  isOpen := hopen
  connected := by rw [hentered, Bool.false_or, hconnected]
  version := by rw [agreed?_of_not_entered hentered, hversion, Option.getD_none]
  entered h := absurd (hentered.symm.trans h) Bool.false_ne_true
  usable := by simp [agreed?_of_not_entered hentered]

/-! ### What the log is told -/

/-- The log was told something, but of no frame that was received. -/
def NoneReceived (told : List Notice) (env : Environment) : Prop :=
  ∃ quiet, env.notices = told ++ quiet ∧ ∀ notice ∈ quiet, received? notice = none

theorem noneReceived_append {told : List Notice} {env env' : Environment} {more : List Notice}
    (h : NoneReceived told env) (hmore : ∀ notice ∈ more, received? notice = none)
    (heq : env'.notices = env.notices ++ more) : NoneReceived told env' := by
  obtain ⟨quiet, hquiet, hnone⟩ := h
  refine ⟨quiet ++ more, by rw [heq, hquiet, List.append_assoc], fun notice hnotice => ?_⟩
  rcases List.mem_append.mp hnotice with hnotice | hnotice
  · exact hnone notice hnotice
  · exact hmore notice hnotice

/-- On a stream only a failing shutdown is told to the log. -/
theorem keeps_noneReceived (told : List Notice) :
    Keeps Stream.Step fun _ env => NoneReceived told env := by
  intro s env s' env' hstep h
  cases hstep with
  | reads hreads =>
    cases hreads with
    | buffer | limit | ask => exact h
    -- closing may tell that the shutdown failed, and that is no frame
    | shut s env hopen =>
      refine noneReceived_append h (fun notice hnotice => ?_) rfl
      obtain ⟨reason, -, rfl⟩ := Option.map_eq_some_iff.mp (Option.mem_toList.mp hnotice)
      rfl
  | writes hwrites =>
    cases hwrites with
    | stage | send => exact h

theorem noneReceived_onStream {α : Type} {op : Operation Stream α} (hop : Follows Stream.Step op)
    (told : List Notice) : Preserves (fun _ env => NoneReceived told env) (onStream op) := by
  intro c env h
  cases hstream : c.stream with
  | none => rwa [on_onStream_of_none hstream]
  | some s =>
    rw [on_onStream_of_some hstream]
    exact hop.preserves (keeps_noneReceived told) s env h

theorem noneReceived_sendFrame (f : Frame) (told : List Notice) :
    Preserves (fun _ env => NoneReceived told env) (sendFrame f) := by
  refine preserves_bind ?_ fun _ => preserves_bind (preserves_ofExcept _) fun text => ?_
  · have hsending : ∀ notice ∈ [Notice.sending f], received? notice = none := by simp [received?]
    exact preserves_changeEnvironment fun _ env h => noneReceived_append h hsending rfl
  · refine noneReceived_onStream ?_ told
    exact (follows_output text []).mono fun _ _ => .writes

/-- An exchange that succeeds has received one frame and told the log of it. -/
theorem exchange_eq_ok {f reply : Frame} {c c' : Connection} {env env' : Environment}
    (h : (exchange f).on c env = (.ok reply, c', env')) :
    c'.isOpen ∧ ∃ quiet, env'.notices = env.notices ++ quiet ++ [.received reply] ∧
      ∀ notice ∈ quiet, received? notice = none := by
  obtain ⟨_, sent, env₁, hsend, hreceive⟩ := on_bind_eq_ok.mp h
  -- nothing was received up to the moment at which the reply is there
  have hsent := noneReceived_sendFrame f env.notices c env ⟨[], by simp, by simp⟩
  have hread := noneReceived_onStream
    ((follows_input (some defaultTimeout.value) sent.version).mono fun _ _ => .reads)
    env.notices sent env₁ (by rwa [hsend] at hsent)
  rw [on_receive] at hreceive
  cases hstream : sent.stream with
  | none =>
    rw [on_onStream_of_none hstream] at hreceive
    cases hreceive
  | some s =>
    rw [on_onStream_of_some hstream] at hreceive hread
    generalize (input (some defaultTimeout.value) sent.version).on s env₁ = inputs
      at hreceive hread
    obtain ⟨_ | f', s', env₂⟩ := inputs
    · cases hreceive
    · cases hreceive
      -- the log is told of the reply last of all
      obtain ⟨quiet, heq, hnone⟩ := hread
      exact ⟨rfl, quiet, by rw [← heq], hnone⟩

/-! ### One deed -/

/-- What a caller can see of a connection is the same. -/
structure Unaltered (c c' : Connection) : Prop where
  isOpen : c'.isOpen = c.isOpen
  connected : c'.connected = c.connected
  version : c'.version = c.version

theorem Unaltered.refl (c : Connection) : Unaltered c c := ⟨rfl, rfl, rfl⟩

/-- Steps on the stream that is held alter nothing that can be seen. -/
theorem Unaltered.of_follows {α : Type} {R : Stream × Environment → Stream × Environment → Prop}
    {op : Operation Connection α} (h : Follows (Step R) op) (c : Connection) (env : Environment) :
    Unaltered c (op.on c env).2.1 := by
  -- the three values that are seen are kept by every step, whatever they are
  obtain ⟨hopen, hconnected, hversion⟩ :=
    h.preserves (keeps_session c.isOpen c.connected c.version) c env ⟨rfl, rfl, rfl⟩
  exact ⟨hopen, hconnected, hversion⟩

/-- A deed that neither opens nor closes, and neither enters nor leaves. -/
theorem Effect.of_unaltered {d : Deed Action Outcome} {c c' : Connection} (h : Unaltered c c')
    (hopens : d.asked.opens = false) (hclose : d.asked ≠ .close) (hentered : hasEntered d = false)
    (hleft : hasLeft d = false) : Effect d c c' := by
  refine .of_not_entered hentered (isOpen_of_opens h.isOpen hopens hclose) ?_ h.version
  rw [h.connected, hleft, hasOpened_of_opens hopens, hasDropped_of_opens hopens hclose]
  simp

/-- A deed that failed without opening or closing. -/
theorem Effect.of_failed {d : Deed Action Outcome} {c c' : Connection} (h : Unaltered c c')
    (hopens : d.asked.opens = false) (hclose : d.asked ≠ .close) (hfailed : d.succeeded = false) :
    Effect d c c' := by
  refine .of_unaltered h hopens hclose ?_ ?_
  · rw [hasEntered, hfailed, Bool.and_false]
  · rw [hasLeft, hfailed, Bool.and_false]

/-- A handshake fails and alters nothing that can be seen, or it received an answer that accepts, on
an open connection. -/
theorem handshake_cases (f : Frame) (c : Connection) (env : Environment) :
    (∃ e c' env', (handshake f).on c env = (.error e, c', env') ∧ Unaltered c c') ∨
      ∃ reply version? c' env' more,
        (handshake f).on c env =
          (.ok (), { c' with version := version?.getD c'.version, connected := true }, env') ∧
        Unaltered c c' ∧ c'.isOpen ∧ verdict reply = .ok version? ∧
        env'.notices = env.notices ++ more ∧ more.findSome? received? = some reply := by
  have hunaltered := Unaltered.of_follows (follows_exchange f) c env
  rw [on_handshake]
  rcases hexchange : (exchange f).on c env with ⟨e | reply, c', env'⟩
  · rw [hexchange] at hunaltered
    exact .inl ⟨e, c', env', rfl, hunaltered⟩
  · rw [hexchange] at hunaltered
    obtain ⟨hopen, quiet, hnotices, hnone⟩ := exchange_eq_ok hexchange
    dsimp only
    -- the exchange altered nothing, so it is the verdict that decides
    cases hverdict : verdict reply with
    | error e => exact .inl ⟨e, c', env', rfl, hunaltered⟩
    | ok version? =>
      refine .inr ⟨reply, version?, c', _,
        quiet ++ [.received reply, .established (version?.getD c'.version)], rfl, hunaltered, hopen,
        hverdict, ?_, ?_⟩
      · simp [hnotices]
      · -- of what the log was told meanwhile, the reply is the one frame
        rw [List.findSome?_append, List.findSome?_eq_none_iff.mpr hnone]
        rfl

/-- A handshake that succeeds leaves the connection open and accepted. -/
theorem accepted_of_request_eq_ok {r : Request} (hr : r.enters = true) {c c' : Connection}
    {env env' : Environment} (h : (request r).on c env = (.ok (), c', env')) :
    c'.isOpen ∧ c'.connected := by
  cases hframe : r.frame with
  | error e =>
    rw [on_request_of_error hframe] at h
    cases h
  | ok f =>
    rw [on_request_of_enters hr hframe] at h
    -- a handshake that altered nothing has failed, so it is the other case
    rcases handshake_cases f c env with
      ⟨e, c₁, env₁, hhandshake, -⟩ | ⟨_, _, c₁, env₁, _, hhandshake, -, hopen, -⟩
    · rw [hhandshake] at h
      cases h
    · rw [hhandshake] at h
      cases h
      exact ⟨hopen, rfl⟩

/-- A request that fails, having altered nothing that can be seen. -/
theorem effect_request_of_error {r : Request} {e : Error} {c c' : Connection}
    {env env' : Environment} (h : (request r).on c env = (.error e, c', env'))
    (hunaltered : Unaltered c c') :
    Effect (deed Action.operation (.request r) c env) c
      ((Action.request r).operation.on c env).2.1 := by
  have hon : (Action.request r).operation.on c env = (.error e, c', env') := by
    rw [Action.operation, on_asDone, h]
    rfl
  refine .of_failed ?_ rfl Action.noConfusion ?_
  · rw [hon]
    exact hunaltered
  · rw [Deed.succeeded, deed, hon]
    rfl

theorem effect_enter {r : Request} (hr : r.enters = true) (c : Connection) (env : Environment) :
    Effect (deed Action.operation (.request r) c env) c
      ((Action.request r).operation.on c env).2.1 := by
  cases hframe : r.frame with
  | error e => exact effect_request_of_error (on_request_of_error hframe c env) (.refl c)
  | ok f =>
    have hrequest := on_request_of_enters hr hframe c env
    rcases handshake_cases f c env with
      ⟨e, c', env', hhandshake, hunaltered⟩ |
        ⟨reply, version?, c', env', more, hhandshake, hunaltered, hopen, hverdict, hnotices, hfind⟩
    · -- the handshake failed
      exact effect_request_of_error (hrequest.trans hhandshake) hunaltered
    · -- it succeeded, and the deed has on record what its reply said
      have hon : (Action.request r).operation.on c env = (.ok .done,
          { c' with version := version?.getD c'.version, connected := true }, env') := by
        rw [Action.operation, on_asDone, hrequest, hhandshake]
        rfl
      set d := deed Action.operation (.request r) c env with hd
      have hentered : hasEntered d = true := by
        rw [hd, hasEntered, Deed.succeeded, deed, hon, Action.enters, hr]
        rfl
      -- what the log was told by this deed is all that it was told since
      have hmore : d.notices = more := by
        rw [hd, deed, hon]
        dsimp only
        rw [hnotices, List.drop_left]
      have hagreed : agreed? d = version? := by
        rw [agreed?, if_pos hentered, hmore, hfind]
        exact (verdict_eq_ok hverdict).1
      rw [hon]
      refine ⟨isOpen_of_opens hunaltered.isOpen rfl Action.noConfusion, ?_, ?_, fun _ => hopen, ?_⟩
      · rw [hentered]
        rfl
      · rw [hagreed, ← hunaltered.version]
      · intro version hversion
        rw [hagreed] at hversion
        exact (verdict_eq_ok hverdict).2 version hversion

theorem effect_leave {r : Request} (hr : r.leaves = true) (c : Connection) (env : Environment) :
    Effect (deed Action.operation (.request r) c env) c
      ((Action.request r).operation.on c env).2.1 := by
  cases hframe : r.frame with
  | error e => exact effect_request_of_error (on_request_of_error hframe c env) (.refl c)
  | ok f =>
    have hrequest := on_request_of_leaves hr hframe c env
    have hunaltered := Unaltered.of_follows (follows_sendFrame f) c env
    rcases hsend : (sendFrame f).on c env with ⟨e | ⟨⟩, c', env'⟩
    · rw [hsend] at hrequest hunaltered
      exact effect_request_of_error hrequest hunaltered
    · rw [hsend] at hrequest hunaltered
      have hon : (Action.request r).operation.on c env =
          (.ok .done, { c' with connected := false }, env') := by
        rw [Action.operation, on_asDone, hrequest]
        rfl
      set d := deed Action.operation (.request r) c env with hd
      -- no request does both
      have henters : r.enters = false := by
        cases r with
        | connect | connectWith => cases hr
        | _ => rfl
      have hleft : hasLeft d = true := by
        rw [hd, hasLeft, Deed.succeeded, deed, hon, Action.leaves, hr]
        rfl
      rw [hon]
      refine .of_not_entered (hasEntered_of_enters henters)
        (isOpen_of_opens hunaltered.isOpen rfl Action.noConfusion) ?_ hunaltered.version
      rw [hleft]
      simp

/-- A request that neither enters nor leaves, and every other action that works on the stream that
is held. -/
theorem effect_of_follows {action : Action}
    {R : Stream × Environment → Stream × Environment → Prop} (hopens : action.opens = false)
    (hclose : action ≠ .close) (henters : action.enters = false) (hleaves : action.leaves = false)
    (h : Follows (Step R) action.operation) (c : Connection) (env : Environment) :
    Effect (deed Action.operation action c env) c (action.operation.on c env).2.1 := by
  exact .of_unaltered (.of_follows h c env) hopens hclose (hasEntered_of_enters henters)
    (hasLeft_of_leaves hleaves)

theorem effect_request (r : Request) (c : Connection) (env : Environment) :
    Effect (deed Action.operation (.request r) c env) c
      ((Action.request r).operation.on c env).2.1 := by
  cases henters : r.enters with
  | true => exact effect_enter henters c env
  | false =>
    cases hleaves : r.leaves with
    | true => exact effect_leave hleaves c env
    | false =>
      have hfollows : Follows (Step Stream.Writes) (Action.request r).operation :=
        follows_asDone (follows_request henters hleaves)
      have hopens : (Action.request r).opens = false := rfl
      exact effect_of_follows hopens Action.noConfusion henters hleaves hfollows c env

/-- Where only an open connection is accepted, closing leaves nothing of the two. -/
theorem closed_eq {c : Connection} (hsound : c.connected → c.isOpen) (env : Environment) :
    (close.on c env).2.1 = { c with stream := none, connected := false } := by
  cases hstream : c.stream with
  | none =>
    -- without a stream the connection is not open, so it was not accepted either
    have hconnected : c.connected = false := by
      by_contra hne
      have hopen := hsound (by simpa using hne)
      rw [isOpen, hstream] at hopen
      cases hopen
    rw [on_close_of_none hstream, ← hstream, ← hconnected]
  | some s => rw [on_close_of_some hstream]

/-- An action that begins afresh on a stream, whatever there was before. -/
theorem effect_of_opened {action : Action} (hopens : action.opens = true) {c : Connection}
    {s : Stream} {env env' : Environment}
    (hon : action.operation.on c env =
      (.ok .done, { c with stream := some s, inputBuffer := #[], connected := false }, env')) :
    Effect (deed Action.operation action c env) c (action.operation.on c env).2.1 := by
  set d := deed Action.operation action c env with hd
  -- the action succeeded, so by its kind it is a deed of opening and no other
  have hopened : hasOpened d = true := by
    rw [hd, hasOpened, Deed.succeeded, deed, hon, hopens]
    rfl
  have henters : action.enters = false := by
    cases action with
    | request => cases hopens
    | _ => rfl
  rw [hon]
  refine .of_not_entered (hasEntered_of_enters henters) ?_ ?_ rfl
  · rw [hopened, Bool.true_or]
    rfl
  · rw [hopened]
    simp

/-- An action that lets go of the stream, if there is one. -/
theorem effect_of_dropped {action : Action} {c : Connection} {outcome : Except Error Outcome}
    {env env' : Environment}
    (hon : action.operation.on c env =
      (outcome, { c with stream := none, connected := false }, env'))
    (hdropped : hasDropped (deed Action.operation action c env) = true)
    (hopened : hasOpened (deed Action.operation action c env) = false)
    (henters : action.enters = false) :
    Effect (deed Action.operation action c env) c (action.operation.on c env).2.1 := by
  rw [hon]
  refine .of_not_entered (hasEntered_of_enters henters) ?_ ?_ rfl
  · rw [hopened, hdropped]
    simp [Connection.isOpen]
  · rw [hdropped]
    simp

theorem effect_close {c : Connection} (hsound : c.connected → c.isOpen) (env : Environment) :
    Effect (deed Action.operation .close c env) c (Action.close.operation.on c env).2.1 := by
  have hon : Action.close.operation.on c env =
      (.ok .done, { c with stream := none, connected := false }, (close.on c env).2.2) := by
    rw [Action.operation, on_asDone, on_close_eq_ok, ← closed_eq hsound env]
    rfl
  exact effect_of_dropped hon rfl rfl rfl

theorem effect_dial {c : Connection} (hsound : c.connected → c.isOpen) (peer : Network.Peer)
    (host : Text) (port : Int) (timeout : Option Seconds) (env : Environment) :
    Effect (deed Action.operation (.dial peer host port timeout) c env) c
      ((Action.dial peer host port timeout).operation.on c env).2.1 := by
  have hon : (Action.dial peer host port timeout).operation.on c env =
      (((dial peer host port timeout).on c env).1.map fun _ => .done,
        ((dial peer host port timeout).on c env).2) := on_asDone _ c env
  cases hfault : peer.connectFault with
  -- the host could not be reached, and by then the stream that was held had been let go
  | some reason =>
    rw [on_dial_of_fault hfault, closed_eq hsound] at hon
    refine effect_of_dropped hon ?_ ?_ rfl
    · rw [hasDropped, Deed.succeeded, deed, hon]
      rfl
    · rw [hasOpened, Deed.succeeded, deed, hon]
      rfl
  | none =>
    rw [on_dial_of_none hfault, closed_eq hsound] at hon
    exact effect_of_opened rfl hon

theorem effect_adopt {c : Connection} (hsound : c.connected → c.isOpen) (peer : Network.Peer)
    (env : Environment) :
    Effect (deed Action.operation (.adopt peer) c env) c
      ((Action.adopt peer).operation.on c env).2.1 := by
  have hon : (Action.adopt peer).operation.on c env =
      (((adoptSocket peer).on c env).1.map fun _ => .done, ((adoptSocket peer).on c env).2) :=
    on_asDone _ c env
  rw [on_adoptSocket, on_adopt, closed_eq hsound] at hon
  exact effect_of_opened rfl hon

theorem effect_adoptStream {c : Connection} (hsound : c.connected → c.isOpen) (s : Stream)
    (env : Environment) :
    Effect (deed Action.operation (.adoptStream s) c env) c
      ((Action.adoptStream s).operation.on c env).2.1 := by
  have hon : (Action.adoptStream s).operation.on c env =
      (((adopt s).on c env).1.map fun _ => .done, ((adopt s).on c env).2) := on_asDone _ c env
  rw [on_adopt, closed_eq hsound] at hon
  exact effect_of_opened rfl hon

/-- **Every action has the effect of its deed**, where only an open connection is accepted. -/
theorem effect_operation (action : Action) {c : Connection} (hsound : c.connected → c.isOpen)
    (env : Environment) :
    Effect (deed Action.operation action c env) c (action.operation.on c env).2.1 := by
  -- most actions only work on the stream that is held
  have hquiet : ∀ {action : Action} {R : Stream × Environment → Stream × Environment → Prop},
      action.opens = false → action ≠ .close → action.enters = false → action.leaves = false →
      Follows (Step R) action.operation →
      Effect (deed Action.operation action c env) c (action.operation.on c env).2.1 :=
    fun hopens hclose henters hleaves h => effect_of_follows hopens hclose henters hleaves h c env
  cases action with
  | dial peer host port timeout => exact effect_dial hsound peer host port timeout env
  | adopt peer => exact effect_adopt hsound peer env
  | adoptStream s => exact effect_adoptStream hsound s env
  | close => exact effect_close hsound env
  | closeStream =>
    exact hquiet rfl Action.noConfusion rfl rfl (follows_asDone follows_closeStream)
  | request r => exact effect_request r c env
  | sendBytes destination data transaction headers =>
    exact hquiet rfl Action.noConfusion rfl rfl (follows_asDone (follows_sendBytes _ _ _ _))
  | sendText text bytes =>
    exact hquiet rfl Action.noConfusion rfl rfl (follows_asDone (follows_sendText _ _))
  | keepAlive => exact hquiet rfl Action.noConfusion rfl rfl (follows_asDone follows_keepAlive)
  | receive timeout =>
    exact hquiet rfl Action.noConfusion rfl rfl
      (follows_bind (follows_receive timeout) fun _ => follows_pure _)
  | receiveText timeout =>
    exact hquiet rfl Action.noConfusion rfl rfl
      (follows_bind (follows_receiveText timeout) fun _ => follows_pure _)

/-! ### Every history -/

/-- What a history says of a connection that spoke version `first` at its beginning. -/
structure Told (first : Text) (past : List (Deed Action Outcome)) (c : Connection) : Prop where
  isOpen : c.isOpen ↔ Since hasOpened hasDropped past
  connected : c.connected ↔
    c.isOpen ∧ Since hasEntered (fun d => hasLeft d || hasOpened d) past
  version : c.version = (past.filterMap agreed?).getLast?.getD first
  usable : ∀ version ∈ past.filterMap agreed?, (Version.parse? version).isSome

/-- One deed more. -/
theorem Told.concat {first : Text} {past : List (Deed Action Outcome)} {d : Deed Action Outcome}
    {c c' : Connection} (h : Told first past c) (heffect : Effect d c c') :
    Told first (past ++ [d]) c' := by
  refine ⟨?_, ?_, ?_, ?_⟩
  · -- open: opened by this deed, or open before and not dropped by it
    rw [since_concat, ← h.isOpen, heffect.isOpen, Bool.or_eq_true, Bool.and_eq_true,
      Bool.not_eq_true', Bool.not_eq_true]
  · rw [since_concat]
    -- accepted: by this deed, or else as before
    by_cases hentered : hasEntered d = true
    · simp [heffect.connected, hentered, heffect.entered hentered]
    · -- accepted before, and nothing happened that ends it
      have hconnected := h.connected
      simp only [heffect.connected, heffect.isOpen, hentered, Bool.false_or, Bool.or_eq_true,
        Bool.and_eq_true, Bool.not_eq_true', Bool.or_eq_false_iff, hconnected, false_or, not_or,
        Bool.not_eq_true, Bool.false_eq_true]
      constructor
      · rintro ⟨⟨hopen, hsince⟩, hkept, hdropped⟩
        exact ⟨.inr ⟨hopen, hdropped⟩, hsince, hkept⟩
      · rintro ⟨hopened | ⟨hopen, hdropped⟩, hsince, hkept⟩
        · rw [hkept.2] at hopened
          cases hopened
        · exact ⟨⟨hopen, hsince⟩, hkept, hdropped⟩
  · rw [List.filterMap_append, heffect.version, h.version]
    -- the last version that was agreed to is that of this deed, if it has one
    cases hagreed : agreed? d with
    | none => simp [hagreed]
    | some version => simp [hagreed]
  · intro version hversion
    rw [List.filterMap_append] at hversion
    rcases List.mem_append.mp hversion with hversion | hversion
    · exact h.usable version hversion
    · exact heffect.usable version (by simpa using hversion)

theorem told_after (first : Text) (actions : List Action) (env : Environment) :
    Told first (history Action.operation actions { version := first } env)
      (after Action.operation actions { version := first } env).1 := by
  induction actions using List.reverseRecOn with
  | nil => exact ⟨by simp [isOpen], by simp [isOpen], rfl, by simp⟩
  -- what is known so far says that only an open connection is accepted, as the effect needs it
  | append_singleton earlier action ih =>
    rw [history_concat, after_concat]
    exact ih.concat (effect_operation action (fun h => (ih.connected.mp h).1) _)

/-- **What a connection is follows from what was done with it**, whatever the network did: it is
open if it was opened and not dropped since; it is accepted if it is open and was entered since it
was opened, and not left after that; and it speaks the version that the last accepted handshake to
name one agreed to, or else the first one. So only an open connection is accepted, and if the first
version can be read then so can every later one. -/
theorem session_after (first : Text) (actions : List Action) (env : Environment) :
    let past := history Action.operation actions { version := first } env
    let c := (after Action.operation actions { version := first } env).1
    (c.isOpen ↔ Since hasOpened hasDropped past) ∧
      (c.connected ↔ c.isOpen ∧ Since hasEntered (fun d => hasLeft d || hasOpened d) past) ∧
      c.version = (past.filterMap agreed?).getLast?.getD first ∧
      (c.connected → c.isOpen) ∧
      ((Version.parse? first).isSome → (Version.parse? c.version).isSome) := by
  intro past c
  have h := told_after first actions env
  refine ⟨h.isOpen, h.connected, h.version, fun hconnected => (h.connected.mp hconnected).1,
    fun hfirst => ?_⟩
  rw [h.version]
  -- the version is the first one, or one that was agreed to and so can be read
  cases hlast : (past.filterMap agreed?).getLast? with
  | none => exact hfirst
  | some version => exact h.usable version (List.mem_of_getLast? hlast)

end Stomp.Connection
