import Stomp.Proofs.Stream.Independence

/-!
# Sending and receiving at once

A connection may be used in both directions by turns: some actions send (`Action.sends`) and some
receive (`Action.receives`), and either kind may fail midway. They share the stream with its socket,
and sending looks at none of what receiving changes, nor the other way round. So however the actions
of the two kinds are mixed, each has the outcome that it has without the others, and what is left is
the same in the end.

* `directions` — what sending looks at, and what receiving looks at;
* `keepsTo_onStream` — what keeps to a part of the stream does so on the stream that is held;
* `keepsTo_of_sends`, `keepsTo_of_receives` — each action keeps to its own direction;
* `results_of_mixture` — what comes of a mixture is what comes of either kind alone;
* `interleavings_agree` — any two mixtures of the same actions agree.

The one thing that both directions would see is that the socket is closed from its own side while a
call waits, which the script of the peer must not hold.
-/

namespace Stomp.Connection

open Network (NoLocalClose)
open Operation (Division KeepsTo after fst_mem_of_mem_results keepsTo_attempt
  keepsTo_bind keepsTo_change keepsTo_notify keepsTo_ofExcept keepsTo_pure keepsTo_subject_bind
  results)

/-- An action that sends a frame, a text or a heartbeat, and waits for no answer. -/
def Action.sends : Action → Bool
  | request r => !r.enters
  | sendBytes .. | sendText .. | keepAlive => true
  | _ => false

/-- An action that receives. -/
def Action.receives : Action → Bool
  | receive _ | receiveText _ => true
  | _ => false

/-! ### From the stream to the connection -/

section Held

variable {γ δ ε ε' : Type}

/-- A division of the stream that is held, and of what the connection has of its own. -/
def held (d : Division Stream γ δ) (own : Connection → ε) (own' : Connection → ε') :
    Division Connection (Option γ × ε) (Option δ × ε') where
  known c env := ∃ s, c.stream = some s ∧ d.known s env
  part x := (x.1.stream.map fun s => d.part (s, x.2), own x.1)
  rest x := (x.1.stream.map fun s => d.rest (s, x.2), own' x.1)

variable {d : Division Stream γ δ} {own : Connection → ε} {own' : Connection → ε'}

/-- **What keeps to a part of the stream** does so on the stream that is held. -/
theorem keepsTo_onStream {α : Type} {op : Operation Stream α}
    (hown : ∀ c stream, own { c with stream } = own c)
    (hown' : ∀ c stream, own' { c with stream } = own' c) (hop : KeepsTo d op) :
    KeepsTo (held d own own') (onStream op) := by
  rintro c env ⟨s, hstream, hs⟩
  obtain ⟨hknown, hapart, hsame⟩ := hop s env hs
  have hon := on_onStream_of_some hstream op env
  refine ⟨?_, ?_, ?_⟩
  · -- the stream is still held
    rw [hon]
    exact ⟨_, rfl, hknown⟩
  · -- neither the rest of the stream has changed nor what is the connection's own
    rw [hon]
    refine Prod.ext ?_ (hown' c _)
    show some (d.rest (op.on s env).2) = c.stream.map fun s => d.rest (s, env)
    rw [hstream, hapart]
    rfl
  · rintro c' env' ⟨s', hstream', hs'⟩ h
    -- the other connection holds a stream with the same part
    obtain ⟨hpart, hthis⟩ := Prod.mk.inj h
    rw [hstream, hstream', Option.map_some, Option.map_some, Option.some.injEq] at hpart
    obtain ⟨houtcome, hleft⟩ := hsame s' env' hs' hpart
    rw [hon, on_onStream_of_some hstream']
    refine ⟨houtcome, Prod.ext (congrArg some hleft) ?_⟩
    exact (hown c _).trans (hthis.trans (hown c' _).symm)

end Held

/-- **The two directions of a connection**: with the stream, sending goes by whether the broker has
accepted it, and receiving by the version and the frame text that is being received. -/
def directions : Division Connection (Option (Stream.Outlet × List (Option Nat × Bytes)) × Bool)
    (Option (Stream × Rat) × Array UInt8 × Text) :=
  held Stream.directions (·.connected) fun c => (c.inputBuffer, c.version)

/-- The two directions together are the whole of a connection. -/
theorem eq_of_directions_eq {c c' : Connection} {env env' : Environment}
    (hknown : directions.known c env) (hknown' : directions.known c' env')
    (hpart : directions.part (c, env) = directions.part (c', env'))
    (hrest : directions.rest (c, env) = directions.rest (c', env')) :
    c = c' ∧ Network.attempts env.acts = Network.attempts env'.acts ∧ env.clock = env'.clock := by
  obtain ⟨stream, inputBuffer, connected, version⟩ := c
  obtain ⟨stream', inputBuffer', connected', version'⟩ := c'
  -- both hold a stream, so that each direction tells its part of it
  obtain ⟨s, rfl, -⟩ := hknown
  obtain ⟨s', rfl, -⟩ := hknown'
  obtain ⟨hsending, rfl⟩ := Prod.mk.inj hpart
  obtain ⟨hreceiving, hown⟩ := Prod.mk.inj hrest
  obtain ⟨rfl, rfl⟩ := Prod.mk.inj hown
  obtain ⟨hout, hattempts⟩ := Prod.mk.inj (Option.some.inj hsending)
  obtain ⟨hin, hclock⟩ := Prod.mk.inj (Option.some.inj hreceiving)
  obtain rfl : s = s' := Stream.eq_of_outlet_eq hout hin
  exact ⟨rfl, hattempts, hclock⟩

/-! ### Sending -/

theorem keepsTo_onStream_of_sending {α : Type} {op : Operation Stream α}
    (h : KeepsTo Stream.directions op) : KeepsTo directions (onStream op) :=
  keepsTo_onStream (fun _ _ => rfl) (fun _ _ => rfl) h

theorem keepsTo_sendText (text : Text) (bytes : Bytes) :
    KeepsTo directions (sendText text bytes) := by
  refine keepsTo_onStream_of_sending ?_
  refine keepsTo_bind (keepsTo_ofExcept text.encode) fun head => ?_
  exact keepsTo_bind (Stream.keepsTo_write head) fun _ =>
    keepsTo_bind (Stream.keepsTo_write bytes) fun _ => Stream.keepsTo_flush

theorem keepsTo_keepAlive : KeepsTo directions keepAlive :=
  keepsTo_onStream_of_sending <|
    keepsTo_bind (Stream.keepsTo_write [Octet.lineFeed]) fun _ => Stream.keepsTo_flush

theorem keepsTo_sending (f : Frame) :
    KeepsTo directions (Operation.notify (.sending f)) :=
  keepsTo_notify _ (fun _ _ _ h => h) (fun _ _ _ => rfl) fun _ _ _ => rfl

theorem keepsTo_sendFrame (f : Frame) : KeepsTo directions (sendFrame f) :=
  keepsTo_bind (keepsTo_sending f) fun _ =>
    keepsTo_bind (keepsTo_ofExcept f.toText) fun text => keepsTo_sendText text []

theorem keepsTo_sendBytes (destination : Text) (data : Bytes) (transaction : Option Text)
    (headers : Headers) :
    KeepsTo directions (sendBytes destination data transaction headers) := by
  refine keepsTo_bind (keepsTo_ofExcept _) fun f => ?_
  exact keepsTo_bind (keepsTo_sending f.withBodyLength) fun _ => keepsTo_sendText _ _

/-- Taking leave is remembered by the connection, but receiving does not ask for it. -/
theorem keepsTo_request {r : Request} (h : r.enters = false) :
    KeepsTo directions (request r) := by
  refine keepsTo_bind (keepsTo_ofExcept r.frame) fun f => ?_
  cases r with
  | connect | connectWith => exact absurd h Bool.noConfusion
  | disconnect receiptId =>
    -- this is the one request that changes more than the stream
    refine keepsTo_bind (keepsTo_sendFrame f) fun _ => ?_
    refine keepsTo_change (fun _ _ h => h) (fun _ _ => rfl) fun _ _ _ _ h => ?_
    exact congrArg (fun x => (x.1, false)) h
  | _ => exact keepsTo_sendFrame f

theorem keepsTo_asDone {op : Operation Connection Unit} (h : KeepsTo directions op) :
    KeepsTo directions (asDone op) :=
  keepsTo_bind h fun _ => keepsTo_pure _

/-- **Sending keeps to its direction.** -/
theorem keepsTo_of_sends {action : Action} (h : action.sends = true) :
    KeepsTo directions action.operation := by
  cases action with
  | request r => exact keepsTo_asDone (keepsTo_request ((Bool.not_eq_true' _).mp h))
  | sendBytes destination data transaction headers =>
    exact keepsTo_asDone (keepsTo_sendBytes destination data transaction headers)
  | sendText text bytes => exact keepsTo_asDone (keepsTo_sendText text bytes)
  | keepAlive => exact keepsTo_asDone keepsTo_keepAlive
  | _ => exact absurd h Bool.noConfusion

/-! ### Receiving -/

theorem keepsTo_onStream_of_receiving {α : Type} {op : Operation Stream α}
    (h : KeepsTo Stream.directions.swap op) : KeepsTo directions.swap (onStream op) := by
  show KeepsTo (held Stream.directions.swap (fun c => (c.inputBuffer, c.version)) (·.connected))
    (onStream op)
  exact keepsTo_onStream (fun _ _ => rfl) (fun _ _ => rfl) h

theorem keepsTo_receive (timeout : Option Rat) :
    KeepsTo directions.swap (receive timeout) := by
  refine keepsTo_subject_bind (fun c => ?_) fun c env c' env' h => ?_
  · refine keepsTo_bind (keepsTo_onStream_of_receiving ?_) fun f => ?_
    · exact keepsTo_bind (Stream.keepsTo_setReadTimeout timeout) fun _ =>
        Stream.keepsTo_readFrame c.version
    · exact keepsTo_bind
        (keepsTo_notify _ (fun _ _ _ h => h) (fun _ _ _ => rfl) fun _ _ _ => rfl) fun _ =>
          keepsTo_pure f
  · -- sending never changes the version that frames are read in
    have hversion : c.version = c'.version := congrArg (·.2.2) h
    rw [hversion]

theorem keepsTo_receiveText (timeout : Option Rat) :
    KeepsTo directions.swap (receiveText timeout) := by
  refine keepsTo_bind
    (keepsTo_onStream_of_receiving (Stream.keepsTo_setReadTimeout timeout)) fun _ => ?_
  refine keepsTo_subject_bind (fun c => ?_) fun c env c' env' h => ?_
  · refine keepsTo_bind (keepsTo_attempt (keepsTo_onStream_of_receiving
      (Stream.keepsTo_readText { text := c.inputBuffer }))) fun outcome => ?_
    -- the buffer that is emptied belongs to receiving
    refine keepsTo_bind ?_ fun _ => keepsTo_ofExcept outcome
    refine keepsTo_change (fun _ _ h => h) (fun _ _ => rfl) fun _ _ _ _ h => ?_
    exact congrArg (fun x => (x.1, #[], x.2.2)) h
  · have hbuffer : c.inputBuffer = c'.inputBuffer := congrArg (·.2.1) h
    rw [hbuffer]

/-- **Receiving keeps to its direction.** -/
theorem keepsTo_of_receives {action : Action} (h : action.receives = true) :
    KeepsTo directions.swap action.operation := by
  cases action with
  | receive timeout => exact keepsTo_bind (keepsTo_receive timeout) fun _ => keepsTo_pure _
  | receiveText timeout => exact keepsTo_bind (keepsTo_receiveText timeout) fun _ => keepsTo_pure _
  | _ => exact absurd h Bool.noConfusion

/-! ### Mixtures -/

theorem Action.sends_eq_false {action : Action} (h : action.receives = true) :
    action.sends = false := by
  cases action with
  | receive | receiveText => rfl
  | _ => exact absurd h Bool.noConfusion

theorem Action.receives_eq_false {action : Action} (h : action.sends = true) :
    action.receives = false := by
  rw [Bool.eq_false_iff]
  intro hreceives
  rw [Action.sends_eq_false hreceives] at h
  cases h

section Mixtures

variable {sends receives m m' : List Action}

/-- What comes of a mixture is what comes of sending alone and of receiving alone. -/
theorem results_of_mixture (hsends : ∀ a ∈ sends, a.sends = true)
    (hreceives : ∀ a ∈ receives, a.receives = true) (hm : Interleaving sends receives m)
    {c : Connection} {env : Environment} (h : directions.known c env) :
    (results Action.operation m c env).filter (·.1.sends) =
        results Action.operation sends c env ∧
      (results Action.operation m c env).filter (·.1.receives) =
        results Action.operation receives c env ∧
      directions.known (after Action.operation m c env).1 (after Action.operation m c env).2 ∧
      directions.part (after Action.operation m c env) =
        directions.part (after Action.operation sends c env) ∧
      directions.rest (after Action.operation m c env) =
        directions.rest (after Action.operation receives c env) := by
  -- all three begin in one state
  obtain ⟨hresults, hends⟩ := Operation.results_of_interleaving hm
    (fun a ha => keepsTo_of_sends (hsends a ha)) (fun a ha => keepsTo_of_receives (hreceives a ha))
    h h h rfl rfl
  -- and no action is of both kinds
  refine ⟨hresults.filter_eq (fun x hx => ?_) fun x hx => ?_,
    hresults.symm.filter_eq (fun x hx => ?_) fun x hx => ?_, hends⟩
  · exact hsends _ (fst_mem_of_mem_results _ hx)
  · exact Action.sends_eq_false (hreceives _ (fst_mem_of_mem_results _ hx))
  · exact hreceives _ (fst_mem_of_mem_results _ hx)
  · exact Action.receives_eq_false (hsends _ (fst_mem_of_mem_results _ hx))

/-- **Sending and receiving do not disturb each other.** However the same actions that send and the
same actions that receive are mixed on a connection that holds a stream, each of them has the same
outcome, be it a failure; the same bytes are sent in the same attempts; and in the end the time and
the connection with its stream are the same. -/
theorem interleavings_agree (hsends : ∀ a ∈ sends, a.sends = true)
    (hreceives : ∀ a ∈ receives, a.receives = true) (hm : Interleaving sends receives m)
    (hm' : Interleaving sends receives m') {c : Connection} {s : Stream}
    (hstream : c.stream = some s) (hscript : NoLocalClose s.socket.peer.events)
    (env : Environment) :
    (results Action.operation m c env).filter (·.1.sends) =
        (results Action.operation m' c env).filter (·.1.sends) ∧
      (results Action.operation m c env).filter (·.1.receives) =
        (results Action.operation m' c env).filter (·.1.receives) ∧
      Network.attempts (after Action.operation m c env).2.acts =
        Network.attempts (after Action.operation m' c env).2.acts ∧
      (after Action.operation m c env).2.clock = (after Action.operation m' c env).2.clock ∧
      (after Action.operation m c env).1 = (after Action.operation m' c env).1 := by
  have h : directions.known c env := ⟨s, hstream, hscript⟩
  obtain ⟨hsent, hreceived, hknown, hpart, hrest⟩ := results_of_mixture hsends hreceives hm h
  obtain ⟨hsent', hreceived', hknown', hpart', hrest'⟩ := results_of_mixture hsends hreceives hm' h
  -- each direction ends as it does by itself, in the one mixture as in the other
  obtain ⟨hconnection, hattempts, hclock⟩ := eq_of_directions_eq hknown hknown'
    (hpart.trans hpart'.symm) (hrest.trans hrest'.symm)
  exact ⟨hsent.trans hsent'.symm, hreceived.trans hreceived'.symm, hattempts, hclock, hconnection⟩

end Mixtures

/-- A connection whose socket cannot send the second time, and to which a frame comes in two pieces
before the line fails. -/
def twoWay : Connection where
  stream := some
    { socket :=
        { number := 0
          peer :=
            { events :=
                [.arrival 2 (.data [82, 69, 67, 69, 73]), .arrival 1 (.data [80, 84, 10, 10, 0]),
                  .stall, .arrival 0 (.failure "reset")]
              sendFaults := [none, some "broken"] } } }
  connected := true

/-- Three actions that send. -/
def lastWords : List Action := [.keepAlive, .request (.begin "a"), .request (.disconnect none)]

/-- Three actions that receive; the first one and the last one wait in vain. -/
def lastLooks : List Action := [.receive (some 1), .receive (some 4), .receiveText (some 1)]

/-- The actions that send come between the others, but what comes of them is what comes of them when
they are first. -/
theorem interleavings_agree_twoWay :
    let mixed : List Action :=
      [.receive (some 1), .keepAlive, .request (.begin "a"), .receive (some 4),
        .request (.disconnect none), .receiveText (some 1)]
    ((results Action.operation mixed twoWay {}).filter (·.1.sends)).map Prod.snd =
        [.ok .done, .error (.connection (.writeFailed "broken")), .ok .done] ∧
      ((results Action.operation mixed twoWay {}).filter (·.1.receives)).map Prod.snd =
        [.error (.timeout .noData), .ok (.frame { command := "RECEIPT" }),
          .error (.timeout .noData)] ∧
      (after Action.operation mixed twoWay {}).2.clock = 4 ∧
      (after Action.operation mixed twoWay {}).1.connected = false := by
  intro mixed
  have hscript : NoLocalClose
      [.arrival 2 (.data [82, 69, 67, 69, 73]), .arrival 1 (.data [80, 84, 10, 10, 0]), .stall,
        .arrival 0 (.failure "reset")] := by
    intro delay hmem
    simp at hmem
  have hm : Interleaving lastWords lastLooks mixed :=
    .right (.left (.left (.right (.left (.right .nil)))))
  have happend : Interleaving lastWords lastLooks (lastWords ++ lastLooks) :=
    .left (.left (.left (.right (.right (.right .nil)))))
  obtain ⟨hsent, hreceived, -, hclock, hconnection⟩ :=
    interleavings_agree (by decide) (by decide) hm happend (c := twoWay) rfl hscript {}
  -- what the other mixture comes to can be computed
  rw [hsent, hreceived, hclock, hconnection]
  decide +kernel

end Stomp.Connection
