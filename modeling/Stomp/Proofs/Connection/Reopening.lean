import Stomp.Proofs.Connection.InputBuffer
import Stomp.Proofs.Connection.Session
import Stomp.Proofs.Stream.Oblivious
import Stomp.Proofs.Text.Octets

/-!
# Opening anew

Opening should begin a session in which nothing of a former one is seen. It drops the stream, the
acceptance and the frame text of the former session, but it overlooks the version that was agreed
to. So what holds is this: a connection that is opened again goes on as a new one would that speaks
the left-over version from the beginning, in an environment of the same time. Whatever is done with
it afterwards comes to the same, and only the opening itself has closed the stream that was held.

The argument has two halves:

* `on_opening` — opening is closing, and then opening a connection on which nothing was done yet;
* `oblivious_operation` — no action looks at what was done to the network or told to the log before
  it, so what closing leaves there is never seen again.

The version is the one that the last accepted handshake to name one agreed to, as the history of the
connection says (`told_after`); if no handshake named one, it is the first version.

That the version is overlooked shows with the next broker, if that one names none. A missing version
header means 1.0, but its frames are decoded as the former broker's were, and a message that a new
connection receives is refused (`reopened_unlike_new`).
-/

namespace Stomp.Connection

open Operation (Oblivious after deed history oblivious_act oblivious_attempt oblivious_bind
  oblivious_change oblivious_ite oblivious_newSocket oblivious_notify oblivious_ofExcept
  oblivious_pure oblivious_subject oblivious_throw)
open Utf8 (octets)

/-! ### No action looks back -/

theorem oblivious_onStream {α : Type} {op : Operation Stream α} (hop : Oblivious op) :
    Oblivious (onStream op) := by
  intro c env past
  cases hstream : c.stream with
  | none => rw [on_onStream_of_none hstream, on_onStream_of_none hstream]
  | some s => rw [on_onStream_of_some hstream, on_onStream_of_some hstream, hop s env past]

theorem oblivious_close : Oblivious close := by
  intro c env past
  cases hstream : c.stream with
  | none => rw [on_close_of_none hstream, on_close_of_none hstream]
  | some s =>
    rw [on_close_of_some hstream, on_close_of_some hstream, Stream.oblivious_close s env past]
    -- what closing tells the log comes last, so it stands behind the records of another as well
    simp [Environment.behind]

theorem oblivious_adopt (s : Stream) : Oblivious (adopt s) :=
  oblivious_bind oblivious_close fun _ => oblivious_change _

theorem oblivious_adoptSocket (peer : Network.Peer) : Oblivious (adoptSocket peer) :=
  oblivious_bind (oblivious_newSocket peer) fun _ => oblivious_adopt _

theorem oblivious_dial (peer : Network.Peer) (host : Text) (port : Int)
    (timeout : Option Seconds) : Oblivious (dial peer host port timeout) := by
  refine oblivious_bind oblivious_close fun _ => ?_
  cases peer.connectFault with
  | some reason => exact oblivious_bind (oblivious_act _ _) fun _ => oblivious_throw _
  | none =>
    refine oblivious_bind (oblivious_newSocket peer) fun socket => ?_
    refine oblivious_bind (oblivious_act _ _) fun _ => ?_
    exact oblivious_bind (oblivious_notify _) fun _ => oblivious_change _

theorem oblivious_closeStream : Oblivious closeStream := by
  refine oblivious_bind oblivious_subject fun c => ?_
  exact oblivious_ite (oblivious_onStream Stream.oblivious_close) (oblivious_pure _)

theorem oblivious_sendText (text : Text) (bytes : Bytes) : Oblivious (sendText text bytes) := by
  refine oblivious_onStream (oblivious_bind (oblivious_ofExcept _) fun head => ?_)
  refine oblivious_bind (Stream.oblivious_write head) fun _ => ?_
  exact oblivious_bind (Stream.oblivious_write bytes) fun _ => Stream.oblivious_flush

theorem oblivious_sendFrame (f : Frame) : Oblivious (sendFrame f) := by
  refine oblivious_bind (oblivious_notify _) fun _ => ?_
  exact oblivious_bind (oblivious_ofExcept _) fun text => oblivious_sendText text []

theorem oblivious_keepAlive : Oblivious keepAlive :=
  oblivious_onStream (oblivious_bind (Stream.oblivious_write _) fun _ => Stream.oblivious_flush)

theorem oblivious_receive (timeout : Option Rat) : Oblivious (receive timeout) := by
  refine oblivious_bind oblivious_subject fun c => ?_
  refine oblivious_bind (oblivious_onStream ?_) fun f => ?_
  · refine oblivious_bind (Stream.oblivious_setReadTimeout timeout) fun _ => ?_
    exact Stream.oblivious_readFrame c.version
  · exact oblivious_bind (oblivious_notify _) fun _ => oblivious_pure _

theorem oblivious_receiveText (timeout : Option Rat) : Oblivious (receiveText timeout) := by
  refine oblivious_bind (oblivious_onStream (Stream.oblivious_setReadTimeout timeout)) fun _ => ?_
  refine oblivious_bind oblivious_subject fun c => ?_
  refine oblivious_bind ?_ fun outcome => ?_
  · exact oblivious_attempt (oblivious_onStream (Stream.oblivious_readText _))
  · exact oblivious_bind (oblivious_change _) fun _ => oblivious_ofExcept outcome

theorem oblivious_handshake (f : Frame) : Oblivious (handshake f) := by
  have hexchange : Oblivious (exchange f) :=
    oblivious_bind (oblivious_sendFrame f) fun _ => oblivious_receive _
  intro c env past
  rw [on_handshake, on_handshake, hexchange c env past]
  rcases (exchange f).on c env with ⟨e | reply, c', env'⟩
  · rfl
  · -- whether the reply accepts is in the reply alone
    dsimp only
    cases verdict reply with
    | error e => rfl
    | ok version? => simp [Environment.behind]

theorem oblivious_request (r : Request) : Oblivious (request r) := by
  refine oblivious_bind (oblivious_ofExcept _) fun f => ?_
  cases r with
  | connect => exact oblivious_handshake f
  | connectWith => exact oblivious_handshake f
  | disconnect => exact oblivious_bind (oblivious_sendFrame f) fun _ => oblivious_change _
  | _ => exact oblivious_sendFrame f

theorem oblivious_sendBytes (destination : Text) (data : Bytes) (transaction : Option Text)
    (headers : Headers) : Oblivious (sendBytes destination data transaction headers) := by
  refine oblivious_bind (oblivious_ofExcept _) fun f => ?_
  exact oblivious_bind (oblivious_notify _) fun _ => oblivious_sendText _ _

/-- **No action looks back** at what was done to the network or told to the log. -/
theorem oblivious_operation (action : Action) : Oblivious action.operation := by
  have hdone : ∀ {op : Operation Connection Unit}, Oblivious op → Oblivious (asDone op) :=
    fun h => oblivious_bind h fun _ => oblivious_pure _
  cases action with
  | dial peer host port timeout => exact hdone (oblivious_dial peer host port timeout)
  | adopt peer => exact hdone (oblivious_adoptSocket peer)
  | adoptStream stream => exact hdone (oblivious_adopt stream)
  | close => exact hdone oblivious_close
  | closeStream => exact hdone oblivious_closeStream
  | request r => exact hdone (oblivious_request r)
  | sendBytes destination data transaction headers => exact hdone (oblivious_sendBytes _ _ _ _)
  | sendText text bytes => exact hdone (oblivious_sendText text bytes)
  | keepAlive => exact hdone oblivious_keepAlive
  | receive timeout => exact oblivious_bind (oblivious_receive timeout) fun _ => oblivious_pure _
  | receiveText timeout =>
    exact oblivious_bind (oblivious_receiveText timeout) fun _ => oblivious_pure _

/-! ### Closing first -/

/-- Closing takes no time, and it goes the same way however many sockets there have been. -/
theorem on_close_sockets (c : Connection) (env : Environment) (sockets : Nat) :
    close.on c { env with sockets } =
      (.ok (), (close.on c env).2.1, { (close.on c env).2.2 with sockets }) ∧
      (close.on c env).2.2.Alike env := by
  cases hstream : c.stream with
  | none =>
    rw [on_close_of_none hstream, on_close_of_none hstream]
    exact ⟨rfl, rfl, rfl⟩
  | some s =>
    rw [on_close_of_some hstream, on_close_of_some hstream, Stream.close, Operation.on_bind,
      Operation.on_bind, Stream.on_shut, Stream.on_shut]
    -- whether the socket is touched, and whether it fails, is in the stream and not in the count
    cases s.closed with
    | true => exact ⟨rfl, rfl, rfl⟩
    | false =>
      cases s.socket.peer.closeFault with
      | none => exact ⟨rfl, rfl, rfl⟩
      | some reason => exact ⟨rfl, rfl, rfl⟩

/-- **Opening is closing and then opening for the first time**, where only an open connection is
accepted and nothing of a frame text is kept. -/
theorem on_opening {opening : Action} (hopens : opening.opens = true) {c : Connection}
    (hsound : c.connected → c.isOpen) (hkept : c.inputBuffer = #[]) (env : Environment) :
    opening.operation.on c env =
      opening.operation.on { version := c.version } (close.on c env).2.2 := by
  have hfresh : ∀ env, close.on { version := c.version } env =
      (.ok (), { version := c.version }, env) := fun env => on_close_of_none rfl env
  -- what is left of a closed connection is its version alone
  have hclosed : (close.on c env).2.1 = { version := c.version } := by
    rw [closed_eq hsound, hkept]
  have halike := (on_close_sockets c env env.sockets).2
  cases opening with
  | dial peer host port timeout =>
    rw [Action.operation, on_asDone, on_asDone]
    cases hfault : peer.connectFault with
    | some reason => rw [on_dial_of_fault hfault, on_dial_of_fault hfault, hfresh, hclosed]
    | none => rw [on_dial_of_none hfault, on_dial_of_none hfault, hfresh, hclosed]
  | adopt peer =>
    -- here the new socket gets its number before the old stream is closed
    rw [Action.operation, on_asDone, on_asDone, on_adoptSocket, on_adoptSocket, on_adopt, on_adopt,
      hfresh, (on_close_sockets c env _).1, hclosed, halike.sockets]
  | adoptStream s =>
    rw [Action.operation, on_asDone, on_asDone, on_adopt, on_adopt, hfresh, hclosed]
  | _ => cases hopens

/-- The deed of opening: what closing does comes first. -/
theorem deed_opening {opening : Action} (hopens : opening.opens = true) {c : Connection}
    (hsound : c.connected → c.isOpen) (hkept : c.inputBuffer = #[]) (env : Environment) :
    deed Action.operation opening c env =
      (deed Action.operation opening { version := c.version } (close.on c env).2.2).behind
        (deed Action.operation .close c env) := by
  have hclosing : Action.close.operation.on c env = (.ok .done, (close.on c env).2) := by
    rw [Action.operation, on_asDone, on_close_eq_ok]
    rfl
  -- the records from before, then those of closing, then those of opening
  obtain ⟨hacts, hnotices⟩ :=
    Operation.records_of_oblivious (oblivious_operation .close) c env
  obtain ⟨hacts', hnotices'⟩ := Operation.records_of_oblivious (oblivious_operation opening)
    { version := c.version } (close.on c env).2.2
  rw [hclosing] at hacts hnotices
  rw [deed, on_opening hopens hsound hkept, hacts', hnotices', hacts, hnotices,
    List.append_assoc, List.append_assoc, List.drop_left, List.drop_left]
  rfl

/-! ### A new connection in the place of the old one -/

/-- **A connection that is opened again goes on as a new one**, whatever was done with it before and
whatever the network did: it is as if a connection that speaks the version of the last accepted
handshake to name one, or else the first version, were opened at the same time on the same stream.
Every action from the opening on gives the same result or fails with the same error, does the same
to the network and tells the log the same, and leaves the same connection; only the opening has
closed the stream that was held. -/
theorem reopening (first : Text) (before : List Action) (start : Environment) {opening : Action}
    (hopens : opening.opens = true) (later : List Action) {anew : Environment}
    (halike : (after Action.operation before { version := first } start).2.Alike anew) :
    let past := history Action.operation before { version := first } start
    let now := after Action.operation before { version := first } start
    let fresh : Connection := { version := (past.filterMap agreed?).getLast?.getD first }
    let closing := deed Action.operation .close now.1 now.2
    history Action.operation (opening :: later) now.1 now.2 =
        (history Action.operation (opening :: later) fresh anew).modifyHead (·.behind closing) ∧
      (after Action.operation (opening :: later) now.1 now.2).1 =
        (after Action.operation (opening :: later) fresh anew).1 := by
  intro past now fresh closing
  have htold := told_after first before start
  have hsound : now.1.connected → now.1.isOpen := fun h => (htold.connected.mp h).1
  have hkept : now.1.inputBuffer = #[] := inputBuffer_after before rfl start
  -- the version that is left over is the one that the history tells
  have hfresh : ({ version := now.1.version } : Connection) = fresh := by
    rw [htold.version]
  have hon := on_opening hopens hsound hkept now.2
  have hdeed := deed_opening hopens hsound hkept now.2
  rw [hfresh] at hon hdeed
  -- what closing leaves differs from the other environment in its records alone
  have hclosed : (close.on now.1 now.2).2.2.Alike anew :=
    (on_close_sockets now.1 now.2 now.2.sockets).2.trans halike
  constructor
  · rw [← Operation.history_of_oblivious oblivious_operation hclosed, Operation.history_cons,
      Operation.history_cons, List.modifyHead_cons, hdeed, hon]
  · rw [← Operation.after_of_oblivious oblivious_operation hclosed, after, after, hon]

/-- A broker that accepts and names a version. -/
def namingBroker : Network.Peer where
  events := [.arrival 0 (.data (octets "CONNECTED\nversion:1.2\n\n\x00"))]

/-- A broker that accepts without naming a version, and then sends a message in which a backslash
stands for itself. -/
def plainBroker : Network.Peer where
  events := [.arrival 0 (.data (octets "CONNECTED\n\n\x00MESSAGE\na:\\q\n\n\x00"))]

/-- A session with the first of them. -/
def namingSession : List Action :=
  [.adopt namingBroker, .request (.connect "guest" "guest" none)]

/-- A session with the second one, once it is opened. -/
def plainSession : List Action :=
  [.request (.connect "guest" "guest" none), .receive (some 10)]

theorem reopening_plainBroker :
    let now := after Action.operation namingSession { version := "1.0" } {}
    (Action.adopt plainBroker).opens = true ∧ now.2.Alike { sockets := 1 } ∧
      (after Action.operation (.adopt plainBroker :: plainSession) now.1 now.2).1 =
        (after Action.operation (.adopt plainBroker :: plainSession) { version := "1.2" }
          { sockets := 1 }).1 := by
  have hopens : (Action.adopt plainBroker).opens = true := rfl
  have halike : (after Action.operation namingSession { version := "1.0" } {}).2.Alike
      { sockets := 1 } := ⟨by decide +kernel, by decide +kernel⟩
  -- the first broker named a version, so that is the one that is left over
  have hspoken : ((history Action.operation namingSession { version := "1.0" } {}).filterMap
      agreed?).getLast?.getD "1.0" = "1.2" := by decide +kernel
  have h := (reopening "1.0" namingSession {} hopens plainSession halike).2
  rw [hspoken] at h
  exact ⟨hopens, halike, h⟩

/-- **The version of the former session is left over.** A broker that names no version speaks 1.0,
and its message is received on a new connection; after a session with a broker of version 1.2, the
same message is refused for its backslash. -/
theorem reopened_unlike_new :
    let now := after Action.operation namingSession { version := "1.0" } {}
    let visit := Action.adopt plainBroker :: plainSession
    (history Action.operation visit now.1 now.2).map Deed.outcome =
        [.ok .done, .ok .done, .error (.protocol (.invalidEscape "\\q"))] ∧
      (after Action.operation visit now.1 now.2).1.version = "1.2" ∧
      (history Action.operation visit { version := "1.0" } now.2).map Deed.outcome =
        [.ok .done, .ok .done,
          .ok (.frame { command := "MESSAGE", headers := Headers.empty.set "a" "\\q" })] ∧
      (after Action.operation visit { version := "1.0" } now.2).1.version = "1.0" := by
  decide +kernel

end Stomp.Connection
