import Stomp.Proofs.Connection.Handshake
import Stomp.Proofs.Tools.Receiving
import Stomp.Proofs.Tools.Session

/-!
# What a farewell reports

A session that ends with a receipt asked for waits for one frame, and the answer tells what this
frame is. Which receipt was asked for makes no difference: a message that a subscription had under
way is taken for an answer without a receipt, and the receipt of a request made earlier is reported
in place of the one that was asked for.

* `disconnect_reports` — the answer tells the first frame, whatever follows it;
* `disconnect_overlooks` — so the receipt asked for is overlooked where it comes second.
-/

namespace Stomp

open Operation (history)
open Stomp.Stream (Live)
open Utf8 (octets)

theorem Stream.Live.sent {s : Stream} (h : Live s) : Live s.sent :=
  ⟨h.closed_eq, h.readSize_pos, h.data_nonempty⟩

/-- Sending takes no time, and what comes comes at the same moment. -/
@[simp] theorem Stream.wait_sent (s : Stream) (n : Nat) : s.sent.wait n = s.wait n := rfl

namespace Frame

/-- A receipt id is that of a RECEIPT frame. -/
theorem receipt?_bind_eq_some_iff {f : Frame} {id : Text} :
    f.receipt?.bind Reply.Receipt.receiptId = some id ↔
      f.command = Command.receipt.name ∧ f.headers.get? Headers.Name.receiptId = some id := by
  rw [← command?_eq_some_iff, receipt?]
  split
  · next h => simp [h]
  · next h => simp [h]

end Frame

/-- **A frame that comes**, at a version: the bytes are just what it is read from. -/
structure Coming (version : Text) where
  frame : Frame
  wire : Bytes
  read_eq : Frame.read version (⟨wire, none⟩ : Memory) = (.ok frame, ⟨[], none⟩)

/-- It is what a call that receives a frame reads. -/
theorem Coming.reads {version : Text} (x : Coming version) :
    Connection.Call.frame.Reads version x.wire (.ok (.frame x.frame)) := by
  cases hversion : Version.parse? version with
  | none =>
    -- no version, no frame
    have hread := x.read_eq
    simp only [Frame.read, hversion] at hread
    cases hread
  | some v =>
    rw [Connection.Call.reads_frame_iff hversion]
    obtain ⟨l, hwire⟩ := (Frame.read_memory_eq_ok_iff hversion (by decide)).mp x.read_eq
    exact Frame.Decoder.scan_start_eq_done_ok_iff.mpr ⟨l, hwire⟩

/-- A farewell can be sent if the id of the receipt can. -/
theorem Request.writable_disconnect {receiptId : Option Text}
    (h : ∀ id ∈ receiptId, id.SurrogateFree) : (Request.disconnect receiptId).Writable where
  message := by simp [message?]
  body := trivial
  headers := by
    rintro f hf
    cases hf
    rcases receiptId with _ | _ | ⟨c, id⟩
    · exact List.forall_mem_nil _
    · exact List.forall_mem_nil _
    · -- only an id that is not empty is put into the frame
      intro e he
      obtain rfl : e = (Headers.Name.receipt, c :: id) := List.mem_singleton.mp he
      exact ⟨Text.surrogateFree_ofString _, h _ rfl⟩

namespace Connection

/-- **Taking leave** on a stream that sends: one frame is sent, and the session is over. -/
theorem exists_request_disconnect {c : Connection} {s : Stream} {receiptId : Option Text}
    (hstream : c.stream = some s) (hopen : s.closed = false) (hsends : s.socket.peer.send.1 = none)
    (hfree : ∀ id ∈ receiptId, id.SurrogateFree) (env : Environment) :
    ∃ env', (request (.disconnect receiptId)).on c env =
      (.ok (), { c with stream := some s.sent, connected := false }, env') := by
  have hwritable := Request.isSome_wire?_iff.mpr (Request.writable_disconnect hfree)
  obtain ⟨wire, hwire⟩ := Option.isSome_iff_exists.mp hwritable
  obtain ⟨f, hframe, hwire⟩ := Option.bind_eq_some_iff.mp hwire
  have hsend : (sendFrame f).on c env =
      (.ok (), { c with stream := some s.sent }, env.sending f s wire) :=
    (sendFrame_eq_ok_iff hstream).mpr ⟨wire, hwire, hopen, hsends, rfl, rfl⟩
  exact ⟨env.sending f s wire, by
    rw [on_request_of_leaves rfl (toOption_eq_some_iff.mp hframe), hsend]⟩

end Connection

namespace Tools

variable {version : Text} {t : Tools} {s : Stream} {receiptId : Text}

/-- **The farewell reports the first frame** that comes, if it comes in time. -/
theorem farewell_reports {c : Connection} (hstream : c.stream = some s) (hlive : Live s)
    (hkept : c.inputBuffer = #[]) (hsends : s.socket.peer.send.1 = none) (hid : receiptId ≠ [])
    (hfree : receiptId.SurrogateFree) (x : Coming c.version) {rest : Bytes}
    (havailable : s.available = x.wire ++ rest) (hsoon : ∀ n ≤ x.wire.length, s.wait n < 10)
    (env : Environment) :
    ((farewell (some receiptId)).on c env).1 =
      .ok (some (x.frame.receipt?.bind Reply.Receipt.receiptId)) := by
  have hwritten : ∀ id ∈ some receiptId, id.SurrogateFree := by simpa using hfree
  -- DISCONNECT is sent
  obtain ⟨env₁, hrequest⟩ :=
    Connection.exists_request_disconnect hstream hlive.closed_eq hsends hwritten env
  set left : Connection := { c with stream := some s.sent, connected := false }
  -- sending has taken nothing of the frame, and no time
  have hlimit : ∀ limit ∈ some (10 : Rat), ∀ n ≤ x.wire.length, s.sent.wait n < limit := by
    simpa using hsoon
  obtain ⟨s', env₂, hon, -⟩ := Connection.Call.frame.served_of_lt (c := left) rfl hlive.sent hkept
    env₁ havailable x.reads hlimit
  have hreceive : (Connection.receive (some 10)).on left env₁ =
      (.ok x.frame, { left with stream := some s' }, env₂) := Connection.Call.on_receive_iff.mp hon
  have hopen : c.isOpen = true := by
    rw [Connection.isOpen, hstream]
    rfl
  have hwanted : Request.wantedReceipt? (some receiptId) = some receiptId := by
    cases receiptId with
    | nil => exact absurd rfl hid
    | cons => rfl
  -- the frame is looked at whatever it is, and no other one is waited for
  simp only [farewell, Operation.on_bind, Operation.on_subject, hopen, if_true, hrequest, hwanted,
    Operation.on_attempt, value_defaultTimeout, hreceive, Operation.on_pure]

/-- **The end of a session reports the first frame**, whatever follows it: if it is a RECEIPT, its
receipt id, and else none. Which receipt was asked for makes no difference. -/
theorem disconnect_reports (hholds : Holds t version s) (hsends : s.socket.peer.send.1 = none)
    (hid : receiptId ≠ []) (hfree : receiptId.SurrogateFree) (x : Coming version)
    (later : List (Coming version)) (rest : Bytes)
    (havailable : s.available = (x :: later).flatMap Coming.wire ++ rest)
    (hsoon : ∀ n ≤ x.wire.length, s.wait n < 10) (env : Environment) :
    ((disconnect (some receiptId)).on t env).2.1 = {} ∧
      ∃ reported, ((disconnect (some receiptId)).on t env).1 =
          .ok (.disconnected (some reported)) ∧
        ∀ id, reported = some id ↔ x.frame.command = Command.receipt.name ∧
          x.frame.headers.get? Headers.Name.receiptId = some id := by
  obtain ⟨hlive, broker, connected, rfl⟩ := hholds
  -- what comes later is just more of what stands behind the first frame
  rw [List.flatMap_cons, List.append_assoc] at havailable
  rw [on_disconnect_of_some]
  refine ⟨rfl, _, ?_, fun id => Frame.receipt?_bind_eq_some_iff⟩
  rw [farewell_reports rfl hlive rfl hsends hid hfree x havailable hsoon]
  rfl

/-- The receipt of a request, as it comes. -/
def receiptBye : Coming "1.0" where
  frame := ⟨"RECEIPT", Headers.empty.set Headers.Name.receiptId "bye", []⟩
  wire := octets "RECEIPT\nreceipt-id:bye\n\n\x00"
  read_eq := by decide +kernel

/-- The receipt of a request that was made earlier. -/
def receiptOther : Coming "1.0" where
  frame := ⟨"RECEIPT", Headers.empty.set Headers.Name.receiptId "other", []⟩
  wire := octets "RECEIPT\nreceipt-id:other\n\n\x00"
  read_eq := by decide +kernel

/-- A message that a subscription has under way. -/
def messageHi : Coming "1.0" where
  frame := hi
  wire := octets "MESSAGE\nmessage-id:1\n\nhi\x00"
  read_eq := by decide +kernel

/-- What comes after the broker has accepted: some frames at once. -/
def comingAtOnce (frames : List (Coming "1.0")) : List Network.Event :=
  [.arrival 0 (.data (frames.flatMap Coming.wire))]

/-- The call that begins a session with a broker that then sends these frames. -/
def connectTo (frames : List (Coming "1.0")) : Call :=
  .connect { events := .arrival 0 (.data (octets "CONNECTED\n\n\x00")) :: comingAtOnce frames }
    "guest" "pw" ⟨"localhost", 61613⟩ none

theorem disconnect_reports_bye :
    let t := ((connectTo [receiptBye, messageHi]).operation.on {} {}).2.1
    let env := ((connectTo [receiptBye, messageHi]).operation.on {} {}).2.2
    ((disconnect (some "bye")).on t env).1 = .ok (.disconnected (some (some "bye"))) := by
  intro t env
  set s : Stream := {
    socket := ⟨0, { events := comingAtOnce [receiptBye, messageHi] }⟩
    deadline := some 10 }
  have ht : t =
      { session := some
          ⟨{ stream := some s, connected := true, version := "1.0" }, ⟨"localhost", 61613⟩⟩ } := by
    decide +kernel
  have hlive : Live s := ⟨rfl, by decide, by decide +kernel⟩
  obtain ⟨-, reported, hanswer, hreported⟩ := disconnect_reports ⟨hlive, _, _, ht⟩ rfl (by decide)
    (Text.surrogateFree_ofString "bye") receiptBye [messageHi] [] (by decide +kernel)
    (by decide +kernel) env
  rw [hanswer, (hreported "bye").mpr (by decide +kernel)]

/-- **The receipt that was asked for is overlooked** behind a message, and behind another receipt,
which is reported in its place. -/
theorem disconnect_overlooks :
    (history Call.operation [connectTo [messageHi, receiptBye], .disconnect (some "bye")]
        {} {}).map Deed.outcome =
          [.ok (.connected ⟨"localhost", 61613⟩ "1.0"), .ok (.disconnected (some none))] ∧
      (history Call.operation [connectTo [receiptOther, receiptBye], .disconnect (some "bye")]
        {} {}).map Deed.outcome =
          [.ok (.connected ⟨"localhost", 61613⟩ "1.0"),
            .ok (.disconnected (some (some "other")))] := by
  decide +kernel

end Tools

end Stomp
