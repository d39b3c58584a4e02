import Stomp.Proofs.Connection.EitherWay
import Stomp.Tools.Call

/-!
# Receiving with the tools, again and again

A tool that waits for a frame answers that none came when the time is up, and the session goes on.
What this means for the frames is said by where the next call begins. **Between frames**
(`Awaits`) nothing but line feeds stands before the next frame. A call that begins there ends in one
of three ways (`receive_step`): it answers the next frame, and the following call begins after it;
it answers that the time was up, and has taken line feeds at most; or it answers that the time was
up when it had taken a part of the frame, and this part is gone (`Cut`).

So the calls answer the frames in order, each as it is, with some answers between them that the time
was up, until all frames are received or a frame is cut (`receive_again`). What follows a cut frame
is read from the middle of it, and may be anything (`receive_after_cut`).
-/

namespace Stomp.Tools

open Operation (after deed history history_cons)
open Stomp.Stream (Live)
open Utf8 (octets)

/-- The answer that shows a frame. -/
def shown (f : Frame) : Answer := .received f.view (f.message?.map Reply.Message.messageId)

/-- **Receiving is answered** by the frame, or by the time being up if the connection says so. -/
theorem on_receive (session : Session) (limit : Seconds) (outcome : Except Error Frame)
    {c : Connection} {env env' : Environment} (hopen : session.connection.isOpen)
    (hon : (Connection.Call.frame.action (some limit.value)).operation.on session.connection env =
      (outcome.map .frame, c, env')) :
    (receive (some limit)).on { session := some session } env =
      (match outcome with
        | .ok f => .ok (shown f)
        | .error (.timeout _) => .ok (.nothingReceived limit)
        | .error e => .error e,
      { session := some ⟨c, session.broker⟩ }, env') := by
  have hreceive := Connection.Call.on_receive_iff.mp hon
  have hconnection :
      (onConnection (Connection.receive (some limit.value))).on { session := some session } env =
        (outcome, { session := some ⟨c, session.broker⟩ }, env') := by
    simp only [onConnection, Operation.on_bind, Operation.on_subject, if_pos hopen,
      on_onSession_of_some rfl, hreceive]
  rw [receive, Operation.on_bind, Operation.on_attempt]
  simp only [Option.map_some, hconnection]
  cases outcome with
  -- of the errors only the time limit is made an answer
  | ok f => rfl
  | error e => cases e <;> rfl

/-! ### Frames that are sent -/

/-- **A frame as it is sent** to one who reads a version: its written form is read as the frame, and
some line feeds may follow it. -/
structure Sent (version : Text) where
  frame : Frame
  wire : Bytes
  blanks : Nat := 0
  toBytes_eq : frame.toBytes = .ok wire
  read_eq : (Frame.read version (⟨wire, none⟩ : Memory)).1 = .ok frame

/-- All the bytes that are sent with the frame. -/
def Sent.bytes {version : Text} (x : Sent version) : Bytes :=
  x.wire ++ List.replicate x.blanks Octet.lineFeed

/-- The frame is what a call reads, also with line feeds before it. -/
theorem Sent.reads {version : Text} (x : Sent version) (gap : Nat) :
    Connection.Call.frame.Reads version (List.replicate gap Octet.lineFeed ++ x.wire)
      (.ok (.frame x.frame)) := by
  obtain ⟨v, hversion, hscan⟩ := Frame.scan_toBytes_of_read x.toBytes_eq x.read_eq
  -- line feeds in front are blank lines at any version
  have hblank : ∀ line ∈ List.replicate gap ([] : Bytes), v.dialect.Blank line := by
    intro line hline
    rw [List.eq_of_mem_replicate hline]
    exact ⟨List.not_mem_nil, Dialect.trimLine_of_getLast?_ne (by simp)⟩
  rw [Connection.Call.reads_frame_iff hversion, ← Bytes.unlines_replicate_nil,
    Frame.Decoder.scan_start_unlines hblank, hscan]

/-! ### Where a call begins -/

section Calls

variable {version : Text}

/-- **The tools hold a stream that can be read**, on a connection that speaks a version. -/
def Holds (t : Tools) (version : Text) (s : Stream) : Prop :=
  Live s ∧ ∃ broker connected,
    t = { session := some ⟨{ stream := some s, connected, version }, broker⟩ }

/-- **The tools stand between frames**: those that are sent are to come, and nothing but line feeds
before them. -/
def Awaits (t : Tools) (sent : List (Sent version)) (rest : Bytes) : Prop :=
  ∃ s gap, Holds t version s ∧
    s.available = List.replicate gap Octet.lineFeed ++ (sent.flatMap Sent.bytes ++ rest)

/-- **A frame is cut**: its first bytes are gone, and all others are still to come. -/
def Cut (t : Tools) (x : Sent version) (sent : List (Sent version)) (rest : Bytes) : Prop :=
  ∃ s taken missing, Holds t version s ∧ x.wire = taken ++ missing ∧ taken ≠ [] ∧ missing ≠ [] ∧
    s.available = missing ++ (List.replicate x.blanks Octet.lineFeed ++
      (sent.flatMap Sent.bytes ++ rest))

/-- Bytes that were taken before a frame was complete are line feeds before it, or all of these and
a part of the frame. -/
theorem taken_cases {gap : Nat} {wire taken later : Bytes}
    (h : List.replicate gap Octet.lineFeed ++ wire = taken ++ later) :
    (∃ left, later = List.replicate left Octet.lineFeed ++ wire) ∨
      ∃ part, part ≠ [] ∧ wire = part ++ later := by
  rcases List.append_eq_append_iff.mp h with ⟨part, rfl, rfl⟩ | ⟨left, hgap, rfl⟩
  · -- all line feeds are taken, and something of the frame if the part is not empty
    by_cases hpart : part = []
    · subst hpart
      exact .inl ⟨0, rfl⟩
    · exact .inr ⟨part, hpart, rfl⟩
  · -- only some line feeds are taken
    obtain ⟨-, -, hleft⟩ := List.append_eq_replicate_iff.mp hgap.symm
    exact .inl ⟨left.length, by rw [← hleft]⟩

/-- **One call** that begins between frames answers the next frame; or that the time was up, and has
taken line feeds at most, or has cut the frame. -/
theorem receive_step {t : Tools} {x : Sent version} {sent : List (Sent version)} {rest : Bytes}
    (h : Awaits t (x :: sent) rest) (limit : Seconds) (env : Environment) :
    ((receive (some limit)).on t env).1 = .ok (shown x.frame) ∧
        Awaits ((receive (some limit)).on t env).2.1 sent rest ∨
      ((receive (some limit)).on t env).1 = .ok (.nothingReceived limit) ∧
        (Awaits ((receive (some limit)).on t env).2.1 (x :: sent) rest ∨
          Cut ((receive (some limit)).on t env).2.1 x sent rest) := by
  obtain ⟨s, gap, ⟨hlive, broker, connected, rfl⟩, havailable⟩ := h
  rw [List.flatMap_cons, Sent.bytes, List.append_assoc, List.append_assoc,
    ← List.append_assoc] at havailable
  set c : Connection := { stream := some s, connected, version }
  rcases Connection.Call.frame.served_or_late (c := c) (some limit.value) rfl hlive rfl env
    havailable (x.reads gap) with ⟨s', env', hon, hserved⟩ |
      ⟨fault, s', env', taken, later, hon, hsplit, hlater, -, hlate⟩
  · -- served: what is left begins with the line feeds behind the frame
    rw [on_receive ⟨c, broker⟩ limit (.ok x.frame) rfl hon]
    refine .inl ⟨rfl, s', x.blanks, ⟨hserved.live, broker, connected, rfl⟩, ?_⟩
    exact List.append_cancel_left (hserved.available_eq.symm.trans havailable)
  · rw [on_receive ⟨c, broker⟩ limit (.error (.timeout fault)) rfl hon]
    have hholds : Holds ({ session := some ⟨{ stream := some s', connected, version }, broker⟩ })
        version s' := ⟨hlate.live, broker, connected, rfl⟩
    -- what was not taken is still to come
    have hstill : s'.available = later ++ (List.replicate x.blanks Octet.lineFeed ++
        (sent.flatMap Sent.bytes ++ rest)) := by
      have hall := hlate.available_eq.symm.trans havailable
      rw [hsplit, List.append_assoc] at hall
      exact List.append_cancel_left hall
    refine .inr ⟨rfl, ?_⟩
    -- late: what was taken decides whether the frame is cut
    rcases taken_cases hsplit with ⟨left, rfl⟩ | ⟨part, hpart, hwire⟩
    · refine .inl ⟨s', left, hholds, ?_⟩
      rw [hstill, List.flatMap_cons, Sent.bytes, List.append_assoc, List.append_assoc,
        List.append_assoc]
    · exact .inr ⟨s', part, later, hholds, hwire, hpart, hlater, hstill⟩

/-! ### Any number of calls -/

/-- **Calls in order**, with some frames still to come. Each answers the next frame, or that the
time was up. This goes on until there are no more calls, until there are no more frames, or until a
call cuts a frame. -/
inductive InOrder (rest : Bytes) :
    List (Sent version) → List Seconds → Tools → Environment → Prop
  /-- There are no more calls, and the frames that were not received are still to come. -/
  | noMoreCalls {sent : List (Sent version)} {t : Tools} {env : Environment}
    (h : Awaits t sent rest) : InOrder rest sent [] t env
  /-- All frames are received, and nothing else. -/
  | noMoreFrames {limits : List Seconds} {t : Tools} {env : Environment}
    (h : Awaits t ([] : List (Sent version)) rest) : InOrder rest [] limits t env
  | received {x : Sent version} {sent : List (Sent version)} {limit : Seconds}
    {limits : List Seconds} {t : Tools} {env : Environment}
    (h : ((receive (some limit)).on t env).1 = .ok (shown x.frame))
    (later : InOrder rest sent limits ((receive (some limit)).on t env).2.1
      ((receive (some limit)).on t env).2.2) :
    InOrder rest (x :: sent) (limit :: limits) t env
  | timeUp {sent : List (Sent version)} {limit : Seconds} {limits : List Seconds} {t : Tools}
    {env : Environment} (h : ((receive (some limit)).on t env).1 = .ok (.nothingReceived limit))
    (later : InOrder rest sent limits ((receive (some limit)).on t env).2.1
      ((receive (some limit)).on t env).2.2) :
    InOrder rest sent (limit :: limits) t env
  /-- The time was up within a frame. What the other calls answer is not said. -/
  | cut {x : Sent version} {sent : List (Sent version)} {limit : Seconds} {limits : List Seconds}
    {t : Tools} {env : Environment}
    (h : ((receive (some limit)).on t env).1 = .ok (.nothingReceived limit))
    (hcut : Cut ((receive (some limit)).on t env).2.1 x sent rest) :
    InOrder rest (x :: sent) (limit :: limits) t env

/-- **Receiving again and again gives the frames in order**, each as it was sent, in whatever pieces
and with whatever delays its bytes come and however long the calls wait: every answer is the next
frame or that the time was up, unless a call before it has cut a frame. -/
theorem receive_again {t : Tools} {sent : List (Sent version)} {rest : Bytes}
    (h : Awaits t sent rest) (limits : List Seconds) (env : Environment) :
    InOrder rest sent limits t env := by
  induction limits generalizing t sent env with
  | nil => exact .noMoreCalls h
  | cons limit limits ih =>
    cases sent with
    | nil => exact .noMoreFrames h
    | cons x sent =>
      -- one step, and the later calls begin where it ends unless it has cut the frame
      rcases receive_step h limit env with ⟨hanswer, hnext⟩ | ⟨hanswer, hsame | hcut⟩
      · exact .received hanswer (ih hnext _)
      · exact .timeUp hanswer (ih hsame _)
      · exact .cut hanswer hcut

end Calls

/-- A message. -/
def hi : Frame where
  command := "MESSAGE"
  headers := Headers.empty.set Headers.Name.messageId "1"
  body := octets "hi"

/-- The message as it is sent, with a line feed behind it. -/
def sentHi : Sent "1.0" where
  frame := hi
  wire := octets "MESSAGE\nmessage-id:1\n\nhi\x00"
  blanks := 1
  toBytes_eq := by decide +kernel
  read_eq := by decide +kernel

/-- The message comes in two pieces, the second one five seconds after the first. -/
def inPieces : List Network.Event :=
  [.arrival 0 (.data (sentHi.bytes.take 21)), .arrival 5 (.data (sentHi.bytes.drop 21))]

/-- A broker that accepts, and then sends the message. -/
def slowBroker : Network.Peer where
  events := .arrival 0 (.data (octets "CONNECTED\n\n\x00\n")) :: inPieces

/-- The call that begins a session with it. -/
def connectSlowly : Call := .connect slowBroker "guest" "pw" ⟨"localhost", 61613⟩ none

/-- The stream that the session then holds, with a line feed left over. -/
def slowStream : Stream where
  socket := ⟨0, { events := inPieces }⟩
  unread := [Octet.lineFeed]
  deadline := some 10

theorem receive_again_slowly :
    let t := (connectSlowly.operation.on {} {}).2.1
    let env := (connectSlowly.operation.on {} {}).2.2
    Awaits t [sentHi] [] ∧ InOrder [] [sentHi] [.whole 6, .whole 1] t env := by
  intro t env
  have hlive : Live slowStream := ⟨rfl, by decide, by decide +kernel⟩
  have ht : t =
      { session := some
          ⟨{ stream := some slowStream, connected := true, version := "1.0" },
            ⟨"localhost", 61613⟩⟩ } := by
    decide +kernel
  have hawaits : Awaits t [sentHi] [] :=
    ⟨slowStream, 1, ⟨hlive, _, _, ht⟩, by decide +kernel⟩
  exact ⟨hawaits, receive_again hawaits _ env⟩

/-- **A frame that was cut is lost**, and what is left of it is taken for something else: the call
after the one that was late fails. -/
theorem receive_after_cut :
    (history Call.operation [connectSlowly, .receive (some (.whole 1)), .receive (some (.whole 10))]
      {} {}).map Deed.outcome =
        [.ok (.connected ⟨"localhost", 61613⟩ "1.0"), .ok (.nothingReceived (.whole 1)),
          .error (.protocol (.unknownCommand "hi\x00"))] := by
  decide +kernel

end Stomp.Tools
