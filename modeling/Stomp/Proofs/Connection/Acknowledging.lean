import Stomp.Proofs.Connection.Sending
import Stomp.Proofs.Connection.Serving
import Stomp.Proofs.Frame.Agreement
import Stomp.Proofs.Frame.Spelling

/-!
# Acknowledging a message

A message is acknowledged under the id that it was received with, and the id is written as it
stands. It was unescaped when it was received, and nothing is escaped when it is sent: so from 1.1
on the acknowledgement names another message, or none, if the id holds what the peer takes for an
escape or for the end of a line.

What is received has a `Layout` (`exists_layout_of_receive`), so its id came from a header line. It
is free of surrogates, its line is not too long, and before 1.1 there is no line feed in it
(`Frame.Named`). These are all but the conditions for a frame with that one header to come back
from the wire (`sendable_frame_iff`), and those that are left are the ones of the main statement,
`acknowledged_iff`.
-/

namespace Stomp

open Utf8 (octets)

/-! ### What a received header can be -/

namespace Version

variable {v : Version}

/-- Escapes bring no surrogates. -/
theorem Means.surrogateFree {t u : Text} (h : v.Means t u) (ht : t.SurrogateFree) :
    u.SurrogateFree := by
  induction h with
  | nil => exact ht
  | plain _ _ ih =>
    obtain ⟨hc, ht⟩ := List.forall_mem_cons.mp ht
    exact List.forall_mem_cons.mpr ⟨hc, ih ht⟩
  -- a pair means one of four characters, and none of these is a surrogate
  | pair hpair _ ih =>
    have ht := (List.forall_mem_cons.mp (List.forall_mem_cons.mp ht).2).2
    refine List.forall_mem_cons.mpr ⟨?_, ih ht⟩
    cases hpair <;> exact CodePoint.not_isSurrogate_ofChar _

theorem Stands.surrogateFree {c : Command} {t u : Text} (h : v.Stands c t u)
    (ht : t.SurrogateFree) : u.SurrogateFree := by
  cases h with
  | verbatim => exact ht
  | escaped _ _ _ h => exact h.surrogateFree ht

end Version

namespace Frame

/-- A frame has a header, as a frame that was received at a version can have it. -/
structure Named (v : Version) (name value : Text) : Prop where
  surrogateFree : value.SurrogateFree
  length_le : (Headers.lineOf (name, value)).length ≤ maxHeaderLength
  lineFeed_not_mem : v < ⟨[1, 1]⟩ → CodePoint.ofChar '\n' ∉ value

theorem named_of_headerLine {v : Version} {c : Command} {line : Bytes} {name value : Text}
    (h : v.dialect.HeaderLine c line (name, value)) : Named v name value := by
  obtain ⟨-, raw, text, -, hfree, -, -, hvalue⟩ := Version.entry_iff.mpr h
  refine ⟨?_, Nat.le_trans h.length_lineOf_le.1 h.length_le, fun hv => ?_⟩
  · -- the value is read from the part of the line behind the colon
    refine hvalue.surrogateFree fun c hc => hfree c ?_
    exact List.mem_append_right _ (List.mem_cons_of_mem _ hc)
  · -- before 1.1 nothing is unescaped, so the value stands in its line as it is
    rw [Version.dialect_eq_v10_iff.mpr hv] at h
    exact (headerLine_v10_iff.mp h).1.onOneLine.value_lineFeed_not_mem

/-- A header that was received came from a line. -/
theorem named_of_layout {v : Version} {f : Frame} (l : Layout v.dialect f) {name value : Text}
    (h : f.headers.get? name = some value) : Named v name value := by
  rw [l.headers_eq, (Headers.firstOf_collect _).get?_eq] at h
  obtain ⟨before, later, heq, -⟩ := List.lookup_eq_some_iff.mp h
  -- a value that is found is that of one of the lines
  obtain ⟨line, hmem, hline⟩ : ∃ line ∈ l.lines, line.2 = (name, value) :=
    List.mem_map.mp (heq ▸ List.mem_append_right before (List.mem_cons_self ..))
  exact named_of_headerLine (hline ▸ l.lines_read line hmem)

/-- **A frame without a body is told by its command and its headers.** If a frame with the same
command and headers is read from its written form, then it is this frame, and nothing is left. -/
theorem eq_of_read_toBytes {f g : Frame} {wire : Bytes} (hwire : g.toBytes = .ok wire)
    (hbody : g.body = []) {version : Text} {v : Version}
    (hversion : Version.parse? version = some v) {cap : Option Nat} (hcap : cap ≠ some 0)
    {left : Memory} (hread : Frame.read version (⟨wire, cap⟩ : Memory) = (.ok f, left))
    (hcommand : f.command = g.command) (hheaders : f.headers = g.headers) :
    f = g ∧ left = ⟨[], cap⟩ := by
  obtain ⟨-, hwire⟩ := toBytes_eq_ok_iff.mp hwire
  have hhead : f.head = g.head := by rw [head_eq, head_eq, hcommand, hheaders]
  obtain ⟨rest, rfl⟩ : ∃ rest, left = ⟨rest, cap⟩ := by
    rw [read_memory hversion hcap] at hread
    split at hread
    · exact ⟨_, (Prod.mk.inj hread).2.symm⟩
    · cases hread
  obtain ⟨l, hl⟩ := (read_memory_eq_ok_iff hversion hcap).mp hread
  -- the layout is no longer than what was written, and no shorter than what was read
  have hle := length_written_le l
  have hlength := congrArg List.length (hwire.symm.trans hl)
  rw [hhead] at hle
  rw [hbody] at hlength
  simp only [List.length_append, List.length_nil, List.length_singleton] at hle hlength
  -- as many bytes were read as were written, so none is left for a body or for a rest
  have hnothing : f.body = [] := List.eq_nil_of_length_eq_zero (by omega)
  obtain rfl : rest = [] := List.eq_nil_of_length_eq_zero (by omega)
  obtain ⟨command, headers, body⟩ := f
  obtain ⟨command', headers', body'⟩ := g
  cases hcommand
  cases hheaders
  cases hnothing
  cases hbody
  exact ⟨rfl, rfl⟩

end Frame

/-! ### Acknowledgements -/

/-- A message is acknowledged as taken, or as not taken. -/
inductive Acknowledgement
  | taken
  | refused
deriving DecidableEq, Repr

namespace Acknowledgement

def command : Acknowledgement → Command
  | taken => .ack
  | refused => .nack

/-- The request that acknowledges a message. -/
def request : Acknowledgement → Frame → Request
  | taken, m => .ack (.frame m) none
  | refused, m => .nack (.frame m) none

/-- The frame that acknowledges the message of an id. -/
def frame (a : Acknowledgement) (id : Text) : Frame where
  command := a.command.name
  headers := Headers.empty.set Headers.Name.messageId id

/-- The bytes that acknowledge the message of an id. -/
def wire (a : Acknowledgement) (id : Text) : Bytes :=
  octets (a.command.name ++ "\nmessage-id:" ++ id ++ "\n\n\x00")

variable {v : Version} {a : Acknowledgement} {m : Frame} {id : Text}

@[simp] theorem entries_frame (a : Acknowledgement) (id : Text) :
    (a.frame id).headers.entries = [(Headers.Name.messageId, id)] := rfl

theorem frame_request (h : m.headers.get? Headers.Name.messageId = some id) :
    (a.request m).frame = .ok (a.frame id) := by
  cases a with
  | taken | refused =>
    rw [request, Request.frame, Request.ackHeaders, MessageRef.id?, h]
    rfl

/-- The id is written as it stands. -/
theorem toBytes_frame (h : id.SurrogateFree) : (a.frame id).toBytes = .ok (a.wire id) := by
  have hhead : (a.frame id).head.SurrogateFree := by
    refine Frame.surrogateFree_head_iff.mpr ⟨a.command.surrogateFree_name, fun e he => ?_⟩
    obtain rfl := List.mem_singleton.mp he
    exact ⟨Text.surrogateFree_ofString _, h⟩
  have hname : Text.ofString "\nmessage-id:" =
      Text.ofString "\n" ++ Headers.Name.messageId ++ Text.ofString ":" := by decide
  have hend : Text.ofString "\n\n\x00" =
      Text.ofString "\n" ++ Text.ofString "\n" ++ Text.ofString "\x00" := by decide
  have hnul : octets (Text.ofString "\x00") = [Octet.nul] := by decide
  -- the bytes of the acknowledgement are the head of the frame and a NUL
  have hwire : a.wire id = octets (a.frame id).head ++ [Octet.nul] := by
    rw [wire, hname, hend, ← hnul, ← Utf8.octets_append, Frame.head_eq, entries_frame,
      List.flatMap_singleton, Frame.headerLine]
    simp only [frame, List.append_assoc]
  rw [Frame.toBytes_eq_ok_iff]
  refine ⟨hhead, ?_⟩
  rw [hwire]
  simp [frame]

/-- **What an acknowledgement takes to come back from the wire**, if its id was received. -/
theorem sendable_frame_iff (h : Frame.Named v Headers.Name.messageId id) :
    (a.frame id).Sendable v ↔
      v < ⟨[1, 1]⟩ ∨
        CodePoint.ofChar '\\' ∉ id ∧ CodePoint.ofChar '\n' ∉ id ∧
          (¬ v < ⟨[1, 2]⟩ → id.getLast? ≠ some (CodePoint.ofChar '\r')) := by
  constructor
  · -- of what the frame has to satisfy, three conditions are about its one value
    intro hsendable
    by_cases hv : v < ⟨[1, 1]⟩
    · exact .inl hv
    · have hmem : (Headers.Name.messageId, id) ∈ (a.frame id).headers.entries :=
        List.mem_singleton_self _
      have hcommand : a.command.name ≠ Command.connect.name ∧
          a.command.name ≠ Command.connected.name := by cases a <;> decide
      exact .inr ⟨(hsendable.backslashes hv hcommand.1 hcommand.2 _ hmem).2,
        hsendable.values _ hmem, fun hv' => hsendable.carriageReturns hv' _ hmem⟩
  · -- and the others hold of every received id, or of the name
    intro hid
    have hfeed : CodePoint.ofChar '\n' ∉ id := by
      rcases hid with hv | ⟨-, hfeed, -⟩
      · exact h.lineFeed_not_mem hv
      · exact hfeed
    have hreturn : ¬ v < ⟨[1, 2]⟩ → id.getLast? ≠ some (CodePoint.ofChar '\r') := by
      rcases hid with hv | ⟨-, -, hreturn⟩
      · -- a version before 1.1 is one before 1.2
        intro hno
        have hd := Version.dialect_eq_v10_iff.mpr hv
        rw [Version.dialect_eq_v12_iff.mpr hno] at hd
        cases hd
      · exact hreturn
    have hname : CodePoint.ofChar ':' ∉ Headers.Name.messageId ∧
        CodePoint.ofChar '\n' ∉ Headers.Name.messageId ∧
        CodePoint.ofChar '\\' ∉ Headers.Name.messageId := by decide
    have hentry : ∀ e ∈ (a.frame id).headers.entries, e = (Headers.Name.messageId, id) :=
      fun _ => List.mem_singleton.mp
    exact {
      command := ⟨a.command, rfl⟩
      names := fun e he => hentry e he ▸ ⟨hname.1, hname.2.1⟩
      values := fun e he => hentry e he ▸ hfeed
      size_le := Nat.le_of_lt (by decide : 1 < 1000)
      lines := fun e he => hentry e he ▸ h.length_le
      backslashes := fun hv _ _ e he => hentry e he ▸ ⟨hname.2.2, (hid.resolve_left hv).1⟩
      carriageReturns := fun hv e he => hentry e he ▸ hreturn hv
      body := List.not_mem_nil }

end Acknowledgement

namespace Connection

/-! ### Receiving and sending -/

/-- What is received stood on the wire. -/
theorem exists_layout_of_receive {c c' : Connection} {env env' : Environment}
    {timeout : Option Rat} {m : Frame} {v : Version}
    (hversion : Version.parse? c.version = some v)
    (h : (receive timeout).on c env = (.ok m, c', env')) : Nonempty (Layout v.dialect m) := by
  rw [on_receive] at h
  cases hstream : c.stream with
  | none =>
    rw [on_onStream_of_none hstream] at h
    cases h
  | some s =>
    rw [on_onStream_of_some hstream] at h
    rcases hinput : (input timeout c.version).on s env with ⟨e | f, s', env₁⟩
    · rw [hinput] at h
      cases h
    · -- a frame was received, so it was read from the stream
      rw [hinput] at h
      cases h
      obtain ⟨-, s₁, env₂, -, hread⟩ := Operation.on_bind_eq_ok.mp hinput
      obtain ⟨w, hw, l, -⟩ := exists_layout_of_read hread
      obtain rfl : v = w := Option.some.inj (hversion.symm.trans hw)
      exact ⟨l⟩

/-- A text and the bytes after it go out in one attempt, after what waits to be sent. -/
theorem acts_sendText {c : Connection} {s : Stream} (hstream : c.stream = some s)
    (hopen : s.closed = false) {text : Text} {head bytes : Bytes} (hencode : text.encode = .ok head)
    (hne : head ++ bytes ≠ []) (env : Environment) :
    ((sendText text bytes).on c env).2.2.acts =
      env.acts ++ [⟨env.clock, some s.socket.number,
        Stream.sendAct s.socket.peer (s.unsent ++ (head ++ bytes))⟩] := by
  have hclosed : ¬ s.closed = true := by
    rw [hopen]
    exact Bool.false_ne_true
  -- something waits to be sent when it comes to flushing, so there is an attempt
  have hunsent : s.unsent ++ head ++ bytes ≠ [] := by
    rw [List.append_assoc]
    exact List.append_ne_nil_of_right_ne_nil _ hne
  rw [sendText_eq_onStream, on_onStream_of_some hstream, output, Operation.on_bind, hencode,
    Operation.on_ofExcept]
  dsimp only
  rw [Operation.on_bind, Stream.write_of_open hopen]
  dsimp only
  rw [Operation.on_bind, Stream.write_of_open (s := { s with unsent := s.unsent ++ head }) hopen]
  dsimp only
  rw [Stream.on_flush, if_neg hclosed, if_neg hunsent, List.append_assoc]

/-- **An acknowledgement is sent** in one attempt, its id as it stands. -/
theorem acts_acknowledge {c : Connection} {s : Stream} (hstream : c.stream = some s)
    (hopen : s.closed = false) {m : Frame} {id : Text}
    (hid : m.headers.get? Headers.Name.messageId = some id) (hfree : id.SurrogateFree)
    (a : Acknowledgement) (env : Environment) :
    ((request (a.request m)).on c env).2.2.acts =
      env.acts ++ [⟨env.clock, some s.socket.number,
        Stream.sendAct s.socket.peer (s.unsent ++ a.wire id)⟩] := by
  have hwire := Acknowledgement.toBytes_frame (a := a) hfree
  -- there is no body, so the text of the frame is its head and a NUL
  have hempty : Bytes.decode [] = .ok [] :=
    Bytes.decode_eq_ok_iff.mpr ⟨fun _ => List.not_mem_nil.elim, rfl⟩
  have htext : (a.frame id).toText = .ok ((a.frame id).head ++ [] ++ Text.ofString "\x00") := by
    rw [Frame.toText, Frame.bodyText, Acknowledgement.frame, hempty]
    rfl
  have hencode := Frame.toOption_encode_toText htext
  rw [hwire] at hencode
  have hne : a.wire id ++ [] ≠ [] :=
    List.append_ne_nil_of_left_ne_nil (Frame.toBytes_ne_nil hwire) _
  have hrequest : (a.request m).enters = false ∧ (a.request m).leaves = false := by
    cases a <;> exact ⟨rfl, rfl⟩
  rw [on_request_of_plain hrequest.1 hrequest.2 (Acknowledgement.frame_request hid), sendFrame,
    Operation.on_bind, Operation.on_notify]
  dsimp only
  rw [Operation.on_bind, htext, Operation.on_ofExcept]
  dsimp only
  rw [acts_sendText hstream hopen (toOption_eq_some_iff.mp hencode) hne, List.append_nil]

/-- **Which acknowledgements name their message.** A message that is received is acknowledged with
the id that it was received with, in one attempt to send and as it stands. The peer that decodes
these bytes at the version at which the message was received finds the acknowledgement of just this
id if and only if the version is before 1.1, or the id holds no backslash and no line feed and, from
1.2 on, does not end in a carriage return. -/
theorem acknowledged_iff {c c' : Connection} {env env' : Environment} {timeout : Option Rat}
    {m : Frame} {v : Version} (hversion : Version.parse? c.version = some v)
    (hreceived : (receive timeout).on c env = (.ok m, c', env')) {id : Text}
    (hid : m.headers.get? Headers.Name.messageId = some id) (a : Acknowledgement) :
    (∀ {d : Connection} {s : Stream} (start : Environment), d.stream = some s →
        s.closed = false →
        ((request (a.request m)).on d start).2.2.acts =
          start.acts ++ [⟨start.clock, some s.socket.number,
            Stream.sendAct s.socket.peer (s.unsent ++ a.wire id)⟩]) ∧
      ∀ cap : Option Nat, cap ≠ some 0 →
        ((∃ f left, Frame.read c.version (⟨a.wire id, cap⟩ : Memory) = (.ok f, left) ∧
            f.command = a.command.name ∧ f.headers.entries = [(Headers.Name.messageId, id)]) ↔
          v < ⟨[1, 1]⟩ ∨
            CodePoint.ofChar '\\' ∉ id ∧ CodePoint.ofChar '\n' ∉ id ∧
              (¬ v < ⟨[1, 2]⟩ → id.getLast? ≠ some (CodePoint.ofChar '\r'))) := by
  obtain ⟨l⟩ := exists_layout_of_receive hversion hreceived
  have hnamed := Frame.named_of_layout l hid
  have hwire := Acknowledgement.toBytes_frame (a := a) hnamed.surrogateFree
  refine ⟨fun start hstream hopen =>
    acts_acknowledge hstream hopen hid hnamed.surrogateFree a start, fun cap hcap => ?_⟩
  -- that the written frame is read back as itself is the same as that it is sendable
  have hread := Frame.read_toBytes_append_iff hwire (Nat.zero_le _) hversion hcap []
  rw [List.append_nil] at hread
  rw [← Acknowledgement.sendable_frame_iff (a := a) hnamed, ← hread]
  constructor
  · -- a frame with this command and this header alone can only be the one that was written
    rintro ⟨f, left, hf, hcommand, hentries⟩
    obtain ⟨rfl, rfl⟩ := Frame.eq_of_read_toBytes hwire rfl hversion hcap hf hcommand
      (Headers.ext hentries)
    exact hf
  · intro h
    exact ⟨_, _, h, rfl, rfl⟩

/-- A connection on which a message arrives, with an id as it stands in the line. -/
def hearing (version line : Text) : Connection where
  version
  stream := some { socket := ⟨0, { events :=
    [.arrival 0 (.data (octets ("MESSAGE\nmessage-id:" ++ line ++ "\n\n\x00")))] }⟩ }

/-- The message of an id. -/
def messageOf (id : Text) : Frame where
  command := "MESSAGE"
  headers := Headers.empty.set Headers.Name.messageId id

theorem acknowledged_colon :
    Version.parse? "1.2" = some ⟨[1, 2]⟩ ∧
      ((receive none).on (hearing "1.2" "q\\c7") {}).1 = .ok (messageOf "q:7") ∧
      (messageOf "q:7").headers.get? Headers.Name.messageId = some "q:7" ∧
      ∃ f left, Frame.read "1.2" (⟨octets "NACK\nmessage-id:q:7\n\n\x00", some 5⟩ : Memory) =
          (.ok f, left) ∧
        f.command = "NACK" ∧
        f.headers.entries = [(Headers.Name.messageId, Text.ofString "q:7")] := by
  have hversion : Version.parse? "1.2" = some ⟨[1, 2]⟩ := by decide +kernel
  have hreceived : ((receive none).on (hearing "1.2" "q\\c7") {}).1 = .ok (messageOf "q:7") := by
    decide +kernel
  have hid : (messageOf "q:7").headers.get? Headers.Name.messageId = some "q:7" := by
    decide +kernel
  -- a colon is none of the marks that make an id come back as another
  have hplain : CodePoint.ofChar '\\' ∉ Text.ofString "q:7" ∧
      CodePoint.ofChar '\n' ∉ Text.ofString "q:7" ∧
        (¬ (⟨[1, 2]⟩ : Version) < ⟨[1, 2]⟩ →
          (Text.ofString "q:7").getLast? ≠ some (CodePoint.ofChar '\r')) := by decide +kernel
  have hwire : Acknowledgement.refused.wire "q:7" = octets "NACK\nmessage-id:q:7\n\n\x00" := by
    decide +kernel
  have h := (acknowledged_iff (c := hearing "1.2" "q\\c7") hversion (Prod.ext hreceived rfl) hid
    .refused).2 (some 5) (by decide)
  rw [hwire] at h
  exact ⟨hversion, hreceived, hid, h.mpr (.inr hplain)⟩

/-- **An id with a backslash is not acknowledged.** The broker escapes it, so that it is received as
it is; it is sent as it is too, and cannot be decoded. -/
theorem backslash_not_acknowledged :
    let heard := (receive none).on (hearing "1.1" "a\\\\b") {}
    let wire := octets "ACK\nmessage-id:a\\b\n\n\x00"
    heard.1 = .ok (messageOf "a\\b") ∧ (messageOf "a\\b").command = Command.message.name ∧
      (messageOf "a\\b").headers.get? Headers.Name.messageId = some "a\\b" ∧
      ((request (.ack (.frame (messageOf "a\\b")) none)).on heard.2.1 {}).2.2.acts =
        [⟨0, some 0, .send wire⟩] ∧
      (Frame.read "1.1" (⟨wire, none⟩ : Memory)).1 =
        .error (.protocol (.invalidEscape "a\\b")) := by
  have hversion : Version.parse? "1.1" = some ⟨[1, 1]⟩ := by decide +kernel
  refine ⟨by decide +kernel, by decide +kernel, by decide +kernel, by decide +kernel, ?_⟩
  rw [Frame.read_memory hversion (by decide)]
  decide +kernel

end Connection

end Stomp
