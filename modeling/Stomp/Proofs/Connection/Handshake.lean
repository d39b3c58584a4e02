import Stomp.Proofs.Connection.Session
import Stomp.Proofs.Connection.Truncation
import Stomp.Proofs.Frame.Outgoing

/-!
# A handshake is all or nothing

A handshake sends one frame and receives one. Only a reply that accepts changes anything that can be
seen of the connection, and then it changes all that it is about at once. Between the two lies every
way in which sending or receiving can fail, and every reply that refuses.

* `Stream.sent` — a stream after all that waits has been sent;
* `sendFrame_eq_ok_iff`, `receive_eq_ok_iff` — when the two halves of an exchange succeed;
* `Answered` — the frame was sent, and one frame was decoded in time;
* `Frame.Accepts` — what the reply has to be (`verdict_eq_ok_iff`, `verdict_eq_error`);
* `handshake_allOrNothing` — what comes of a handshake, whatever the network does.
-/

namespace Stomp

open Utf8 (octets)
open Operation (on_bind_eq_ok on_ofExcept_eq_ok)

namespace Stream

variable {s s' : Stream} {env env' : Environment}

/-- The stream after all that waits has been sent. -/
def sent (s : Stream) : Stream :=
  { s with unsent := [], socket := { s.socket with peer := s.socket.peer.send.2 } }

/-- Sending takes nothing of what can be read. -/
@[simp] theorem available_sent (s : Stream) : s.sent.available = s.available := rfl

/-- Where something waits, flushing succeeds if it is sent. -/
theorem flush_eq_ok_iff (hne : s.unsent ≠ []) :
    flush.on s env = (.ok (), s', env') ↔
      s.closed = false ∧ s.socket.peer.send.1 = none ∧ s' = s.sent ∧
        env' = { env with
          acts := env.acts ++ [⟨env.clock, some s.socket.number, .send s.unsent⟩] } := by
  rw [on_flush]
  -- on an open stream the attempt is made, and it is the socket that decides
  by_cases hclosed : s.closed = true
  · simp [hclosed]
  · rw [if_neg hclosed, if_neg hne, sendAct]
    rw [Bool.not_eq_true] at hclosed
    cases s.socket.peer.send.1 <;> simp [hclosed, sent, eq_comm]

end Stream

/-- A frame has been told to the log and sent on a stream, as these bytes, after what waited. -/
def Environment.sending (env : Environment) (f : Frame) (s : Stream) (wire : Bytes) :
    Environment :=
  { env with
      acts := env.acts ++ [⟨env.clock, some s.socket.number, .send (s.unsent ++ wire)⟩]
      notices := env.notices ++ [.sending f] }

namespace Frame

/-- **A reply accepts**: it is a CONNECTED frame, and if it names a version, this can be read. -/
structure Accepts (reply : Frame) : Prop where
  command_eq : reply.command = Command.connected.name
  version : ∀ version ∈ reply.headers.get? Headers.Name.version, (Version.parse? version).isSome

theorem command?_eq_some_iff {f : Frame} {c : Command} :
    f.command? = some c ↔ f.command = c.name := by
  constructor
  · exact fun h => (Command.name_of_ofName? h).symm
  · intro h
    rw [command?, h]
    exact (Decoder.octets_name c).2.2.2.2

end Frame

namespace Connection

variable {c c' : Connection} {s : Stream} {env env' : Environment} {f reply : Frame}

/-! ### The two halves of an exchange -/

/-- Writing a text succeeds if it can be encoded and is sent. -/
theorem output_eq_ok_iff {text : Text} (hne : text ≠ []) {s' : Stream} :
    (output text []).on s env = (.ok (), s', env') ↔
      ∃ wire, text.encode = .ok wire ∧ s.closed = false ∧ s.socket.peer.send.1 = none ∧
        s' = s.sent ∧ env' = { env with
          acts := env.acts ++ [⟨env.clock, some s.socket.number, .send (s.unsent ++ wire)⟩] } := by
  -- the text is not empty, so something waits when the stream is flushed
  have hflush : ∀ wire, text.encode = .ok wire → s.unsent ++ wire ++ [] ≠ [] := by
    intro wire hencode
    obtain ⟨-, rfl⟩ := Text.encode_eq_ok_iff.mp hencode
    rw [List.append_nil]
    exact List.append_ne_nil_of_right_ne_nil _ (mt Utf8.octets_eq_nil_iff.mp hne)
  constructor
  · intro h
    -- one part after another, each of which succeeded
    obtain ⟨wire, s₀, env₀, hwire, hwrites⟩ := on_bind_eq_ok.mp h
    obtain ⟨hencode, rfl, rfl⟩ := on_ofExcept_eq_ok.mp hwire
    obtain ⟨_, s₁, env₁, hfirst, hrest⟩ := on_bind_eq_ok.mp hwrites
    obtain ⟨hopen, rfl, rfl⟩ := Stream.write_eq_ok_iff.mp hfirst
    obtain ⟨_, s₂, env₂, hsecond, hlast⟩ := on_bind_eq_ok.mp hrest
    obtain ⟨-, rfl, rfl⟩ := Stream.write_eq_ok_iff.mp hsecond
    obtain ⟨-, hsent, rfl, rfl⟩ := (Stream.flush_eq_ok_iff (hflush wire hencode)).mp hlast
    refine ⟨wire, hencode, hopen, hsent, rfl, ?_⟩
    rw [List.append_nil]
  · rintro ⟨wire, hencode, hopen, hsent, rfl, rfl⟩
    refine on_bind_eq_ok.mpr ⟨wire, s, env, on_ofExcept_eq_ok.mpr ⟨hencode, rfl, rfl⟩, ?_⟩
    refine on_bind_eq_ok.mpr ⟨(), _, _, Stream.write_eq_ok_iff.mpr ⟨hopen, rfl, rfl⟩, ?_⟩
    refine on_bind_eq_ok.mpr ⟨(), _, _, Stream.write_eq_ok_iff.mpr ⟨hopen, rfl, rfl⟩, ?_⟩
    refine (Stream.flush_eq_ok_iff (hflush wire hencode)).mpr ⟨hopen, hsent, rfl, ?_⟩
    rw [List.append_nil]

/-- **Sending a frame succeeds** if it can be written, on a stream that is open and does not fail
to send it. -/
theorem sendFrame_eq_ok_iff (hstream : c.stream = some s) :
    (sendFrame f).on c env = (.ok (), c', env') ↔
      ∃ wire, f.wire? = some wire ∧ s.closed = false ∧ s.socket.peer.send.1 = none ∧
        c' = { c with stream := some s.sent } ∧ env' = env.sending f s wire := by
  rw [sendFrame, Operation.on_bind, Operation.on_notify]
  dsimp only
  rw [on_bind_eq_ok]
  constructor
  · rintro ⟨t, c₁, env₁, hmade, hsend⟩
    obtain ⟨htext, rfl, rfl⟩ := on_ofExcept_eq_ok.mp hmade
    obtain ⟨s', houtput, rfl⟩ := on_onStream_eq_ok hstream hsend
    obtain ⟨wire, hencode, hopen, hsent, rfl, rfl⟩ :=
      (output_eq_ok_iff (Frame.toText_ne_nil htext)).mp houtput
    exact ⟨wire, Frame.wire?_eq_some_iff.mpr ⟨t, htext, hencode⟩, hopen, hsent, rfl, rfl⟩
  · rintro ⟨wire, hwire, hopen, hsent, rfl, rfl⟩
    obtain ⟨t, htext, hencode⟩ := Frame.wire?_eq_some_iff.mp hwire
    refine ⟨t, _, _, on_ofExcept_eq_ok.mpr ⟨htext, rfl, rfl⟩, ?_⟩
    have hne := Frame.toText_ne_nil htext
    rw [sendText_eq_onStream, on_onStream_of_some hstream,
      (output_eq_ok_iff hne).mpr ⟨wire, hencode, hopen, hsent, rfl, rfl⟩]
    rfl

/-- **Receiving a frame succeeds** if the decoder reads one, before the deadline. -/
theorem receive_eq_ok_iff {timeout : Option Rat} (hstream : c.stream = some s)
    (hopen : s.closed = false) :
    (receive timeout).on c env = (.ok f, c', env') ↔
      ∃ s' env₁, Frame.read c.version (s.withTimeout timeout env.clock, env) = (.ok f, s', env₁) ∧
        c' = { c with stream := some s' } ∧
        env' = { env₁ with notices := env₁.notices ++ [.received f] } := by
  -- on an open stream setting the limit succeeds, so receiving is reading with the deadline
  have hinput : (input timeout c.version).on s env =
      Frame.read c.version (s.withTimeout timeout env.clock, env) := by
    rw [input, Operation.on_bind, Stream.on_setReadTimeout timeout hopen env]
    rfl
  rw [on_receive, on_onStream_of_some hstream, hinput]
  rcases Frame.read c.version (s.withTimeout timeout env.clock, env) with ⟨e | f', s', env₁⟩
  · simp
  · constructor
    · intro h
      cases h
      exact ⟨s', env₁, rfl, rfl, rfl⟩
    · rintro ⟨s'', env₂, hread, rfl, rfl⟩
      cases hread
      rfl

/-- **A frame is answered** on a connection with a stream: it is sent, and then the decoder reads a
reply, at the version that the connection speaks and within ten seconds. -/
structure Answered (c : Connection) (s : Stream) (f : Frame) (env : Environment) (reply : Frame)
    (s' : Stream) (env' : Environment) : Prop where
  closed_eq : s.closed = false
  fault_eq : s.socket.peer.send.1 = none
  read_eq : ∃ wire, f.wire? = some wire ∧
    Frame.read c.version (s.sent.withTimeout (some 10) env.clock, env.sending f s wire) =
      (.ok reply, s', env')

/-- An exchange succeeds if the frame is answered. -/
theorem exchange_eq_ok_iff (hstream : c.stream = some s) :
    (exchange f).on c env = (.ok reply, c', env') ↔
      ∃ s' env₁, Answered c s f env reply s' env₁ ∧ c' = { c with stream := some s' } ∧
        env' = { env₁ with notices := env₁.notices ++ [.received reply] } := by
  rw [exchange, on_bind_eq_ok, value_defaultTimeout]
  constructor
  · rintro ⟨_, c₁, env₁, hsend, hreceive⟩
    obtain ⟨wire, hwire, hopen, hsent, rfl, rfl⟩ := (sendFrame_eq_ok_iff hstream).mp hsend
    obtain ⟨s', env₂, hread, rfl, rfl⟩ :=
      (receive_eq_ok_iff (c := { c with stream := some s.sent }) rfl hopen).mp hreceive
    exact ⟨s', env₂, ⟨hopen, hsent, wire, hwire, hread⟩, rfl, rfl⟩
  · rintro ⟨s', env₂, ⟨hopen, hsent, wire, hwire, hread⟩, rfl, rfl⟩
    refine ⟨(), _, _, (sendFrame_eq_ok_iff hstream).mpr ⟨wire, hwire, hopen, hsent, rfl, rfl⟩, ?_⟩
    exact (receive_eq_ok_iff (c := { c with stream := some s.sent }) rfl hopen).mpr
      ⟨s', env₂, hread, rfl, rfl⟩

/-- **A reply stood on the wire**, and nothing behind it was taken. -/
theorem Answered.exists_layout {s' : Stream} (h : Answered c s f env reply s' env') :
    ∃ v, Version.parse? c.version = some v ∧
      ∃ l : Layout v.dialect reply, s.available = l.bytes ++ s'.available := by
  obtain ⟨wire, -, hread⟩ := h.read_eq
  obtain ⟨v, hversion, l, havailable⟩ := exists_layout_of_read hread
  -- sending took nothing of it, and a deadline takes nothing either
  rw [available_withTimeout, Stream.available_sent] at havailable
  exact ⟨v, hversion, l, havailable⟩

/-- **The frame was sent** before the reply was read. -/
theorem Answered.exists_wire {s' : Stream} (h : Answered c s f env reply s' env') :
    ∃ wire, f.wire? = some wire ∧
      env.acts ++ [⟨env.clock, some s.socket.number, .send (s.unsent ++ wire)⟩] <+: env'.acts := by
  obtain ⟨wire, hwire, hread⟩ := h.read_eq
  -- reading only adds to what was done to the network
  have hkept := ((Stream.follows_readFrame c.version).mono fun _ _ => .reads).preserves
    (Stream.keeps_acts _) (s.sent.withTimeout (some 10) env.clock) (env.sending f s wire)
    List.prefix_rfl
  have hon : (Stream.readFrame c.version).on (s.sent.withTimeout (some 10) env.clock)
      (env.sending f s wire) = (.ok reply, s', env') := hread
  rw [hon] at hkept
  exact ⟨wire, hwire, hkept⟩

/-! ### What a reply says -/

/-- A reply that accepts is agreed to, and no other. -/
theorem verdict_eq_ok_iff {version? : Option Text} :
    verdict reply = .ok version? ↔
      reply.Accepts ∧ reply.headers.get? Headers.Name.version = version? := by
  constructor
  · intro h
    obtain ⟨hnamed, husable⟩ := verdict_eq_ok h
    refine ⟨⟨?_, hnamed ▸ husable⟩, hnamed⟩
    unfold verdict at h
    split at h
    · cases h
    · rename_i hcommand
      exact Frame.command?_eq_some_iff.mp (not_not.mp hcommand)
  · rintro ⟨haccepts, rfl⟩
    have hcommand := Frame.command?_eq_some_iff.mpr haccepts.command_eq
    rw [verdict, if_neg (not_not.mpr hcommand)]
    -- without a version header there is nothing to refuse, and with one it can be read
    cases hnamed : reply.headers.get? Headers.Name.version with
    | none => rfl
    | some version =>
      obtain ⟨v, hv⟩ := Option.isSome_iff_exists.mp (haccepts.version version hnamed)
      simp only [hv]

/-- **A reply is refused** with an error of the protocol that holds the reply. If it is no CONNECTED
frame, the wording shows its body. -/
theorem verdict_eq_error {e : Error} (h : verdict reply = .error e) :
    ∃ fault, e = .protocol fault ∧ e.reply? = some reply ∧
      (reply.command ≠ Command.connected.name →
        e.message = "Not connected: " ++ Utf8.decodeLossy reply.body) := by
  unfold verdict at h
  split at h
  · cases h
    exact ⟨_, rfl, rfl, fun _ => rfl⟩
  · -- it is a CONNECTED frame, so the fault is in the version that it names
    rename_i hcommand
    have hname := Frame.command?_eq_some_iff.mp (not_not.mp hcommand)
    split at h
    · cases h
    · split at h
      · cases h
        exact ⟨_, rfl, rfl, absurd hname⟩
      · cases h

/-- A request to be accepted is one CONNECT frame. -/
theorem exists_frame_of_enters {r : Request} (hr : r.enters = true) :
    ∃ f, r.frame = .ok f ∧ f.command = Command.connect.name := by
  cases r with
  | connect login passcode clientId => exact ⟨_, rfl, rfl⟩
  | connectWith headers => exact ⟨_, rfl, rfl⟩
  | _ => cases hr

/-! ### The whole -/

/-- A reply that accepts: the handshake succeeds, and all is adopted. Nothing more is done to the
network. -/
theorem handshake_of_accepts {s' : Stream} (hstream : c.stream = some s)
    (h : Answered c s f env reply s' env') (haccepts : reply.Accepts) :
    ∃ env'', (handshake f).on c env =
      (.ok (), { c with
        stream := some s'
        version := (reply.headers.get? Headers.Name.version).getD c.version
        connected := true }, env'') ∧ env''.acts = env'.acts := by
  rw [on_handshake, (exchange_eq_ok_iff hstream).mpr ⟨s', env', h, rfl, rfl⟩]
  dsimp only
  rw [verdict_eq_ok_iff.mpr ⟨haccepts, rfl⟩]
  exact ⟨_, rfl, rfl⟩

/-- A reply that does not accept: the handshake fails with it, and only the stream has changed. -/
theorem handshake_of_not_accepts {s' : Stream} (hstream : c.stream = some s)
    (h : Answered c s f env reply s' env') (hnot : ¬ reply.Accepts) :
    ∃ fault env'', (handshake f).on c env =
        (.error (.protocol fault), { c with stream := some s' }, env'') ∧
      env''.acts = env'.acts ∧ (Error.protocol fault).reply? = some reply ∧
      (reply.command ≠ Command.connected.name →
        (Error.protocol fault).message = "Not connected: " ++ Utf8.decodeLossy reply.body) := by
  rw [on_handshake, (exchange_eq_ok_iff hstream).mpr ⟨s', env', h, rfl, rfl⟩]
  dsimp only
  -- a reply that does not accept is refused by the verdict
  cases hverdict : verdict reply with
  | ok version? => exact absurd (verdict_eq_ok_iff.mp hverdict).1 hnot
  | error e =>
    obtain ⟨fault, rfl, hcarried, hmessage⟩ := verdict_eq_error hverdict
    exact ⟨fault, _, rfl, rfl, hcarried, hmessage⟩

/-- **A handshake succeeds** if it is answered by a reply that accepts. -/
theorem handshake_eq_ok_iff (hstream : c.stream = some s) :
    ((handshake f).on c env).1 = .ok () ↔
      ∃ reply s' env', Answered c s f env reply s' env' ∧ reply.Accepts := by
  constructor
  · intro hok
    rw [on_handshake] at hok
    -- the exchange succeeded, and then the verdict did
    rcases hexchange : (exchange f).on c env with ⟨e | reply, c₁, env₁⟩
    · rw [hexchange] at hok
      cases hok
    · rw [hexchange] at hok
      obtain ⟨s', env', hanswered, -, -⟩ := (exchange_eq_ok_iff hstream).mp hexchange
      cases hverdict : verdict reply with
      | error e =>
        simp only [hverdict] at hok
        cases hok
      | ok version? => exact ⟨reply, s', env', hanswered, (verdict_eq_ok_iff.mp hverdict).1⟩
  · rintro ⟨reply, s', env', h, haccepts⟩
    obtain ⟨env'', hon, -⟩ := handshake_of_accepts hstream h haccepts
    rw [hon]

/-- A handshake that does not succeed alters nothing that can be seen. -/
theorem unaltered_of_handshake_ne_ok (h : ((handshake f).on c env).1 ≠ .ok ()) :
    Unaltered c ((handshake f).on c env).2.1 := by
  rcases handshake_cases f c env with ⟨e, c', env', hon, hunaltered⟩ | ⟨_, _, c', env', _, hon, -⟩
  · rw [hon]
    exact hunaltered
  · rw [hon] at h
    exact absurd rfl h

/-- A frame at the front of what is available is received, at the version that the connection
speaks. -/
theorem receive_of_layout {v : Version} (hversion : Version.parse? c.version = some v)
    (l : Layout v.dialect f) {timeout : Option Rat} (h : Call.frame.Undisturbed timeout c s env)
    {rest : Bytes} (havailable : s.available = l.bytes ++ rest) :
    ∃ s' env', (receive timeout).on c env = (.ok f, { c with stream := some s' }, env') ∧
      s'.available = rest := by
  have hscan : (Frame.decoder v.dialect).scan .start l.bytes = .done (.ok f) [] :=
    Frame.Decoder.scan_start_eq_done_ok_iff.mpr ⟨l, (List.append_nil _).symm⟩
  have hreads : Call.frame.Reads c.version l.bytes (.ok (.frame f)) :=
    (Call.reads_frame_iff hversion).mpr hscan
  obtain ⟨s', env', hon, hleft⟩ := hreads.delimits.followed h (fun _ => rfl) rest havailable
  have hmapped : (Call.frame.action timeout).operation.on c env =
      ((Except.ok f : Except Error Frame).map .frame, { c with stream := some s' }, env') := hon
  exact ⟨s', env', Call.on_receive_iff.mp hmapped, hleft⟩

/-- The version that is spoken after a reply that accepts can be read. -/
theorem Answered.exists_version {s' : Stream} (h : Answered c s f env reply s' env')
    (haccepts : reply.Accepts) :
    ∃ v, Version.parse? ((reply.headers.get? Headers.Name.version).getD c.version) = some v := by
  cases hnamed : reply.headers.get? Headers.Name.version with
  -- no version was named, so it is the one at which the reply was read
  | none =>
    obtain ⟨v, hversion, -⟩ := h.exists_layout
    exact ⟨v, hversion⟩
  | some version => exact Option.isSome_iff_exists.mp (haccepts.version version hnamed)

/-- **A handshake is all or nothing**, on every connection that holds a stream and whatever the
network does. It succeeds if and only if its CONNECT frame is answered by a reply that accepts. If
it does not succeed, then whether the connection is open, whether it is accepted and which version
it speaks are as they were before. Whenever it is answered, its frame was sent and the reply was
read, and nothing else was done to the network; and the reply and what comes before it is all that
was taken of what was available. If the reply accepts, the connection is accepted and
speaks the version that the reply names, or the one that it spoke before; and at this version the
next frame is received, also if it had arrived before the reply was decoded. If the reply does not
accept, the error is one of the protocol and holds the reply, and for a frame that is no CONNECTED
frame its wording is the body, as far as that is text. -/
theorem handshake_allOrNothing {r : Request} (hr : r.enters = true) (hstream : c.stream = some s)
    (env : Environment) :
    ∃ f, r.frame = .ok f ∧ f.command = Command.connect.name ∧
      let done := (request r).on c env
      (done.1 = .ok () ↔ ∃ reply s' env', Answered c s f env reply s' env' ∧ reply.Accepts) ∧
      (done.1 ≠ .ok () → Unaltered c done.2.1) ∧
      ∀ reply s' env', Answered c s f env reply s' env' →
        (done.2.2.acts = env'.acts ∧ ∃ wire, f.wire? = some wire ∧
          env.acts ++ [⟨env.clock, some s.socket.number, .send (s.unsent ++ wire)⟩] <+:
            done.2.2.acts) ∧
        (done.2.1.stream = some s' ∧ ∃ v, Version.parse? c.version = some v ∧
          ∃ l : Layout v.dialect reply, s.available = l.bytes ++ s'.available) ∧
        (reply.Accepts →
          done.2.1 = { c with
            stream := some s'
            version := (reply.headers.get? Headers.Name.version).getD c.version
            connected := true } ∧
          ∃ v, Version.parse? done.2.1.version = some v ∧
            ∀ (next : Frame) (l : Layout v.dialect next) rest timeout now,
              Call.frame.Undisturbed timeout done.2.1 s' now → s'.available = l.bytes ++ rest →
                ∃ s'' now', (receive timeout).on done.2.1 now =
                    (.ok next, { done.2.1 with stream := some s'' }, now') ∧
                  s''.available = rest) ∧
        (¬ reply.Accepts →
          ∃ fault, done.1 = .error (.protocol fault) ∧
            (Error.protocol fault).reply? = some reply ∧
            (reply.command ≠ Command.connected.name →
              (Error.protocol fault).message =
                "Not connected: " ++ Utf8.decodeLossy reply.body)) := by
  obtain ⟨f, hframe, hcommand⟩ := exists_frame_of_enters hr
  refine ⟨f, hframe, hcommand, ?_⟩
  -- the request is the handshake with this frame
  rw [on_request_of_enters hr hframe]
  refine ⟨handshake_eq_ok_iff hstream, unaltered_of_handshake_ne_ok, fun reply s' env' h => ?_⟩
  by_cases haccepts : reply.Accepts
  · obtain ⟨env'', hon, hacts⟩ := handshake_of_accepts hstream h haccepts
    obtain ⟨v, hversion⟩ := h.exists_version haccepts
    rw [hon]
    refine ⟨⟨hacts, hacts ▸ h.exists_wire⟩, ⟨rfl, h.exists_layout⟩,
      fun _ => ⟨rfl, v, hversion, ?_⟩, fun hnot => ?_⟩
    · -- nothing behind the reply was taken, so what stands there is still to be read
      intro next l rest timeout now hnext havailable
      exact receive_of_layout hversion l hnext havailable
    · exact absurd haccepts hnot
  · obtain ⟨fault, env'', hon, hacts, hcarried, hmessage⟩ :=
      handshake_of_not_accepts hstream h haccepts
    rw [hon]
    refine ⟨⟨hacts, hacts ▸ h.exists_wire⟩, ⟨rfl, h.exists_layout⟩,
      fun hyes => absurd hyes haccepts, fun _ => ?_⟩
    exact ⟨fault, rfl, hcarried, hmessage⟩

/-- A message with a colon in a header. -/
def colonMessage : Frame where
  command := "MESSAGE"
  headers := Headers.ofList [("k", "a:b")]

/-- The message as it stands on the wire at version 1.2. -/
def bytesOfColonMessage : Bytes := octets "MESSAGE\r\nk:a\\cb\r\n\n\x00"

/-- A stream on which a broker accepts at version 1.2 and goes on with the message in the same
piece. -/
def accepting : Stream where
  socket :=
    { number := 0
      peer :=
        { events :=
            [.arrival 3
              (.data (octets "CONNECTED\nversion:1.2\n\n\x00" ++ bytesOfColonMessage))] } }

/-- The stream once the broker's answer has been read: the message waits in its buffer. -/
def accepted : Stream where
  socket := { number := 0, peer := {} }
  unread := bytesOfColonMessage
  deadline := some 10

/-- The frame that asks to be accepted. -/
def asking : Frame where
  command := "CONNECT"
  headers := Headers.ofList [("login", "u"), ("passcode", "p")]

/-- The answer of the broker. -/
def acceptance : Frame where
  command := "CONNECTED"
  headers := Headers.ofList [("version", "1.2")]

theorem answered_asking :
    ∃ env', Answered { stream := some accepting } accepting asking {} acceptance accepted env' := by
  have hwire : asking.wire? = some (octets "CONNECT\nlogin:u\npasscode:p\n\n\x00") := by
    decide +kernel
  refine ⟨_, rfl, rfl, _, hwire, Prod.ext ?_ (Prod.ext ?_ rfl)⟩
  · decide +kernel
  · decide +kernel

theorem accepts_acceptance : acceptance.Accepts where
  command_eq := by decide +kernel
  version := by
    intro version hversion
    have hnamed : acceptance.headers.get? Headers.Name.version = some "1.2" := by decide +kernel
    obtain rfl := Option.some.inj (hnamed.symm.trans hversion)
    decide +kernel

theorem handshake_accepting :
    let done := (request (.connect "u" "p" none)).on { stream := some accepting } {}
    done.1 = .ok () ∧ done.2.1.version = "1.2" ∧
      ∃ s' now, (receive none).on done.2.1 done.2.2 =
        (.ok colonMessage, { done.2.1 with stream := some s' }, now) := by
  intro done
  obtain ⟨f, hframe, -, hiff, -, hanswer⟩ :=
    handshake_allOrNothing (r := .connect "u" "p" none) (c := { stream := some accepting }) rfl rfl
      {}
  have hasking : (Request.connect "u" "p" none).frame = .ok asking := by decide +kernel
  obtain rfl : asking = f := Except.ok.inj (hasking.symm.trans hframe)
  obtain ⟨env', hanswered⟩ := answered_asking
  obtain ⟨-, ⟨hstream, -⟩, hadopted, -⟩ := hanswer acceptance accepted env' hanswered
  obtain ⟨hafter, v, hv, hnext⟩ := hadopted accepts_acceptance
  have hversion : done.2.1.version = "1.2" := by
    rw [hafter]
    decide +kernel
  -- the message came with the answer, and is read at the new version
  have hnew : Version.parse? "1.2" = some ⟨[1, 2]⟩ := by decide +kernel
  rw [hversion, hnew] at hv
  obtain rfl := Option.some.inj hv
  -- what waits in the buffer is decoded as the broker escaped it
  have hmemory : Frame.read "1.2" (⟨bytesOfColonMessage, none⟩ : Memory) =
      (.ok colonMessage, ⟨[], none⟩) := by
    rw [Frame.read_memory hnew (by decide)]
    decide +kernel
  obtain ⟨l, hl⟩ := (Frame.read_memory_eq_ok_iff hnew (by decide)).mp hmemory
  have hleft : accepted.available = l.bytes ++ [] := (List.append_nil _).trans hl
  have hundisturbed : Call.frame.Undisturbed none done.2.1 accepted done.2.2 :=
    { stream_eq := hstream
      live := ⟨rfl, by decide, by decide +kernel⟩
      inputBuffer_eq := by rw [hafter]
      hasTime := Call.hasTime_none _ _ _ }
  obtain ⟨s', now, hon, -⟩ := hnext colonMessage l [] none done.2.2 hundisturbed hleft
  exact ⟨hiff.mpr ⟨_, _, _, hanswered, accepts_acceptance⟩, hversion, s', now, hon⟩

end Connection

end Stomp
