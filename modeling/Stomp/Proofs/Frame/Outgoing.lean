import Stomp.Frame.Request
import Stomp.Proofs.Frame.RoundTrip

/-!
# What requests put on the wire

A request is sent as text: the text of its frame is written as UTF-8 when it is sent, its body
having been read from UTF-8 for that. Nothing is lost on this way: what comes of it is the written
form of the frame (`Frame.toOption_encode_toText`), and something comes of it if and only if no
text of the frame holds a surrogate, a body of bytes is UTF-8, and a message that is acknowledged
has an id (`Request.isSome_wire?_iff`).
-/

namespace Stomp

open Utf8 (octets)

theorem toOption_eq_some_iff {ε α : Type} {outcome : Except ε α} {a : α} :
    outcome.toOption = some a ↔ outcome = .ok a := by
  cases outcome <;> simp [Except.toOption]

/-- No surrogate stands in the text. -/
def Text.SurrogateFree (t : Text) : Prop := ∀ c ∈ t, ¬ c.IsSurrogate

/-- A text is written as UTF-8 if it is free of surrogates. -/
theorem Text.encode_eq_ok_iff {t : Text} {bytes : Bytes} :
    t.encode = .ok bytes ↔ t.SurrogateFree ∧ bytes = octets t := by
  rw [Text.SurrogateFree, ← Utf8.encode_eq_ok_iff, Text.encode]
  cases Utf8.encode t <;> simp [Except.mapError]

theorem Text.toOption_encode_of_surrogateFree {t : Text} (h : t.SurrogateFree) :
    t.encode.toOption = some (octets t) := by
  rw [Text.encode_eq_ok_iff.mpr ⟨h, rfl⟩]
  rfl

theorem Text.isSome_encode_iff {t : Text} : t.encode.toOption.isSome ↔ t.SurrogateFree := by
  constructor
  · intro h
    cases hencode : t.encode with
    | error e => rw [hencode] at h; cases h
    | ok bytes => exact (Text.encode_eq_ok_iff.mp hencode).1
  · intro h
    rw [Text.toOption_encode_of_surrogateFree h]
    rfl

theorem Bytes.decode_eq_ok_iff {bytes : Bytes} {t : Text} :
    bytes.decode = .ok t ↔ t.SurrogateFree ∧ bytes = octets t := by
  rw [Text.SurrogateFree, ← Utf8.decode_eq_ok_iff, Bytes.decode]
  cases Utf8.decode bytes <;> simp [Except.mapError]

/-- Where characters stand in front, what follows them is read by itself. -/
theorem Bytes.decode_octets_append_iff {t u : Text} {bytes : Bytes} (ht : t.SurrogateFree) :
    Bytes.decode (octets t ++ bytes) = .ok u ↔ ∃ v, u = t ++ v ∧ bytes.decode = .ok v := by
  have hiff : ∀ {bytes : Bytes} {u : Text}, bytes.decode = .ok u ↔ Utf8.decode bytes = .ok u := by
    intro bytes u
    rw [Bytes.decode_eq_ok_iff, Utf8.decode_eq_ok_iff, Text.SurrogateFree]
  simp only [hiff]
  exact Utf8.decode_octets_append_iff ht

theorem Text.surrogateFree_append {t u : Text} :
    (t ++ u).SurrogateFree ↔ t.SurrogateFree ∧ u.SurrogateFree :=
  List.forall_mem_append

theorem Text.surrogateFree_ofString (s : String) : (Text.ofString s).SurrogateFree :=
  fun _ h => Text.not_isSurrogate_of_mem_ofString h

theorem Command.surrogateFree_name (c : Command) : c.name.SurrogateFree := by
  cases c <;> exact Text.surrogateFree_ofString _

/-- No surrogate stands in a name or in a value. -/
def Headers.SurrogateFree (h : Headers) : Prop :=
  ∀ e ∈ h.entries, Text.SurrogateFree e.1 ∧ Text.SurrogateFree e.2

namespace Frame

/-- The head of a frame holds the texts of the frame, and marks. -/
theorem surrogateFree_head_iff {f : Frame} :
    f.head.SurrogateFree ↔ f.command.SurrogateFree ∧ f.headers.SurrogateFree := by
  have hfeed := Text.surrogateFree_ofString "\n"
  -- a header line is its two texts with a colon and a line feed, which are no surrogates
  have hline : ∀ e : Text × Text, (headerLine e.1 e.2).SurrogateFree ↔
      Text.SurrogateFree e.1 ∧ Text.SurrogateFree e.2 := by
    intro e
    rw [headerLine]
    simp only [Text.surrogateFree_append]
    exact ⟨fun h => ⟨h.1.1.1, h.1.2⟩,
      fun h => ⟨⟨⟨h.1, Text.surrogateFree_ofString ":"⟩, h.2⟩, hfeed⟩⟩
  -- so the lines are free of surrogates if the headers are
  have hlines : Text.SurrogateFree (f.headers.entries.flatMap fun e => headerLine e.1 e.2) ↔
      f.headers.SurrogateFree := by
    simp only [Text.SurrogateFree, Headers.SurrogateFree] at hline ⊢
    simp only [List.mem_flatMap, forall_exists_index, and_imp]
    exact ⟨fun h e he => (hline e).mp fun c hc => h c e he hc,
      fun h c e he hc => (hline e).mpr (h e he) c hc⟩
  rw [head_eq, Text.surrogateFree_append, Text.surrogateFree_append, Text.surrogateFree_append,
    hlines]
  exact ⟨fun h => ⟨h.1.1.1, h.1.2⟩, fun h => ⟨⟨⟨h.1, hfeed⟩, h.2⟩, hfeed⟩⟩

theorem isSome_toBytes_iff {f : Frame} {c : Command} (hcommand : f.command = c.name) :
    f.toBytes.toOption.isSome ↔ f.headers.SurrogateFree := by
  -- the name of a command is plain text, so only the headers can go wrong
  have hhead : f.head.SurrogateFree ↔ f.headers.SurrogateFree := by
    rw [surrogateFree_head_iff, hcommand]
    exact and_iff_right c.surrogateFree_name
  rw [← hhead, ← Text.isSome_encode_iff, toBytes]
  cases f.head.encode <;> rfl

/-- The text of a frame is there if its body is UTF-8. -/
theorem toText_of_bodyText {f : Frame} {body : Text} (h : f.bodyText = .ok body) :
    f.toText = .ok (f.head ++ body ++ Text.ofString "\x00") := by
  rw [toText, h]
  rfl

/-- The text of a frame ends in a NUL at least. -/
theorem toText_ne_nil {f : Frame} {t : Text} (h : f.toText = .ok t) : t ≠ [] := by
  unfold toText at h
  cases hbody : f.bodyText with
  | error e =>
    rw [hbody] at h
    cases h
  | ok body =>
    rw [hbody] at h
    cases h
    exact List.append_ne_nil_of_right_ne_nil _ (List.cons_ne_nil _ _)

/-- **Text and bytes agree.** Where the body of a frame is UTF-8, writing the text of the frame
gives the written form of the frame. -/
theorem toOption_encode_toText {f : Frame} {t : Text} (h : f.toText = .ok t) :
    t.encode.toOption = f.toBytes.toOption := by
  unfold toText at h
  cases hbody : f.bodyText with
  | error e => rw [hbody] at h; cases h
  | ok body =>
    rw [hbody] at h
    obtain rfl : f.head ++ body ++ Text.ofString "\x00" = t := Except.ok.inj h
    obtain ⟨hfree, hoctets⟩ := Bytes.decode_eq_ok_iff.mp hbody
    have hnul := Text.surrogateFree_ofString "\x00"
    -- the body is encoded back to what it was read from, so it depends on the head alone
    by_cases hhead : f.head.SurrogateFree
    · have hwire : f.toBytes = .ok (octets f.head ++ f.body ++ [Octet.nul]) :=
        toBytes_eq_ok_iff.mpr ⟨hhead, rfl⟩
      have hwhole : (f.head ++ body ++ Text.ofString "\x00").SurrogateFree :=
        Text.surrogateFree_append.mpr ⟨Text.surrogateFree_append.mpr ⟨hhead, hfree⟩, hnul⟩
      rw [Text.toOption_encode_of_surrogateFree hwhole, hwire, Utf8.octets_append,
        Utf8.octets_append, ← hoctets]
      rfl
    · -- then neither is written
      have hnone : ∀ {u : Text}, ¬ u.SurrogateFree → u.encode.toOption = none := by
        intro u hu
        rw [← Text.isSome_encode_iff] at hu
        simpa using hu
      have hwhole : ¬ (f.head ++ body ++ Text.ofString "\x00").SurrogateFree := fun hall =>
        hhead (Text.surrogateFree_append.mp (Text.surrogateFree_append.mp hall).1).1
      have hbytes : f.toBytes.toOption = none := by
        have := hnone hhead
        rw [toBytes]
        cases hencode : f.head.encode with
        | error e => rfl
        | ok bytes => rw [hencode] at this; cases this
      rw [hnone hwhole, hbytes]

/-- What a frame that is sent as text comes to: its written form, if its body is UTF-8. -/
def wire? (f : Frame) : Option Bytes := do
  let _ ← f.bodyText.toOption
  f.toBytes.toOption

/-- It is what the text of the frame is written as. -/
theorem wire?_eq (f : Frame) : f.wire? = f.toText.toOption.bind fun t => t.encode.toOption := by
  rw [wire?]
  cases hbody : f.bodyText with
  | error e =>
    rw [toText, hbody]
    rfl
  | ok body =>
    have htext := toText_of_bodyText hbody
    rw [htext]
    exact (toOption_encode_toText htext).symm

theorem wire?_eq_some_iff {f : Frame} {wire : Bytes} :
    f.wire? = some wire ↔ ∃ t, f.toText = .ok t ∧ t.encode = .ok wire := by
  rw [wire?_eq, Option.bind_eq_some_iff]
  simp only [toOption_eq_some_iff]

/-- A written frame is never empty. -/
theorem toBytes_ne_nil {f : Frame} {wire : Bytes} (h : f.toBytes = .ok wire) : wire ≠ [] := by
  obtain ⟨-, rfl⟩ := toBytes_eq_ok_iff.mp h
  simp

end Frame

/-! ### Requests -/

/-- A body can be sent as text: its text is free of surrogates, or its bytes are UTF-8. -/
def Body.Writable : Body → Prop
  | .empty => True
  | .text t => t.SurrogateFree
  | .bytes b => ∃ t, b.decode = .ok t

/-- A body that can be sent as text is one that is encoded to UTF-8. -/
theorem Body.writable_iff {body : Body} :
    body.Writable ↔ ∃ bytes : Bytes, body.encode = .ok bytes ∧ ∃ t, bytes.decode = .ok t := by
  cases body with
  | empty =>
    exact ⟨fun _ => ⟨[], rfl, [], Bytes.decode_eq_ok_iff.mpr ⟨by simp [Text.SurrogateFree], rfl⟩⟩,
      fun _ => trivial⟩
  | text t =>
    constructor
    · -- what was encoded can be decoded: the second condition is met already
      intro h
      exact ⟨_, Text.encode_eq_ok_iff.mpr ⟨h, rfl⟩, t, Bytes.decode_eq_ok_iff.mpr ⟨h, rfl⟩⟩
    · rintro ⟨bytes, hencode, -⟩
      exact (Text.encode_eq_ok_iff.mp hencode).1
  | bytes b =>
    constructor
    · exact fun h => ⟨b, rfl, h⟩
    · rintro ⟨bytes, hencode, h⟩
      obtain rfl : b = bytes := Except.ok.inj hencode
      exact h

namespace Request

/-- The message that a request is about, where it is an acknowledgement. -/
def message? : Request → Option MessageRef
  | ack message _ | nack message _ => some message
  | _ => none

/-- The body that a request has. -/
def body : Request → Body
  | send _ body _ _ => body
  | _ => .empty

/-- The command that a request sends. -/
def command : Request → Command
  | connect .. | connectWith _ => .connect
  | disconnect _ => .disconnect
  | send .. => .send
  | subscribe .. => .subscribe
  | unsubscribe .. => .unsubscribe
  | begin _ => .begin
  | commit _ => .commit
  | abort _ => .abort
  | ack .. => .ack
  | nack .. => .nack

/-- What the frame of a request is made of. -/
theorem frame_eq_ok {r : Request} {f : Frame} (h : r.frame = .ok f) :
    f.command = r.command.name ∧ r.body.encode = .ok f.body ∧
      ∀ message ∈ r.message?, message.id?.isSome := by
  cases r with
  -- only this request has a body, whose encoding may fail
  | send destination body transaction headers =>
    rw [frame, Frame.ofBody] at h
    cases hencode : body.encode with
    | error e => rw [hencode] at h; cases h
    | ok bytes =>
      rw [hencode] at h
      cases h
      exact ⟨rfl, hencode, by simp [message?]⟩
  -- these fail if the message has no id
  | ack message transaction | nack message transaction =>
    rw [frame, ackHeaders] at h
    cases hid : message.id? with
    | none => rw [hid] at h; cases h
    | some id =>
      rw [hid] at h
      cases h
      refine ⟨rfl, rfl, fun other hother => ?_⟩
      obtain rfl : message = other := Option.some.inj hother
      rw [hid]
      rfl
  | _ =>
    cases h
    exact ⟨rfl, rfl, by simp [message?]⟩

/-- A frame is made if the body can be encoded and an acknowledged message has an id. -/
theorem exists_frame {r : Request} (hmessage : ∀ message ∈ r.message?, message.id?.isSome)
    {bytes : Bytes} (hbody : r.body.encode = .ok bytes) : ∃ f, r.frame = .ok f := by
  cases r with
  | send destination body transaction headers =>
    rw [Request.body] at hbody
    rw [frame, Frame.ofBody, hbody]
    exact ⟨_, rfl⟩
  | ack message transaction | nack message transaction =>
    obtain ⟨id, hid⟩ := Option.isSome_iff_exists.mp (hmessage message rfl)
    rw [frame, ackHeaders, hid]
    exact ⟨_, rfl⟩
  | _ => exact ⟨_, rfl⟩

/-- The bytes that a request sends. -/
def wire? (r : Request) : Option Bytes := r.frame.toOption.bind Frame.wire?

/-- **What a request takes to be sent**: an id of the message that it is about, and texts without
surrogates. -/
structure Writable (r : Request) : Prop where
  message : ∀ message ∈ r.message?, message.id?.isSome
  body : r.body.Writable
  headers : ∀ f, r.frame = .ok f → f.headers.SurrogateFree

/-- **A request is sent** if and only if it has what this takes. -/
theorem isSome_wire?_iff {r : Request} : r.wire?.isSome ↔ r.Writable := by
  constructor
  · intro h
    -- bytes that are sent come from a frame, whose body was decoded and whose head was encoded
    obtain ⟨wire, hwire⟩ := Option.isSome_iff_exists.mp h
    obtain ⟨f, hframe, t, htext, hbytes⟩ :
        ∃ f, r.frame.toOption = some f ∧ ∃ t, f.bodyText.toOption = some t ∧
          f.toBytes.toOption = some wire := by
      simpa [wire?, Frame.wire?, Option.bind_eq_some_iff] using hwire
    have hframe := toOption_eq_some_iff.mp hframe
    obtain ⟨hcommand, hbody, hmessage⟩ := frame_eq_ok hframe
    refine ⟨hmessage, Body.writable_iff.mpr ⟨f.body, hbody, t, ?_⟩, ?_⟩
    · exact toOption_eq_some_iff.mp htext
    · intro f' hframe'
      obtain rfl : f = f' := Except.ok.inj (hframe.symm.trans hframe')
      rw [← Frame.isSome_toBytes_iff hcommand, hbytes]
      rfl
  · intro h
    -- the body is encoded and the message has an id, so there is a frame; its texts can be written
    obtain ⟨bytes, hbody, t, htext⟩ := Body.writable_iff.mp h.body
    obtain ⟨f, hframe⟩ := exists_frame h.message hbody
    obtain ⟨hcommand, hbody', -⟩ := frame_eq_ok hframe
    obtain rfl : bytes = f.body := Except.ok.inj (hbody.symm.trans hbody')
    have htext : f.bodyText = .ok t := htext
    rw [wire?, hframe]
    change (f.bodyText.toOption.bind fun _ => f.toBytes.toOption).isSome
    rw [htext]
    exact (Frame.isSome_toBytes_iff hcommand).mpr (h.headers f hframe)

end Request

end Stomp
