import Stomp.Proofs.Frame.Canonical
import Stomp.Proofs.Text.Hexadecimal
import Stomp.Proofs.Tools.Receiving

/-!
# What is shown of a frame tells the frame

A frame is shown as one flat record (`Frame.Flat`). The body has one field in it, and stands there
as text or in hexadecimal; which of the two is said by a word in another field. So text that looks
like hexadecimal digits is told from the digits of a body that is no text.

`Frame.BodyView.faithful_ofBytes` says what the two fields hold, and that the body can be had back
from them. It follows that frames which are shown alike are equal, and so are frames for which the
tool that receives them gives the same answer. The main statement is `Tools.receive_tells_frame`.
-/

namespace Stomp

namespace Frame

/-- A frame as it is shown, field by field. -/
structure Flat where
  command : Text
  headers : Headers
  /-- The body, in one of two forms. -/
  body : Text
  /-- The word for the form. -/
  encoding : Text
deriving DecidableEq, Repr

namespace BodyView

/-- The word for the form in which a body is shown. -/
def encoding : BodyView → Text
  | text _ => "utf-8"
  | hex _ => "hex"

/-- What is shown of the body. -/
def content : BodyView → Text
  | text t => t
  | hex digits => digits

/-- **The body can be had back.** Where it is UTF-8 it is shown as the text that it is written from,
and elsewhere by its hexadecimal digits. -/
structure Faithful (view : BodyView) (body : Bytes) : Prop where
  utf8_iff : view.encoding = "utf-8" ↔ body.IsUtf8
  text : view.encoding = "utf-8" → view.content.encode = .ok body
  hex : view.encoding ≠ "utf-8" → view.encoding = "hex" ∧
    (∀ c ∈ view.content, c ∈ Text.ofString "0123456789abcdef") ∧
      Bytes.ofHex? view.content = some body

/-- The two words are different. -/
theorem encoding_hex_ne (digits : Text) : (hex digits).encoding ≠ "utf-8" :=
  (by decide : Text.ofString "hex" ≠ Text.ofString "utf-8")

theorem faithful_ofBytes (body : Bytes) : (ofBytes body).Faithful body := by
  rw [ofBytes]
  cases hdecode : body.decode with
  -- what was read from the body is written as the body
  | ok t =>
    obtain ⟨hfree, hbody⟩ := Bytes.decode_eq_ok_iff.mp hdecode
    exact ⟨iff_of_true rfl ⟨t, hfree, hbody⟩, fun _ => Text.encode_eq_ok_iff.mpr ⟨hfree, hbody⟩,
      fun hne => absurd rfl hne⟩
  | error e =>
    -- it cannot be read, so it is no UTF-8
    have hnot : ¬ body.IsUtf8 := by
      rintro ⟨t, ht⟩
      rw [Bytes.decode_eq_ok_iff.mpr ht] at hdecode
      cases hdecode
    exact ⟨iff_of_false (encoding_hex_ne _) hnot, fun heq => absurd heq (encoding_hex_ne _),
      fun _ => ⟨rfl, fun c hc => Bytes.mem_hex hc, Bytes.ofHex?_eq_some_iff.mpr rfl⟩⟩

/-- What the two fields hold leaves no choice of the body. -/
theorem Faithful.eq {view other : BodyView} {body body' : Bytes} (h : view.Faithful body)
    (h' : other.Faithful body') (hcontent : view.content = other.content)
    (hencoding : view.encoding = other.encoding) : body = body' := by
  -- the word says which form it is, so both are in the same one
  by_cases hutf8 : view.encoding = "utf-8"
  · have htext := h.text hutf8
    rw [hcontent, h'.text (hencoding ▸ hutf8)] at htext
    exact (Except.ok.inj htext).symm
  · have hhex := (h.hex hutf8).2.2
    rw [hcontent, (h'.hex (hencoding ▸ hutf8)).2.2] at hhex
    exact (Option.some.inj hhex).symm

end BodyView

/-- All that is shown. -/
def View.flat (view : View) : Flat :=
  ⟨view.command, view.headers, view.body.content, view.body.encoding⟩

/-- The same but for the order of the headers. -/
structure Alike (f g : Frame) : Prop where
  command : f.command = g.command
  headers : ∀ name, f.headers.get? name = g.headers.get? name
  body : f.body = g.body

/-- The same but for the order of the headers. -/
structure Flat.Alike (x y : Flat) : Prop where
  command : x.command = y.command
  headers : ∀ name, x.headers.get? name = y.headers.get? name
  body : x.body = y.body
  encoding : x.encoding = y.encoding

variable {f g : Frame}

theorem body_eq_of_flat (hbody : f.view.flat.body = g.view.flat.body)
    (hencoding : f.view.flat.encoding = g.view.flat.encoding) : f.body = g.body :=
  (BodyView.faithful_ofBytes f.body).eq (BodyView.faithful_ofBytes g.body) hbody hencoding

/-- **Frames that are shown alike are equal.** -/
theorem eq_of_flat_eq (h : f.view.flat = g.view.flat) : f = g := by
  have hcommand : f.command = g.command := congrArg Flat.command h
  have hheaders : f.headers = g.headers := congrArg Flat.headers h
  have hbody := body_eq_of_flat (congrArg Flat.body h) (congrArg Flat.encoding h)
  cases f
  cases g
  simp only at hcommand hheaders hbody
  rw [hcommand, hheaders, hbody]

theorem alike_of_flat_alike (h : f.view.flat.Alike g.view.flat) : f.Alike g :=
  ⟨h.command, h.headers, body_eq_of_flat h.body h.encoding⟩

end Frame

/-- What an answer shows of a frame, if it shows one. -/
def Answer.flat? : Answer → Option Frame.Flat
  | received view _ => some view.flat
  | _ => none

namespace Tools

open Utf8 (octets)

/-- Waits for a frame on the connection of the session. -/
def incoming (timeout : Option Seconds) : Operation Tools Frame :=
  onConnection (Connection.receive (timeout.map Seconds.value))

/-- A frame that comes is answered, with all that is shown of it. -/
theorem receive_of_incoming {timeout : Option Seconds} {tools : Tools} {env : Environment}
    {f : Frame} (h : ((incoming timeout).on tools env).1 = .ok f) :
    ((receive timeout).on tools env).1 = .ok (shown f) := by
  have hincoming : (onConnection (Connection.receive (timeout.map Seconds.value))).on tools env =
      (.ok f, ((incoming timeout).on tools env).2) := Prod.ext h rfl
  rw [receive, Operation.on_bind, Operation.on_attempt]
  simp only [hincoming]
  -- a frame that came is answered, whatever the limit was
  cases timeout <;> rfl

/-- **What is shown of a frame tells the frame.** The body is shown as text where it is UTF-8, and
in lowercase hexadecimal elsewhere, and can be had back from either. So frames that are shown alike
are equal, the order of their headers aside if that is not looked at; and so are frames that came to
the tool for receiving and were given the same answer. -/
theorem receive_tells_frame :
    (∀ f : Frame, f.view.body.Faithful f.body) ∧
    (∀ f g : Frame, (f.view.flat = g.view.flat → f = g) ∧
      (f.view.flat.Alike g.view.flat → f.Alike g)) ∧
    ∀ (tools others : Tools) (env env' : Environment) (timeout timeout' : Option Seconds)
      (f g : Frame), ((incoming timeout).on tools env).1 = .ok f →
        ((incoming timeout').on others env').1 = .ok g →
        ∃ answer answer', ((receive timeout).on tools env).1 = .ok answer ∧
          ((receive timeout').on others env').1 = .ok answer' ∧
          answer.flat? = some f.view.flat ∧ answer'.flat? = some g.view.flat ∧
          (answer.flat? = answer'.flat? → f = g) := by
  refine ⟨fun f => Frame.BodyView.faithful_ofBytes f.body,
    fun f g => ⟨Frame.eq_of_flat_eq, Frame.alike_of_flat_alike⟩, ?_⟩
  intro tools others env env' timeout timeout' f g hf hg
  exact ⟨_, _, receive_of_incoming hf, receive_of_incoming hg, rfl, rfl, fun h =>
    Frame.eq_of_flat_eq (Option.some.inj h)⟩

/-- A message whose body is given. -/
def messageOf (body : Bytes) : Frame where
  command := "MESSAGE"
  headers := Headers.empty.set Headers.Name.contentLength (Text.ofNat body.length)
  body := body

/-- A session to which a message with the body has come. -/
def holding (body : Bytes) : Tools where
  session := some
    { connection :=
        { stream := some
            { socket := { number := 0, peer := {} }
              unread := octets (messageOf body).head ++ body ++ [Octet.nul] } }
      broker := ⟨"localhost", 61613⟩ }

/-- The text `ff` and the byte of these digits are shown by the same two letters, and are told apart
all the same. -/
theorem receive_tells_frame_ff :
    ∃ answer answer', ((receive none).on (holding [0x66, 0x66]) {}).1 = .ok answer ∧
      ((receive (some (.whole 1))).on (holding [0xFF]) {}).1 = .ok answer' ∧
      answer.flat?.map Frame.Flat.body = answer'.flat?.map Frame.Flat.body ∧
      answer.flat? ≠ answer'.flat? := by
  have htext : ((incoming none).on (holding [0x66, 0x66]) {}).1 =
      .ok (messageOf [0x66, 0x66]) := by decide +kernel
  have hbinary : ((incoming (some (.whole 1))).on (holding [0xFF]) {}).1 =
      .ok (messageOf [0xFF]) := by decide +kernel
  obtain ⟨answer, answer', hanswer, hanswer', hflat, hflat', htold⟩ :=
    receive_tells_frame.2.2 _ _ _ _ _ _ _ _ htext hbinary
  -- the two letters are the same, but the frames are not
  refine ⟨answer, answer', hanswer, hanswer', ?_, fun hsame => ?_⟩
  · rw [hflat, hflat']
    decide +kernel
  · exact absurd (congrArg Frame.body (htold hsame)) (by decide)

end Tools

end Stomp
