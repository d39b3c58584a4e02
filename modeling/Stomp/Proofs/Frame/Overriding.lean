import Stomp.Proofs.Frame.Reparsing
import Stomp.Proofs.Headers.Overlay

/-!
# Requests that are made with a caller's headers

A `Verb` is a request but for the headers that its caller brings along. Its own headers are set over
those, so that they win wherever they stand, and every other header of the caller comes through
(`Verb.Overrides`).

The caller's mapping is one that the caller keeps. It is copied before anything is set, so the frame
has its headers in a place of their own: what is set later in either of the two is not seen in the
other (`Kept.Apart`).

The main statement is `Request.own_headers_win`. It also says what the written frame is parsed as:
there the first of several lines for a name would win, and it is the verb's because no name comes
twice.
-/

namespace Stomp

/-- A request but for the headers that its caller brings along. -/
inductive Verb
  | connectWith
  | send (destination : Text) (body : Body) (transaction : Option Text)
  | subscribe (destination : Text) (mode : Option Text)
  | unsubscribe (destination : Text)
deriving DecidableEq, Repr

namespace Verb

/-- The headers of its own. -/
def own : Verb → List (Text × Text)
  | connectWith => []
  | send destination _ transaction =>
    (Headers.Name.destination, destination) :: transaction.toList.map (Headers.Name.transaction, ·)
  | subscribe destination mode =>
    (Headers.Name.destination, destination) :: mode.toList.map (Headers.Name.ack, ·)
  | unsubscribe destination => [(Headers.Name.destination, destination)]

def command : Verb → Command
  | connectWith => .connect
  | send .. => .send
  | subscribe .. => .subscribe
  | unsubscribe _ => .unsubscribe

def body : Verb → Body
  | send _ body _ => body
  | _ => .empty

/-- The request with headers of a caller. -/
def request (h : Headers) : Verb → Request
  | connectWith => .connectWith h
  | send destination body transaction => .send destination body transaction h
  | subscribe destination mode => .subscribe destination mode h
  | unsubscribe destination => .unsubscribe destination h

/-- No verb has two headers of one name. -/
theorem nodup_own (v : Verb) : (v.own.map Prod.fst).Nodup := by
  cases v with
  | connectWith => exact List.nodup_nil
  | send destination body transaction =>
    -- without a transaction there is one header, and else the two names differ
    cases transaction
    · exact List.pairwise_singleton _ _
    · exact (by decide : [Headers.Name.destination, Headers.Name.transaction].Nodup)
  | subscribe destination mode =>
    cases mode
    · exact List.pairwise_singleton _ _
    · exact (by decide : [Headers.Name.destination, Headers.Name.ack].Nodup)
  | unsubscribe destination => exact List.pairwise_singleton _ _

/-- In the frame, the verb's headers are set over those of the caller. -/
theorem frame_request (v : Verb) (h : Headers) :
    (v.request h).frame = Frame.ofBody v.command.name (h.overlay v.own) v.body := by
  cases v with
  | connectWith => rfl
  -- a transaction that is not given is not set either
  | send destination body transaction => cases transaction <;> rfl
  | subscribe destination mode => cases mode <;> rfl
  | unsubscribe destination => rfl

/-- **What a frame has of the verb and of the caller**: the verb's headers with the verb's values,
the caller's other headers with the caller's values, and nothing else; in the caller's order, and
then what is new. -/
structure Overrides (v : Verb) (h : Headers) (f : Frame) : Prop where
  command : f.command = v.command.name
  own : ∀ e ∈ v.own, f.headers.get? e.1 = some e.2
  others : ∀ name ∉ v.own.map Prod.fst, f.headers.get? name = h.get? name
  names : f.headers.names = h.names ++ (v.own.map Prod.fst).filter (· ∉ h.names)
  nodup : f.headers.names.Nodup
  untouched : v = connectWith → f.headers = h

theorem overrides_overlay (v : Verb) (h : Headers) (body : Bytes) :
    v.Overrides h ⟨v.command.name, h.overlay v.own, body⟩ where
  command := rfl
  own _ he := Headers.get?_overlay_of_mem v.nodup_own he
  others _ hname := Headers.get?_overlay_of_not_mem hname
  names := Headers.names_overlay v.nodup_own
  nodup := (h.overlay v.own).nodup
  untouched := by
    rintro rfl
    rfl

/-- **On the wire** the verb wins as well: if all texts can be written and each header is told by
its line, the frame is written and is parsed as itself. -/
theorem parse_overlay (v : Verb) {h : Headers}
    (hfree : ∀ e ∈ h.entries ++ v.own, Text.SurrogateFree e.1 ∧ Text.SurrogateFree e.2)
    (hlines : ∀ e ∈ h.entries ++ v.own, Headers.OnOneLine e) (body : Bytes) :
    ∃ wire, (⟨v.command.name, h.overlay v.own, body⟩ : Frame).toBytes = .ok wire ∧
      Frame.parse wire = .ok ⟨v.command.name, h.overlay v.own, body⟩ := by
  -- each header comes from the caller or from the verb, so that it can be written and is told by
  -- its line
  have hmem : ∀ e ∈ (h.overlay v.own).entries, e ∈ h.entries ++ v.own := fun e he =>
    List.mem_append.mpr (Headers.mem_entries_overlay he).symm
  have hhead : (⟨v.command.name, h.overlay v.own, body⟩ : Frame).head.SurrogateFree :=
    Frame.surrogateFree_head_iff.mpr
      ⟨v.command.surrogateFree_name, fun e he => hfree e (hmem e he)⟩
  obtain ⟨hne, hfeed⟩ : v.command.name ≠ [] ∧ CodePoint.ofChar '\n' ∉ v.command.name := by
    cases v.command <;> decide
  have hwire := Frame.toBytes_eq_ok_iff.mpr ⟨hhead, rfl⟩
  -- no name comes twice, so the first line of a name is the only one
  exact ⟨_, hwire, (Frame.parse_eq_ok_iff_wellLined hwire).mpr
    ⟨hne, hfeed, fun e he => hlines e (hmem e he)⟩⟩

end Verb

/-! ### Making the frame in place -/

/-- A frame whose headers are kept in a place. -/
structure Kept where
  command : Text
  place : Nat
  body : Bytes
deriving DecidableEq, Repr

/-- The frame as it is while the store is as it is. -/
def Kept.frame? (k : Kept) (s : Store) : Option Frame :=
  (s.at? k.place).map fun headers => ⟨k.command, headers, k.body⟩

/-- **The frame has its headers for itself.** What is set in them is seen in the frame and in
nothing that was kept before; and what is set elsewhere is not seen in the frame. -/
structure Kept.Apart (k : Kept) (s made : Store) (f : Frame) : Prop where
  frame : k.frame? made = some f
  kept : ∀ p h, s.at? p = some h → p ≠ k.place ∧ made.at? p = some h
  added : ∀ added : List (Text × Text),
    let later := made.assignAll (added.map (k.place, ·))
    k.frame? later = some { f with headers := f.headers.overlay added } ∧
      ∀ p h, s.at? p = some h → later.at? p = some h
  elsewhere : ∀ writes : List (Nat × (Text × Text)), (∀ w ∈ writes, w.1 ≠ k.place) →
    k.frame? (made.assignAll writes) = some f

/-- The headers that a caller brings along, if any: those that are kept in a place. -/
def Store.given (s : Store) (caller : Option Nat) : Headers :=
  (caller.bind s.at?).getD Headers.empty

namespace Verb

/-- Makes the frame: the caller's headers are copied, and the verb's are set in the copy. -/
def make (v : Verb) (caller : Option Nat) (s : Store) : Except Error Kept × Store :=
  (v.body.encode.map fun body => ⟨v.command.name, s.free, body⟩,
    (s.keep (s.given caller)).assignAll (v.own.map (s.free, ·)))

variable {v : Verb} {caller : Option Nat} {s : Store} {k : Kept} {p : Nat} {h : Headers}

theorem at?_make_free (v : Verb) (caller : Option Nat) (s : Store) :
    (v.make caller s).2.at? s.free = some ((s.given caller).overlay v.own) := by
  rw [make, Store.at?_assignAll_map, Store.at?_keep_free]
  rfl

/-- What is kept already is not touched. -/
theorem at?_make (hp : s.at? p = some h) : (v.make caller s).2.at? p = some h := by
  rw [make, Store.at?_assignAll_of_ne]
  · -- the copy is put behind all that is kept
    exact Store.at?_keep hp _
  · -- and the verb sets its headers in the copy alone
    intro w hw
    obtain ⟨e, -, rfl⟩ := List.mem_map.mp hw
    exact (Store.ne_free hp).symm

/-- A frame is made if the body can be encoded. -/
theorem exists_make_iff :
    (∃ k, (v.make caller s).1 = .ok k) ↔ ∀ t, v.body = .text t → t.SurrogateFree := by
  have hencode : (∃ k, (v.make caller s).1 = .ok k) ↔ ∃ bytes, v.body.encode = .ok bytes := by
    rw [make]
    cases v.body.encode <;> simp [Except.map]
  rw [hencode]
  cases v.body with
  | empty => simp [Body.encode]
  | text t => simp [Body.encode, Text.encode_eq_ok_iff]
  | bytes b => simp [Body.encode]

/-- It is the frame of the request, with its headers in a place that was free. -/
theorem eq_of_make (hmade : (v.make caller s).1 = .ok k) :
    k.place = s.free ∧ k.command = v.command.name ∧ v.body.encode = .ok k.body := by
  rw [make] at hmade
  cases hencode : v.body.encode with
  | error e =>
    rw [hencode] at hmade
    cases hmade
  | ok body =>
    rw [hencode] at hmade
    obtain rfl := Except.ok.inj hmade
    exact ⟨rfl, rfl, rfl⟩

theorem apart_make (hmade : (v.make caller s).1 = .ok k) :
    k.Apart s (v.make caller s).2
      ⟨v.command.name, (s.given caller).overlay v.own, k.body⟩ := by
  obtain ⟨hplace, hcommand, -⟩ := eq_of_make hmade
  have hframe : (v.make caller s).2.at? k.place = some ((s.given caller).overlay v.own) := by
    rw [hplace]
    exact at?_make_free v caller s
  have hkept : ∀ p h, s.at? p = some h →
      p ≠ k.place ∧ (v.make caller s).2.at? p = some h := fun p h hp =>
    ⟨hplace ▸ Store.ne_free hp, at?_make hp⟩
  refine ⟨?_, hkept, fun added => ⟨?_, fun p h hp => ?_⟩, fun writes hwrites => ?_⟩
  · -- as it is made
    rw [Kept.frame?, hframe, hcommand]
    rfl
  · -- what is set in its place is laid over its headers
    rw [Kept.frame?, Store.at?_assignAll_map, hframe, hcommand]
    rfl
  · -- but not over those of another place
    rw [Store.at?_assignAll_of_ne]
    · exact (hkept p h hp).2
    · intro w hw
      obtain ⟨e, -, rfl⟩ := List.mem_map.mp hw
      exact (hkept p h hp).1.symm
  · -- and what is set in other places does not come here
    rw [Kept.frame?, Store.at?_assignAll_of_ne hwrites, hframe, hcommand]
    rfl

end Verb

/-! ### All requests with headers -/

/-- A message that no acknowledgement can name: none at all, or a frame without an id. -/
theorem MessageRef.id?_eq_none_iff {message : MessageRef} :
    message.id? = none ↔
      message = .absent ∨ ∃ m, message = .frame m ∧ Headers.Name.messageId ∉ m.headers.names := by
  cases message with
  | absent => simp [MessageRef.id?]
  | id id => simp [MessageRef.id?]
  | frame m => simp [MessageRef.id?, Headers.get?_eq_none_iff]

namespace Request

/-- **What an acknowledgement has**: the id of its message, and the transaction if there is one. It
fails for a message without an id, and for no other. -/
structure Acknowledges (r : Request) (message : MessageRef) (transaction : Option Text) : Prop where
  error_iff : ∀ e, r.frame = .error e ↔ e = .unidentifiedMessage ∧
    (message = .absent ∨ ∃ m, message = .frame m ∧ Headers.Name.messageId ∉ m.headers.names)
  frame : ∀ f, r.frame = .ok f → f.command = r.command.name ∧ f.body = [] ∧
    ∃ id, message.id? = some id ∧ f.headers.entries =
      (Headers.Name.messageId, id) :: transaction.toList.map (Headers.Name.transaction, ·)

theorem acknowledges {message : MessageRef} {transaction : Option Text} {r : Request}
    (hr : r = .ack message transaction ∨ r = .nack message transaction) :
    r.Acknowledges message transaction := by
  have hframe : r.frame = (ackHeaders message transaction).map fun headers =>
      ⟨r.command.name, headers, []⟩ := by
    rcases hr with rfl | rfl <;> rfl
  cases hid : message.id? with
  -- no id: the headers are not made, so there is no frame
  | none =>
    have herror : r.frame = .error .unidentifiedMessage := by
      rw [hframe, ackHeaders, hid]
      rfl
    refine ⟨fun e => ?_, fun f hf => ?_⟩
    · rw [herror, and_iff_left (MessageRef.id?_eq_none_iff.mp hid), Except.error.injEq, eq_comm]
    · rw [herror] at hf
      cases hf
  -- an id: the frame has it first, and then the transaction
  | some id =>
    have hok : r.frame = .ok ⟨r.command.name,
        (Headers.empty.set Headers.Name.messageId id).setSome Headers.Name.transaction transaction,
        []⟩ := by
      rw [hframe, ackHeaders, hid]
      rfl
    refine ⟨fun e => ?_, fun f hf => ?_⟩
    · rw [← MessageRef.id?_eq_none_iff, hok, hid]
      simp
    · rw [hok] at hf
      obtain rfl := Except.ok.inj hf
      refine ⟨rfl, rfl, id, hid, ?_⟩
      cases transaction <;> rfl

/-- **The headers of a request win, and those of its caller survive.** Whatever mapping a caller
brings along, if any, the frame of a verb overrides it, in the order of the mapping, and has its
headers in a place of their own; the mapping is not touched, whether or not a frame is made. If all
texts can be written and are told by their lines, the frame is parsed as itself from what it is
written as, so that the verb's values are those that come first. A request to connect has just the
headers that it was asked with; and an acknowledgement names its message, or fails if the message
has no id. -/
theorem own_headers_win :
    (∀ (v : Verb) (caller : Option Nat) (s : Store),
      let h := s.given caller
      let made := v.make caller s
      ((∃ k, made.1 = .ok k) ↔ ∀ t, v.body = .text t → t.SurrogateFree) ∧
      (∀ p kept, s.at? p = some kept → made.2.at? p = some kept) ∧
      ∀ k, made.1 = .ok k → ∃ f, (v.request h).frame = .ok f ∧ v.Overrides h f ∧
        k.Apart s made.2 f ∧
        ((∀ e ∈ h.entries ++ v.own, Text.SurrogateFree e.1 ∧ Text.SurrogateFree e.2) →
          (∀ e ∈ h.entries ++ v.own, Headers.OnOneLine e) →
          ∃ wire, f.toBytes = .ok wire ∧ Frame.parse wire = .ok f)) ∧
    (∀ login passcode clientId, ∃ f, (Request.connect login passcode clientId).frame = .ok f ∧
      f.headers.entries = (Headers.Name.login, login) :: (Headers.Name.passcode, passcode) ::
        clientId.toList.map (Headers.Name.clientId, ·)) ∧
    ∀ message transaction,
      (Request.ack message transaction).Acknowledges message transaction ∧
      (Request.nack message transaction).Acknowledges message transaction := by
  refine ⟨fun v caller s => ?_, fun login passcode clientId => ?_, fun message transaction => ?_⟩
  · refine ⟨Verb.exists_make_iff, fun p kept hp => Verb.at?_make hp, fun k hk => ?_⟩
    obtain ⟨-, -, hbody⟩ := Verb.eq_of_make hk
    refine ⟨_, ?_, v.overrides_overlay (s.given caller) k.body, Verb.apart_make hk,
      fun hfree hlines => v.parse_overlay hfree hlines k.body⟩
    rw [Verb.frame_request, Frame.ofBody, hbody]
    rfl
  · cases clientId <;> exact ⟨_, rfl, rfl⟩
  · exact ⟨acknowledges (.inl rfl), acknowledges (.inr rfl)⟩

/-- The headers of a caller who names another destination and another transaction. -/
def conflicting : Headers where
  entries := [("transaction", "old"), ("receipt", "r:1"), ("destination", "/queue/other")]
  nodup := by decide +kernel

/-- A message for a queue, in a transaction. -/
def sending : Verb := .send "/queue/a" (.text "hé") (some "new")

/-- The headers of the message, where they stood in those of the caller. -/
def overridden : List (Text × Text) :=
  [("transaction", "new"), ("receipt", "r:1"), ("destination", "/queue/a")]

theorem own_headers_win_conflicting :
    ∃ k f, (sending.make (some 0) ⟨[conflicting]⟩).1 = .ok k ∧ f.headers.entries = overridden ∧
      ((sending.make (some 0) ⟨[conflicting]⟩).2.assign k.place ("receipt", "r:2")).at? 0 =
        some conflicting ∧
      ∃ wire, f.toBytes = .ok wire ∧ Frame.parse wire = .ok f := by
  have hfree : ∀ e ∈ conflicting.entries ++ sending.own,
      Text.SurrogateFree e.1 ∧ Text.SurrogateFree e.2 := by
    intro e he
    simp only [conflicting, sending, Verb.own, Option.toList_some, List.map_cons, List.map_nil,
      List.cons_append, List.nil_append, List.mem_cons, List.not_mem_nil, or_false] at he
    rcases he with rfl | rfl | rfl | rfl | rfl <;>
      exact ⟨Text.surrogateFree_ofString _, Text.surrogateFree_ofString _⟩
  have hlines : ∀ e ∈ conflicting.entries ++ sending.own, CodePoint.ofChar ':' ∉ e.1 ∧
      CodePoint.ofChar '\n' ∉ e.1 ∧ CodePoint.ofChar '\n' ∉ e.2 := by decide +kernel
  -- the body is text without surrogates, so the frame is made
  obtain ⟨hmade, -, hall⟩ := own_headers_win.1 sending (some 0) ⟨[conflicting]⟩
  obtain ⟨k, hk⟩ := hmade.mpr fun t ht => by
    obtain rfl := Body.text.inj ht
    exact Text.surrogateFree_ofString _
  obtain ⟨f, hf, -, hapart, hparse⟩ := hall k hk
  have hheaders : (sending.request conflicting).frame.toOption.map (·.headers.entries) =
      some overridden := by decide +kernel
  have hframe : (sending.request conflicting).frame = .ok f := hf
  rw [hframe] at hheaders
  refine ⟨k, f, hk, Option.some.inj hheaders, ?_, hparse hfree fun e he => ?_⟩
  · exact (hapart.added [("receipt", "r:2")]).2 0 conflicting rfl
  · obtain ⟨hcolon, hname, hvalue⟩ := hlines e he
    exact ⟨hcolon, hname, hvalue⟩

end Request

end Stomp
