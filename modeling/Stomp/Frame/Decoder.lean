import Stomp.Cut
import Stomp.Frame.Wire
import Stomp.Headers.Escape
import Stomp.Reader

/-!
# Reading frames from a byte source

`Frame.decoder d` reads one frame in the dialect `d`, byte by byte, and takes no
byte beyond the NUL that ends it. Empty lines in front are skipped. A line ends
at a line feed, and in dialect 1.2 one carriage return before it is dropped. The
command has to be one of the protocol's. Header text is unescaped as the dialect
says, except in the two frames of the handshake, and the first value of a
repeated name wins. A body of announced length may hold any bytes and is asked
for in blocks; any other body ends at its first NUL. Lines, header count and body
are limited, and a limit is tested as soon as it is passed.

`Frame.rawReader` reads a frame without looking into it, up to a NUL that a line
feed follows.
-/

namespace Stomp

namespace Dialect

/-- A line as the dialect reads it: from 1.2 on, one carriage return at the end
does not belong to it. -/
def trimLine (d : Dialect) (line : Bytes) : Bytes :=
  if d = .v12 ∧ line.getLast? = some Octet.carriageReturn then line.dropLast else line

/-- Header text as the dialect reads it. -/
def readHeader (d : Dialect) (t : Text) : Except Error Text :=
  match d.unescape? t with
  | none => .error (.protocol (.invalidEscape t))
  | some u => .ok u

end Dialect

/-- Header text as a version reads it. -/
def readHeader (version : Text) (t : Text) : Except Error Text :=
  match Version.parse? version with
  | none => .error (.protocol (.unsupportedVersion version))
  | some v => v.dialect.readHeader t

/-- The body length that headers announce, if they do. -/
def Headers.bodyLength? (h : Headers) : Except Error (Option Nat) :=
  match h.get? Headers.Name.contentLength with
  | none => .ok none
  | some value =>
    -- more is blank around this numeral than around others
    match Text.toInt? (value.trimmed CodePoint.isBlank) with
    | none => .error (.protocol (.lengthNotInteger value))
    | some size =>
      if size < 0 ∨ (Frame.maxBodyLength : Int) < size then
        .error (.protocol (.lengthOutOfRange size))
      else .ok (some size.toNat)

namespace Frame

/-- What stands before the body of a frame. -/
structure Head where
  command : Command
  headers : Headers := Headers.empty
deriving DecidableEq, Repr

/-- The frame with a given body. -/
def Head.frame (head : Head) (body : Bytes) : Frame := ⟨head.command.name, head.headers, body⟩

namespace Decoder

/-- How far a frame has been read. -/
inductive State
  /-- In the command line, or in the empty lines before it. -/
  | command (line : Array UInt8)
  /-- In the header block, after `count` lines of it. -/
  | header (head : Head) (count : Nat) (line : Array UInt8)
  /-- In a body of announced length, with `later` bytes to come after the next. -/
  | sized (head : Head) (later : Nat) (body : Array UInt8)
  /-- After a body of announced length. -/
  | terminator (head : Head) (body : Bytes)
  /-- In a body that ends at its first NUL. -/
  | unsized (head : Head) (body : Array UInt8)
deriving DecidableEq, Repr

/-- Nothing has been read. -/
def State.start : State := .command #[]

/-- One more byte of a line, unless the line grows too long. -/
def lengthened (part : HeadLine) (line : Array UInt8) (b : UInt8) : Except Error (Array UInt8) :=
  if line.size < part.maxLength then .ok (line.push b)
  else .error (.protocol (.lineTooLong part))

/-- After a whole command line. -/
def afterCommand (d : Dialect) (line : Bytes) : Except Error State :=
  match d.trimLine line with
  | [] => .ok .start
  | trimmed => do
    -- a word that is no text is an encoding error, not an unknown command
    let word ← Bytes.decode trimmed
    match Command.ofName? word with
    | none => .error (.protocol (.unknownCommand word))
    | some command => .ok (.header { command } 0 #[])

/-- After the empty line. -/
def afterHeaders (head : Head) : Except Error State := do
  match ← head.headers.bodyLength? with
  | none => .ok (.unsized head #[])
  -- nothing has to be read before the terminator
  | some 0 => .ok (.terminator head [])
  | some (later + 1) => .ok (.sized head later #[])

/-- The name and the value on a header line. -/
def headerOfLine (d : Dialect) (command : Command) (line : Bytes) : Except Error (Text × Text) := do
  let text ← Bytes.decode line
  match cut? (CodePoint.ofChar ':') text with
  | none => .error (.protocol (.unparsableHeaderLine line))
  | some (name, value) =>
    if command.isHandshake then .ok (name, value)
    else do
      -- the name is read first, so its error is the one that shows
      let name ← d.readHeader name
      let value ← d.readHeader value
      .ok (name, value)

/-- After a whole header line. -/
def afterHeader (d : Dialect) (head : Head) (count : Nat) (line : Bytes) : Except Error State :=
  match d.trimLine line with
  | [] => afterHeaders head
  | trimmed =>
    -- every line counts, a repeated name too, and counting comes before reading
    if count < maxHeaders then do
      let (name, value) ← headerOfLine d head.command trimmed
      .ok (.header { head with headers := head.headers.insertIfNew name value } (count + 1) #[])
    else .error (.protocol .tooManyHeaders)

/-- One byte on. -/
def feed (d : Dialect) : State → UInt8 → Step State Frame
  | .command line, b =>
    if b = Octet.lineFeed then .ofExcept (afterCommand d line.toList)
    else .ofExcept ((lengthened .command line b).map .command)
  | .header head count line, b =>
    if b = Octet.lineFeed then .ofExcept (afterHeader d head count line.toList)
    else .ofExcept ((lengthened .header line b).map (.header head count))
  | .sized head 0 body, b => .more (.terminator head (body.push b).toList)
  | .sized head (later + 1) body, b => .more (.sized head later (body.push b))
  | .terminator head body, b =>
    if b = Octet.nul then .done (.ok (head.frame body))
    else .done (.error (.protocol .missingTerminator))
  | .unsized head body, b =>
    if b = Octet.nul then .done (.ok (head.frame body.toList))
    else if body.size < maxBodyLength then .more (.unsized head (body.push b))
    else .done (.error (.protocol .bodyTooLong))

/-- All that is left of a body of announced length is asked for at once, all
else byte by byte. -/
def demand : State → Nat
  | .sized _ later _ => later + 1
  | _ => 1

/-- The error of a source that ends too early. -/
def ended : State → ProtocolFault
  | .command _ => .endedInLine .command
  | .header .. => .endedInLine .header
  | .sized .. => .endedInBody
  | .terminator .. => .missingTerminator
  | .unsized .. => .endedInBody

end Decoder

/-- Reads one frame in a dialect. -/
def decoder (d : Dialect) : Reader Decoder.State Frame where
  demand := Decoder.demand
  demand_pos state := by cases state <;> simp [Decoder.demand]
  feed := Decoder.feed d
  demand_feed state b h := by
    cases state with
    | sized head later body =>
      -- only here is more than one byte asked for
      cases later with
      | zero => simp [Decoder.demand] at h
      | succ later => exact ⟨_, rfl, rfl⟩
    | _ => simp [Decoder.demand] at h
  ended state := .protocol (Decoder.ended state)

/-- Reads one frame, as a version has it, from a source. -/
def read {τ : Type} [ByteSource τ] (version : Text) (source : τ) : Except Error Frame × τ :=
  match Version.parse? version with
  | none => (.error (.protocol (.unsupportedVersion version)), source)
  | some v => (decoder v.dialect).run .start source

/-! ### Raw frame text -/

/-- How far a raw frame text has been read: its bytes, and whether a NUL came
after them of which it is not yet known if it ends the frame. -/
structure RawState where
  text : Array UInt8 := #[]
  afterNul : Bool := false
deriving DecidableEq, Repr

/-- One byte on. A NUL and the byte after it are decided on together. -/
def RawState.feed (s : RawState) (b : UInt8) : Step RawState Text :=
  if s.afterNul then
    if b = Octet.lineFeed then .done (Bytes.decode s.text.toList)
    -- a second NUL is text as well, and begins no new pair
    else .more ⟨(s.text.push Octet.nul).push b, false⟩
  else if b = Octet.nul then .more ⟨s.text, true⟩
  else .more ⟨s.text.push b, false⟩

/-- Reads the text of one frame up to a NUL that a line feed follows. -/
def rawReader : Reader RawState Text where
  demand _ := 1
  demand_pos _ := Nat.one_pos
  feed := RawState.feed
  demand_feed _ _ h := absurd h (Nat.lt_irrefl 1)
  ended _ := .protocol .endedInText

end Frame

end Stomp
