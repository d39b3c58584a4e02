import Stomp.Bytes

/-!
# UTF-8

Text is written as one to four bytes a code point; a surrogate has no such
form, so `encode` refuses a text that holds one and names the first run of
surrogates.

Bytes are read by cutting them into **pieces** (`pieces`): well-formed
characters, and malformed stretches that are as long as a well-formed
character could begin that way. Both ways to decode are read off this one cut:

* `decode` fails at the first malformed piece and says where and why;
* `decodeLossy` puts U+FFFD for each malformed piece and never fails.

Overlong forms, encoded surrogates and values above U+10FFFF are shut out where
a character begins: after `E0`, `ED`, `F0` and `F4` the second byte has a
narrower range (`next`).
-/

namespace Stomp.Utf8

/-! ### Writing -/

/-- The bytes of one code point, shortest form. -/
def encodePoint (c : CodePoint) : Bytes :=
  if c.val < 0x80 then [.ofNat c.val]
  else if c.val < 0x800 then [.ofNat (0xC0 + c.val / 64), .ofNat (0x80 + c.val % 64)]
  else if c.val < 0x10000 then
    [.ofNat (0xE0 + c.val / 4096), .ofNat (0x80 + c.val / 64 % 64), .ofNat (0x80 + c.val % 64)]
  else
    [.ofNat (0xF0 + c.val / 262144), .ofNat (0x80 + c.val / 4096 % 64),
      .ofNat (0x80 + c.val / 64 % 64), .ofNat (0x80 + c.val % 64)]

/-- The first run of surrogates in a text: how many code points stand before it,
its first member and its length. -/
structure SurrogateRun where
  position : Nat
  first : CodePoint
  length : Nat
deriving DecidableEq, Repr

/-- The first run of surrogates, if the text holds any. -/
def surrogateRun? (t : Text) : Option SurrogateRun :=
  match t.dropWhile (fun c => ¬ c.IsSurrogate) with
  | [] => none
  | c :: rest => some {
      position := (t.takeWhile (fun c => ¬ c.IsSurrogate)).length
      first := c
      length := 1 + (rest.takeWhile (fun c => c.IsSurrogate)).length }

/-- The bytes of a text, unless it holds a surrogate. -/
def encode (t : Text) : Except SurrogateRun Bytes :=
  match surrogateRun? t with
  | some run => .error run
  | none => .ok (t.flatMap encodePoint)

/-! ### Reading -/

/-- Why a stretch of bytes is no character. -/
inductive Flaw
  /-- No character begins with this byte. -/
  | startByte
  /-- A byte follows that cannot continue the character. -/
  | continuationByte
  /-- The bytes end inside the character. -/
  | truncated
deriving DecidableEq, Repr

/-- One step through a byte sequence. -/
inductive Piece
  | scalar (c : CodePoint)
  | malformed (bytes : Bytes) (flaw : Flaw)
deriving DecidableEq, Repr

/-- What the first byte of a character announces: its payload, how many bytes
follow, and the range of the byte after it. -/
structure Lead where
  bits : Nat
  more : Nat
  low : UInt8 := 0x80
  high : UInt8 := 0xBF
deriving DecidableEq, Repr

/-- What a byte announces, if a character begins with it. -/
def lead? (b : UInt8) : Option Lead :=
  if b < 0x80 then some { bits := b.toNat, more := 0 }
  else if b < 0xC2 then none
  else if b < 0xE0 then some { bits := b.toNat - 0xC0, more := 1 }
  else if b < 0xF0 then some {
    bits := b.toNat - 0xE0
    more := 2
    -- less would be overlong, more would be a surrogate
    low := if b = 0xE0 then 0xA0 else 0x80
    high := if b = 0xED then 0x9F else 0xBF }
  else if b < 0xF5 then some {
    bits := b.toNat - 0xF0
    more := 3
    -- less would be overlong, more would be above the last code point
    low := if b = 0xF0 then 0x90 else 0x80
    high := if b = 0xF4 then 0x8F else 0xBF }
  else none

/-- Reads the bytes that are announced. `seen` are the bytes of the character so
far and `bits` their payload; the next byte lies from `low` to `high`, every
later one from `80` to `BF`. -/
def continued (seen : Bytes) (bits : Nat) (low high : UInt8) : Nat → Bytes → Piece × Bytes
  | 0, rest => (.scalar (.ofNat bits), rest)
  | _ + 1, [] => (.malformed seen .truncated, [])
  | more + 1, b :: rest =>
    if low ≤ b ∧ b ≤ high then
      continued (seen ++ [b]) (bits * 64 + (b.toNat - 0x80)) 0x80 0xBF more rest
    else (.malformed seen .continuationByte, b :: rest)

/-- The piece that begins with the byte `b`, and what is left after it. -/
def next (b : UInt8) (rest : Bytes) : Piece × Bytes :=
  match lead? b with
  | none => (.malformed [b] .startByte, rest)
  | some lead => continued [b] lead.bits lead.low lead.high lead.more rest

theorem length_continued_le (seen : Bytes) (bits : Nat) (low high : UInt8) (more : Nat)
    (rest : Bytes) : (continued seen bits low high more rest).2.length ≤ rest.length := by
  fun_induction continued seen bits low high more rest with
  | case1 => exact Nat.le_refl _
  | case2 => exact Nat.le_refl _
  | case3 _ _ _ _ _ _ rest _ ih => exact Nat.le_trans ih (Nat.le_succ _)
  | case4 => exact Nat.le_refl _

/-- What is left after a piece is no longer than what stood behind its first
byte. -/
theorem length_next_le (b : UInt8) (rest : Bytes) : (next b rest).2.length ≤ rest.length := by
  unfold next
  split
  · exact Nat.le_refl _
  · exact length_continued_le ..

/-- A byte sequence, cut into characters and malformed stretches. -/
def pieces : Bytes → List Piece
  | [] => []
  | b :: rest => (next b rest).1 :: pieces (next b rest).2
termination_by bytes => bytes.length
decreasing_by exact Nat.lt_succ_of_le (length_next_le b rest)

/-- The first malformed stretch of a byte sequence, and how many bytes stand
before it. -/
structure Malformed where
  position : Nat
  bytes : Bytes
  flaw : Flaw
deriving DecidableEq, Repr

/-- The text of the pieces up to the first malformed one, `position` being the
number of bytes before them. -/
def collect (position : Nat) : List Piece → Except Malformed Text
  | [] => .ok []
  | .scalar c :: rest => (collect (position + (encodePoint c).length) rest).map (c :: ·)
  | .malformed bytes flaw :: _ => .error ⟨position, bytes, flaw⟩

/-- The text of a well-formed byte sequence. -/
def decode (bytes : Bytes) : Except Malformed Text := collect 0 (pieces bytes)

/-- What stands for a piece when decoding must not fail. -/
def Piece.orReplacement : Piece → CodePoint
  | .scalar c => c
  | .malformed .. => .ofNat 0xFFFD

/-- The text of any byte sequence, with U+FFFD for each malformed piece. -/
def decodeLossy (bytes : Bytes) : Text := (pieces bytes).map Piece.orReplacement

@[simp] theorem pieces_nil : pieces [] = [] := by simp [pieces]

theorem pieces_cons (b : UInt8) (rest : Bytes) :
    pieces (b :: rest) = (next b rest).1 :: pieces (next b rest).2 := by rw [pieces]

end Stomp.Utf8
