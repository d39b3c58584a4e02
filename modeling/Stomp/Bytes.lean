import Stomp.Text.Basic

/-!
# Bytes

The octets that structure a frame on the wire, and the hexadecimal form of a
byte sequence, two lowercase digits a byte.
-/

namespace Stomp

/-- A byte sequence. -/
abbrev Bytes := List UInt8

namespace Octet

/-- Ends a frame. -/
def nul : UInt8 := 0x00

/-- Ends a line; alone, between frames, a heartbeat. -/
def lineFeed : UInt8 := 0x0A

/-- May stand before a line feed in the newest dialect. -/
def carriageReturn : UInt8 := 0x0D

end Octet

namespace Bytes

/-- Two lowercase hexadecimal digits for each byte. -/
def hex (bytes : Bytes) : Text :=
  bytes.flatMap fun b => [CodePoint.digit (b.toNat / 16), CodePoint.digit (b.toNat % 16)]

end Bytes

end Stomp
