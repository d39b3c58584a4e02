import Stomp.Text.Basic

/-!
# Blank code points

The code points with the Unicode property White_Space, and with them the four
information separators U+001C to U+001F, which class as white space by their
direction. A numeral's surroundings are held to the smaller set
(`isNumeralSpace`): there the separators are not skipped.
-/

namespace Stomp.CodePoint

/-- White space, the information separators included. -/
def isBlank (c : CodePoint) : Bool :=
  within [(0x09, 0x0D), (0x1C, 0x20), (0x85, 0x85), (0xA0, 0xA0), (0x1680, 0x1680),
    (0x2000, 0x200A), (0x2028, 0x2029), (0x202F, 0x202F), (0x205F, 0x205F), (0x3000, 0x3000)] c

/-- The four information separators, U+001C to U+001F. -/
def isInformationSeparator (c : CodePoint) : Bool := within [(0x1C, 0x1F)] c

/-- White space that may surround a numeral. -/
def isNumeralSpace (c : CodePoint) : Bool := c.isBlank && !c.isInformationSeparator

end Stomp.CodePoint
