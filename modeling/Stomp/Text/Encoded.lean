import Stomp.Error

/-!
# Text as bytes

Writing text as UTF-8 and reading it back, with the failures as errors of this
library.
-/

namespace Stomp

/-- The UTF-8 form of a text. -/
def Text.encode (t : Text) : Except Error Bytes :=
  (Utf8.encode t).mapError fun run => .encoding (.unencodable t run)

/-- The text of which the bytes are the UTF-8 form. -/
def Bytes.decode (bytes : Bytes) : Except Error Text :=
  (Utf8.decode bytes).mapError fun malformed => .encoding (.undecodable malformed)

end Stomp
