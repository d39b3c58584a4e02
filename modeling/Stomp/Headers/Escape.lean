import Stomp.Version

/-!
# Header escapes

In the dialects from 1.1 on, header text on the wire has a line feed, a colon
and a backslash escaped by a backslash and a letter, and from 1.2 on a carriage
return too. `Dialect.unescape?` reads escapes and refuses a backslash that begins
none of the dialect. Text of dialect 1.0 stands as it is. Escapes are only read:
what is sent is written without any.
-/

namespace Stomp.Dialect

/-- The escapes of a dialect: the letter after the backslash, and what the pair
stands for. -/
def escapes : Dialect → List (CodePoint × CodePoint)
  | .v10 => []
  | .v11 => [('n', '\n'), ('c', ':'), ('\\', '\\')]
  | .v12 => [('n', '\n'), ('c', ':'), ('\\', '\\'), ('r', '\r')]

/-- What a backslash and the given letter stand for. -/
def meaning? (d : Dialect) (letter : CodePoint) : Option CodePoint := d.escapes.lookup letter

/-- Reads escapes from left to right, each backslash with the letter after it. -/
def unescapePairs? (d : Dialect) : Text → Option Text
  | [] => some []
  | [c] => if c = '\\' then none else some [c]
  | c :: letter :: rest =>
    if c = '\\' then
      match d.meaning? letter with
      | none => none
      | some m => (d.unescapePairs? rest).map (m :: ·)
    else (d.unescapePairs? (letter :: rest)).map (c :: ·)

/-- The header text that the dialect writes in the given form. -/
def unescape? (d : Dialect) (t : Text) : Option Text :=
  match d with
  | .v10 => some t
  | _ => d.unescapePairs? t

end Stomp.Dialect
