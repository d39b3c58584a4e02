import Stomp.Decimal

/-!
# Durations as they are written

A duration is a number of seconds and remembers whether it was written with a
point: `5` and `5.0` last equally long and are shown differently.
-/

namespace Stomp

/-- A number of seconds. -/
inductive Seconds
  /-- Written as an integer. -/
  | whole (count : Int)
  /-- Written with a point or with an exponent of ten. -/
  | pointed (count : Decimal)
deriving DecidableEq, Repr, Inhabited

namespace Seconds

/-- The duration as a number. -/
def value : Seconds → Rat
  | whole count => count
  | pointed count => count.value

/-- The duration as it is shown. -/
def text : Seconds → Text
  | whole count => Text.ofInt count
  | pointed count => count.text

end Seconds

end Stomp
