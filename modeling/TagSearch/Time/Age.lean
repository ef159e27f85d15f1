import TagSearch.Text.Case
import TagSearch.Time.Instant

/-!
# Ages

An age is a number and a unit, such as `3d`, `12h` or `2mo`; a bare number counts days.
-/

namespace TagSearch.Age

open Text Number

/-- What a number in front of a lowercase unit is multiplied by to count seconds, one factor after
the other. A month has 30 days and a year 365. -/
def unitFactors? (unit : Text) : Option (List Int) :=
  match unit with
  | ['s'] => some []
  | ['m', 'i'] => some [60]
  | ['h'] => some [3600]
  | [] => some [86400]
  | ['d'] => some [86400]
  | ['w'] => some [604800]
  | ['m', 'o'] => some [30, 86400]
  | ['y'] => some [365, 86400]
  | _ => none

/-- The longest age in seconds: the milliseconds must fit into 64 bits. -/
def maxSeconds : Int := maxInt64 / 1000

/-- Reads an age, in seconds. The number and every product must fit into 64 bits. -/
def read? (t : Text) : Option Int := do
  let number ← readInt? (t.takeWhile isDigit)
  let factors ← unitFactors? (asciiLowercase (t.dropWhile isDigit))
  let seconds ← factors.foldlM times? number
  if seconds ≤ maxSeconds then some seconds else none

end TagSearch.Age
