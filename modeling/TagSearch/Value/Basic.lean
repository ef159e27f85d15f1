import TagSearch.Metatag
import TagSearch.Range
import TagSearch.Time.Instant

/-!
# Values

What a metatag's value is read as, and what a field of a query holds: values gathered from every
occurrence, one value that the last occurrence sets, or a presence.
-/

namespace TagSearch

/-- Whether a post must have any value at all, or none. -/
inductive Presence where
  | any
  | none
  deriving DecidableEq, Repr

namespace Presence

/-- The written form. -/
def name : Presence → String
  | any => "any"
  | none => "none"

/-- Reads a presence, in any ASCII case. -/
def read? (t : Text) : Option Presence :=
  if Text.eqIgnoringAsciiCase t "any".toList then some any
  else if Text.eqIgnoringAsciiCase t "none".toList then some none
  else Option.none

/-- The opposite. -/
def invert : Presence → Presence
  | any => none
  | none => any

@[simp] theorem invert_invert (p : Presence) : p.invert.invert = p := by
  cases p <;> rfl

end Presence

/-- One value of a metatag. -/
inductive Value where
  | int (n : Int)
  | bool (b : Bool)
  | text (t : Text)
  | texts (ts : List Text)
  | lock (l : Lock)
  | intRange (r : Range Int)
  | floatRange (r : Range Float)
  | timeRange (r : Range Instant)

namespace Value

/-- The integer, if the value is one. -/
def int? : Value → Option Int
  | int n => some n
  | _ => none

/-- The text, if the value is one. -/
def text? : Value → Option Text
  | text t => some t
  | _ => none

end Value

/-- What a field holds. -/
inductive FieldValue where
  /-- One value for every occurrence, in order. -/
  | values (vs : List Value)
  /-- The value of the last occurrence. -/
  | single (v : Value)
  | presence (p : Presence)

namespace FieldValue

/-- The gathered values; none for the other shapes. -/
def gathered : FieldValue → List Value
  | values vs => vs
  | _ => []

/-- The single value. -/
def single? : FieldValue → Option Value
  | single v => some v
  | _ => none

/-- The presence. -/
def presence? : FieldValue → Option Presence
  | presence p => some p
  | _ => none

/-- The text of a single value. -/
def text? (f : FieldValue) : Option Text :=
  f.single?.bind Value.text?

end FieldValue

end TagSearch
