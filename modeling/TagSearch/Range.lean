import TagSearch.Text.Basic

/-!
# Ranges

A range is a comparison with one bound, an interval, or a list of values. `Range.holds` says which
values satisfy it; `Range.read?` reads the written form:

| written       | meaning                  |
|---------------|--------------------------|
| `5`           | equal                    |
| `>5` `>=5`    | greater, or equal        |
| `<5` `<=5`    | less, or equal           |
| `1..5`        | between, ends included   |
| `..5` `5..`   | at most, at least        |
| `1,3,5`       | one of                   |

The forms are tried in the order `>=`, `<=`, `>`, `<`, `..`, `,`, equal.
-/

namespace TagSearch

/-- A condition on values of a type. -/
inductive Range (α : Type) where
  | eq (value : α)
  | gt (bound : α)
  | gte (bound : α)
  | lt (bound : α)
  | lte (bound : α)
  /-- Both ends included. -/
  | between (low high : α)
  | oneOf (values : List α)
  deriving DecidableEq, Repr

namespace Range

variable {α β : Type}

/-- The longest list of values that is read; what follows is passed over. -/
def maxItems : Nat := 100

/-- Applies a function to every bound. -/
def map (f : α → β) : Range α → Range β
  | eq v => eq (f v)
  | gt v => gt (f v)
  | gte v => gte (f v)
  | lt v => lt (f v)
  | lte v => lte (f v)
  | between lo hi => between (f lo) (f hi)
  | oneOf vs => oneOf (vs.map f)

/-- Applies a partial function to every bound; undefined if it is undefined at one of them. -/
def map? (f : α → Option β) : Range α → Option (Range β)
  | eq v => eq <$> f v
  | gt v => gt <$> f v
  | gte v => gte <$> f v
  | lt v => lt <$> f v
  | lte v => lte <$> f v
  | between lo hi => do return between (← f lo) (← f hi)
  | oneOf vs => oneOf <$> vs.mapM f

/-- Turns every comparison round, for bounds that went through a decreasing function. -/
def flip : Range α → Range α
  | gt v => lt v
  | gte v => lte v
  | lt v => gt v
  | lte v => gte v
  | between lo hi => between hi lo
  | range => range

/-- Whether a value satisfies the range. -/
def holds [LT α] [LE α] (x : α) : Range α → Prop
  | eq v => x = v
  | gt v => v < x
  | gte v => v ≤ x
  | lt v => x < v
  | lte v => x ≤ v
  | between lo hi => lo ≤ x ∧ x ≤ hi
  | oneOf vs => x ∈ vs

/-! ## Reading -/

open Text

/-- What precedes and what follows the first two dots in a row. -/
def cutDots? : Text → Option (Text × Text)
  | [] => none
  | '.' :: '.' :: rest => some ([], rest)
  | c :: rest => (cutDots? rest).map fun (before, after) => (c :: before, after)

/-- Reads an interval from what stands on both sides of the dots; one side may be blank. -/
def readInterval? (operand : Text → Option α) (low high : Text) : Option (Range α) :=
  match isWhite low, isWhite high with
  | true, true => none
  | true, false => lte <$> operand high.trim
  | false, true => gte <$> operand low.trim
  | false, false => do return between (← operand low.trim) (← operand high.trim)

/-- Reads a list of values apart by commas. Blank items are passed over. -/
def readList? (operand : Text → Option α) (t : Text) : Option (Range α) :=
  let items := ((t.splitOn ',').filter (!isWhite ·)).take maxItems
  if items.isEmpty then none else oneOf <$> items.mapM fun item => operand item.trim

/-- Reads a range whose bounds are read by `operand`, after surrounding white space is removed. -/
def read? (operand : Text → Option α) (t : Text) : Option (Range α) :=
  match t with
  | '>' :: '=' :: rest => gte <$> operand (Text.trim rest)
  | '<' :: '=' :: rest => lte <$> operand (Text.trim rest)
  | '>' :: rest => gt <$> operand (Text.trim rest)
  | '<' :: rest => lt <$> operand (Text.trim rest)
  | _ =>
    match cutDots? t with
    | some (low, high) => readInterval? operand low high
    | none => if t.contains ',' then readList? operand t else eq <$> operand t.trim

end Range

end TagSearch
