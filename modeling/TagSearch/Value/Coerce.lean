import TagSearch.Number.Decimal
import TagSearch.Size
import TagSearch.Time.Age
import TagSearch.Value.Basic

/-!
# Reading values

Each kind of value has a reader that yields the value or the reason why there is none. Equality on
a measured quantity is read as a small interval around it; a bare date is read as its whole day;
an age is read as the instants that have it.
-/

namespace TagSearch

/-- Why a value cannot be read. -/
inductive Reason where
  | notInteger
  | notIntegerRange
  | notNumberRange
  | notRatio
  | notSize
  | notDate
  | dateOutOfRange
  | notAge
  | ageOutOfRange
  /-- The name of the lock in lowercase. -/
  | unknownLock (name : Text)
  deriving DecidableEq, Repr

/-- What the reason is reported as. -/
def Reason.message : Reason → Text
  | notInteger => "expected an integer".toList
  | notIntegerRange => "expected an integer or integer range".toList
  | notNumberRange => "expected a number or range".toList
  | notRatio => "expected a ratio like 16:9 or 1.5".toList
  | notSize => "expected a size like 300kb or 1.5mb".toList
  | notDate => "expected a date like 2024-01-31".toList
  | dateOutOfRange => "date out of range".toList
  | notAge => "expected an age like 3d, 12h or 2mo".toList
  | ageOutOfRange => "age out of range".toList
  | unknownLock name =>
    "unknown lock '".toList ++ name ++ "', expected rating, note or status".toList

namespace Value

open Text Number

/-- The value read, or the reason given. -/
def orReason {α : Type} (reason : Reason) : Option α → Except Reason α
  | some a => .ok a
  | none => .error reason

/-! ## Integers -/

/-- Reads an integer, surrounding white space aside. -/
def readInteger (t : Text) : Except Reason Int :=
  orReason .notInteger (readInt? t.trim)

/-- Reads a range of integers. -/
def readIntRange (t : Text) : Except Reason (Range Int) :=
  orReason .notIntegerRange (Range.read? readInt? t)

/-! ## Numbers -/

/-- By how much a measured quantity may differ from the number it is said to equal. -/
def tolerance : Float := 0.05

/-- Reads a range of finite numbers. -/
def readFloatRange (t : Text) : Except Reason (Range Float) :=
  orReason .notNumberRange (Range.read? readFloat? t)

/-- Widens equality into an interval. -/
def widen : Range Float → Range Float
  | .eq v =>
    let a := v * (1.0 - tolerance)
    let b := v * (1.0 + tolerance)
    if a ≤ b then .between a b else .between b a
  | range => range

/-- Reads a range of measured numbers. -/
def readMeasuredRange (t : Text) : Except Reason (Range Float) :=
  widen <$> readFloatRange t

/-- Reads a ratio, a number or `width:height`, to two decimals. -/
def readRatio? (t : Text) : Option Float := do
  let ratio ← match cut? ':' t with
    | some (width, height) => do
      let w ← readFloat? width.trim
      let h ← readFloat? height.trim
      if h == 0.0 then none else some (w / h)
    | none => readFloat? t.trim
  return (ratio * 100.0).round / 100.0

/-- Reads a range of ratios. -/
def readRatioRange (t : Text) : Except Reason (Range Float) :=
  orReason .notRatio (Range.read? readRatio? t)

/-! ## File sizes -/

/-- A number of bytes times a factor, to the nearest byte; what exceeds 64 bits is cut to them. -/
def scaleBytes (factor : Float) (bytes : Int) : Int :=
  (Float.ofInt bytes * factor).round.toInt64.toInt

/-- Widens equality into an interval. -/
def widenBytes : Range Int → Range Int
  | .eq bytes =>
    .between (scaleBytes (1.0 - tolerance) bytes) (scaleBytes (1.0 + tolerance) bytes)
  | range => range

/-- Reads a range of file sizes in bytes. -/
def readSizeRange (t : Text) : Except Reason (Range Int) :=
  widenBytes <$> orReason .notSize (Range.read? Size.read? t)

/-! ## Dates and ages -/

/-- The instant a number of days before another. -/
def daysBefore (now : Instant) (days : Int) : Except Reason Instant :=
  orReason .dateOutOfRange (now.earlier? (days * Instant.day))

/-- The ranges that have a name, such as the last week. -/
def namedRange? (now : Instant) (t : Text) : Option (Except Reason (Range Instant)) :=
  let name := asciiLowercase t
  let today := now.startOfDay
  if name == "today".toList then some (.ok (.gte today))
  else if name == "yesterday".toList then
    some ((fun start => .between start today) <$> daysBefore today 1)
  else if name == "week".toList then some (.gte <$> daysBefore now 7)
  else if name == "month".toList then some (.gte <$> daysBefore now 30)
  else if name == "year".toList then some (.gte <$> daysBefore now 365)
  else if name == "decade".toList then some (.gte <$> daysBefore now 3650)
  else none

/-- A single date stands for the whole day. -/
def wholeDay : Range Instant → Except Reason (Range Instant)
  | .eq start =>
    (fun stop => .between start stop) <$> orReason .dateOutOfRange (start.later? Instant.day)
  | range => .ok range

/-- Reads a date as its first instant. -/
def readDay? (t : Text) : Option Instant :=
  (Date.read? t).map Instant.startOf

/-- Reads a range of dates, or the name of one. -/
def readDateRange (now : Instant) (t : Text) : Except Reason (Range Instant) :=
  match namedRange? now t with
  | some range => range
  | none => do wholeDay (← orReason .notDate (Range.read? readDay? t))

/-- Reads a range of ages as a range of instants. Older is earlier, so comparisons turn round. -/
def readAgeRange (now : Instant) (t : Text) : Except Reason (Range Instant) := do
  let ages ← orReason .notAge (Range.read? Age.read? t)
  let instants ←
    orReason .ageOutOfRange (ages.map? fun seconds => now.earlier? (seconds * Instant.second))
  return instants.flip

/-! ## Words -/

/-- Reads the name of a lock. -/
def readLock (t : Text) : Except Reason Lock :=
  orReason (.unknownLock t.lowercase) (Lock.read? t)

/-- Whether a text says `true`, in any ASCII case. Everything else counts as false. -/
def readBool (t : Text) : Bool :=
  eqIgnoringAsciiCase t.trim "true".toList

/-- Runs of `*` become one. -/
def collapseStars : Text → Text
  | '*' :: '*' :: rest => collapseStars ('*' :: rest)
  | c :: rest => c :: collapseStars rest
  | [] => []

end Value

end TagSearch
