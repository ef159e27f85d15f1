import TagSearch.Number.Integer

/-!
# Calendar dates

Dates of the Gregorian calendar, extended to all years in both directions, and their number of
days since 1970-01-01.
-/

namespace TagSearch

open Number

/-- A year, a month from 1 to 12 and a day of that month. -/
structure Date where
  year : Int
  month : Nat
  day : Nat
  deriving DecidableEq, Repr

namespace Date

/-- The first year that dates reach. -/
def minYear : Int := -262143

/-- The last year that dates reach. -/
def maxYear : Int := 262142

/-- Whether a year has a 29th of February. -/
def isLeap (year : Int) : Bool :=
  year % 4 == 0 && (year % 100 != 0 || year % 400 == 0)

/-- The number of days of a month. -/
def daysInMonth (year : Int) (month : Nat) : Nat :=
  match month with
  | 2 => if isLeap year then 29 else 28
  | 4 | 6 | 9 | 11 => 30
  | _ => 31

/-- Whether the parts make up a date within reach. -/
def isValid (d : Date) : Bool :=
  minYear ≤ d.year && d.year ≤ maxYear && 1 ≤ d.month && d.month ≤ 12 && 1 ≤ d.day
    && d.day ≤ daysInMonth d.year d.month

/-- The number of days from 1970-01-01. Years are counted from March, so that a leap day comes last,
in cycles of 400 years or 146097 days. -/
def toDays (d : Date) : Int :=
  let y := if d.month ≤ 2 then d.year - 1 else d.year
  let era := y.fdiv 400
  let yearOfEra := y - era * 400
  let monthFromMarch : Int := (d.month + 9) % 12
  let dayOfYear := (153 * monthFromMarch + 2).fdiv 5 + d.day - 1
  let dayOfEra := yearOfEra * 365 + yearOfEra.fdiv 4 - yearOfEra.fdiv 100 + dayOfYear
  era * 146097 + dayOfEra - 719468

/-- The date a number of days from 1970-01-01. -/
def ofDays (days : Int) : Date :=
  let z := days + 719468
  let era := z.fdiv 146097
  let dayOfEra := z - era * 146097
  let yearOfEra :=
    (dayOfEra - dayOfEra.fdiv 1460 + dayOfEra.fdiv 36524 - dayOfEra.fdiv 146096).fdiv 365
  let dayOfYear := dayOfEra - (365 * yearOfEra + yearOfEra.fdiv 4 - yearOfEra.fdiv 100)
  let monthFromMarch := (5 * dayOfYear + 2).fdiv 153
  let day := dayOfYear - (153 * monthFromMarch + 2).fdiv 5 + 1
  let month := if monthFromMarch < 10 then monthFromMarch + 3 else monthFromMarch - 9
  let year := yearOfEra + era * 400
  ⟨if month ≤ 2 then year + 1 else year, month.toNat, day.toNat⟩

/-- Reads from `least` to `most` digits. -/
def takeDigits? (least most : Nat) (t : Text) : Option (Nat × Text) :=
  let digits := (t.take most).takeWhile isDigit
  if digits.length < least then none else some (natOfDigits digits, t.drop digits.length)

/-- Reads a year: up to four digits, or a sign and any number of digits. -/
def takeYear? (t : Text) : Option (Int × Text) :=
  match t with
  | '-' :: rest => (takeDigits? 1 rest.length rest).map fun (n, rest) => (-(n : Int), rest)
  | '+' :: rest => (takeDigits? 1 rest.length rest).map fun (n, rest) => ((n : Int), rest)
  | _ => (takeDigits? 1 4 t).map fun (n, rest) => ((n : Int), rest)

/-- What follows a hyphen. -/
def afterHyphen? : Text → Option Text
  | '-' :: rest => some rest
  | _ => none

/-- The text without white space in front. -/
def skipSpace (t : Text) : Text :=
  t.dropWhile Text.isSpace

/-- Reads a date as year, month and day apart by hyphens. White space may precede each number, and
month and day may have one digit. -/
def read? (t : Text) : Option Date := do
  let (year, rest) ← takeYear? (skipSpace t)
  let rest ← afterHyphen? rest
  let (month, rest) ← takeDigits? 1 2 (skipSpace rest)
  let rest ← afterHyphen? rest
  let (day, rest) ← takeDigits? 1 2 (skipSpace rest)
  let date : Date := ⟨year, month, day⟩
  if rest.isEmpty && date.isValid then some date else none

end Date

end TagSearch
