import TagSearch.Time.Instant

/-!
# Dates and times of TOML

A value without quotes can be a date, a time, or both, with an offset or without. It is kept as its
usual written form: a capital `T` in the middle, no zeros at the end of a fraction.
-/

namespace TagSearch.Toml

open Number Instant

/-- Reads a number of two digits that is at most a limit. -/
def takeTwo? (limit : Nat) (t : Text) : Option (Nat × Text) :=
  (Date.takeDigits? 2 2 t).filter fun read => read.1 ≤ limit

/-- Reads a date with a year of four digits. -/
def takeDate? (t : Text) : Option (Text × Text) := do
  let (year, rest) ← Date.takeDigits? 4 4 t
  let (month, rest) ← takeTwo? 12 (← after? '-' rest)
  let (day, rest) ← takeTwo? 31 (← after? '-' rest)
  if (⟨year, month, day⟩ : Date).isValid then
    return (padded 4 year ++ '-' :: padded 2 month ++ '-' :: padded 2 day, rest)
  else none

/-- A fraction of a second in as few digits as it needs. -/
def shortFraction (nanos : Nat) : Text :=
  if nanos == 0 then []
  else '.' :: ((padded 9 nanos).reverse.dropWhile (· == '0')).reverse

/-- Reads a time of day. A minute may have a leap second. -/
def takeClock? (t : Text) : Option (Text × Text) := do
  let (hours, rest) ← takeTwo? 23 t
  let (minutes, rest) ← takeTwo? 59 (← after? ':' rest)
  let (seconds, rest) ← takeTwo? 60 (← after? ':' rest)
  let (nanos, rest) ← takeFraction? rest
  return (padded 2 hours ++ ':' :: padded 2 minutes ++ ':' :: padded 2 seconds
    ++ shortFraction nanos, rest)

/-- Reads an offset from UTC, if there is one. An offset of nothing has a plus sign. -/
def takeZone? (t : Text) : Option (Text × Text) :=
  match t with
  | 'Z' :: rest | 'z' :: rest => some (['Z'], rest)
  | sign :: rest =>
    if sign == '+' || sign == '-' then do
      let (hours, rest) ← takeTwo? 23 rest
      let (minutes, rest) ← takeTwo? 59 (← after? ':' rest)
      let sign := if hours == 0 && minutes == 0 then '+' else sign
      return (sign :: padded 2 hours ++ ':' :: padded 2 minutes, rest)
    else some ([], t)
  | [] => some ([], [])

/-- What follows the mark between a date and a time. -/
def afterDivider? (t : Text) : Option Text :=
  after? 'T' t <|> after? 't' t <|> after? ' ' t

/-- Reads a date, a time, or both. -/
def takeMoment? (t : Text) : Option (Text × Text) :=
  match takeDate? t with
  | none => takeClock? t
  | some (date, rest) =>
    match (afterDivider? rest).bind takeClock? with
    | none => some (date, rest)
    | some (clock, rest) =>
      (takeZone? rest).map fun (zone, rest) => (date ++ 'T' :: clock ++ zone, rest)

end TagSearch.Toml
