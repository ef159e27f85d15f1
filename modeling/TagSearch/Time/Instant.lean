import TagSearch.Time.Date

/-!
# Instants

An instant is a number of nanoseconds since the start of 1970 in UTC. Instants reach as far as
dates do, from the first moment of year -262143 to the last of year 262142.
-/

namespace TagSearch

open Number

/-- A point in time. -/
structure Instant where
  nanos : Int
  deriving DecidableEq, Repr

namespace Instant

instance : LT Instant := ⟨fun a b => a.nanos < b.nanos⟩

instance : LE Instant := ⟨fun a b => a.nanos ≤ b.nanos⟩

/-- Nanoseconds in a second. -/
def second : Int := 1000000000

/-- Nanoseconds in a day. -/
def day : Int := 86400 * second

/-- The first instant. -/
def first : Int := (Date.toDays ⟨Date.minYear, 1, 1⟩) * day

/-- The instant after the last. -/
def bound : Int := (Date.toDays ⟨Date.maxYear, 12, 31⟩ + 1) * day

/-- The instant that many nanoseconds from 1970, if it is within reach. -/
def ofNanos? (n : Int) : Option Instant :=
  if first ≤ n && n < bound then some ⟨n⟩ else none

/-- The start of a date. -/
def startOf (date : Date) : Instant :=
  ⟨date.toDays * day⟩

/-- The UTC date of an instant. -/
def date (t : Instant) : Date :=
  Date.ofDays (t.nanos.fdiv day)

/-- The start of the instant's date. -/
def startOfDay (t : Instant) : Instant :=
  ⟨t.nanos.fdiv day * day⟩

/-- The instant that many nanoseconds earlier. -/
def earlier? (t : Instant) (nanos : Int) : Option Instant :=
  ofNanos? (t.nanos - nanos)

/-- The instant that many nanoseconds later. -/
def later? (t : Instant) (nanos : Int) : Option Instant :=
  ofNanos? (t.nanos + nanos)

/-! ## Text -/

/-- A number with at least that many digits. -/
def padded (width n : Nat) : Text :=
  let digits := natText n
  List.replicate (width - digits.length) '0' ++ digits

/-- A year: four digits from 0 to 9999, with a sign and at least four digits otherwise. -/
def yearText (year : Int) : Text :=
  if 0 ≤ year && year ≤ 9999 then padded 4 year.natAbs
  else (if year < 0 then '-' else '+') :: padded 4 year.natAbs

/-- A fraction of a second, in milli-, micro- or nanoseconds, whichever first is exact. -/
def fractionText (nanos : Nat) : Text :=
  if nanos == 0 then []
  else if nanos % 1000000 == 0 then '.' :: padded 3 (nanos / 1000000)
  else if nanos % 1000 == 0 then '.' :: padded 6 (nanos / 1000)
  else '.' :: padded 9 nanos

/-- The written form, such as `2024-06-15T12:00:00Z`. -/
def text (t : Instant) : Text :=
  let date := t.date
  let ofDay := (t.nanos - t.startOfDay.nanos).natAbs
  let seconds := ofDay / 1000000000
  yearText date.year ++ '-' :: padded 2 date.month ++ '-' :: padded 2 date.day
    ++ 'T' :: padded 2 (seconds / 3600) ++ ':' :: padded 2 (seconds / 60 % 60)
    ++ ':' :: padded 2 (seconds % 60) ++ fractionText (ofDay % 1000000000) ++ ['Z']

/-- Reads a character and returns what follows it. -/
def after? (c : Char) : Text → Option Text
  | d :: rest => if c == d then some rest else none
  | [] => none

/-- Reads an optional fraction of a second, in nanoseconds; digits past the ninth are dropped. -/
def takeFraction? (t : Text) : Option (Nat × Text) :=
  match t with
  | '.' :: rest =>
    let digits := rest.takeWhile isDigit
    if digits.isEmpty then none
    else
      let nine := (digits ++ List.replicate 9 '0').take 9
      some (natOfDigits nine, rest.dropWhile isDigit)
  | _ => some (0, t)

/-- Reads an offset from UTC, in seconds: `Z` or a sign, hours and minutes. -/
def readOffset? (t : Text) : Option Int :=
  match t with
  | ['Z'] => some 0
  | ['z'] => some 0
  | sign :: rest => do
    let (hours, rest) ← Date.takeDigits? 2 2 rest
    let rest ← after? ':' rest
    let (minutes, rest) ← Date.takeDigits? 2 2 rest
    let seconds : Int := (hours * 60 + minutes) * 60
    if !rest.isEmpty then none
    else if sign == '+' then some seconds
    else if sign == '-' then some (-seconds)
    else none
  | [] => none

/-- Reads the written form, with an offset from UTC. -/
def read? (t : Text) : Option Instant := do
  let (year, rest) ← Date.takeYear? t
  let rest ← after? '-' rest
  let (month, rest) ← Date.takeDigits? 2 2 rest
  let rest ← after? '-' rest
  let (day, rest) ← Date.takeDigits? 2 2 rest
  let rest ← (after? 'T' rest <|> after? 't' rest <|> after? ' ' rest)
  let (hours, rest) ← Date.takeDigits? 2 2 rest
  let rest ← after? ':' rest
  let (minutes, rest) ← Date.takeDigits? 2 2 rest
  let rest ← after? ':' rest
  let (seconds, rest) ← Date.takeDigits? 2 2 rest
  let (nanos, rest) ← takeFraction? rest
  let offset ← readOffset? rest
  let date : Date := ⟨year, month, day⟩
  if !date.isValid || 24 ≤ hours || 60 ≤ minutes || 60 ≤ seconds then none
  else
    let ofDay : Int := (hours * 60 + minutes) * 60 + seconds
    ofNanos? ((date.toDays * 86400 + ofDay - offset) * second + nanos)

end Instant

end TagSearch
