/-!
# The fewest digits that read back

A finite binary number is `m * 2 ^ q`. The reals that round to it form an interval around it, whose
ends belong to it if `m` is even. `shortest` finds a decimal in that interval with the fewest
digits and, among those, the nearest; of two at the same distance, the one with the even last
digit.

All arithmetic is exact, on fractions of natural numbers.
-/

namespace TagSearch.Number

/-- A positive binary number `mantissa * 2 ^ exponent`. At a power of two, `narrow` says that the
next number below is closer than the next above. -/
structure Binary where
  mantissa : Nat
  exponent : Int
  narrow : Bool
  deriving DecidableEq, Repr

/-- A positive decimal number `digits * 10 ^ exponent`. -/
structure Decimal where
  digits : Nat
  exponent : Int
  deriving DecidableEq, Repr

/-- The fraction `num / den`. -/
structure Fraction where
  num : Nat
  den : Nat
  deriving DecidableEq, Repr

namespace Fraction

/-- `a ≤ b` -/
def le (a b : Fraction) : Bool :=
  a.num * b.den ≤ b.num * a.den

/-- `a < b` -/
def lt (a b : Fraction) : Bool :=
  a.num * b.den < b.num * a.den

/-- `n * base ^ e` -/
def scaled (base n : Nat) (e : Int) : Fraction :=
  match e with
  | .ofNat k => ⟨n * Nat.pow base k, 1⟩
  | .negSucc k => ⟨n, Nat.pow base (k + 1)⟩

/-- The distance between two fractions. -/
def distance (a b : Fraction) : Fraction :=
  let x := a.num * b.den
  let y := b.num * a.den
  ⟨if x ≤ y then y - x else x - y, a.den * b.den⟩

end Fraction

namespace Binary

/-- The number itself. -/
def value (b : Binary) : Fraction :=
  Fraction.scaled 2 b.mantissa b.exponent

/-- The lower end of the interval that rounds to the number. -/
def lower (b : Binary) : Fraction :=
  if b.narrow then Fraction.scaled 2 (4 * b.mantissa - 1) (b.exponent - 2)
  else Fraction.scaled 2 (2 * b.mantissa - 1) (b.exponent - 1)

/-- The upper end of the interval that rounds to the number. -/
def upper (b : Binary) : Fraction :=
  Fraction.scaled 2 (2 * b.mantissa + 1) (b.exponent - 1)

/-- Whether a fraction rounds to the number. -/
def holds (b : Binary) (f : Fraction) : Bool :=
  if b.mantissa % 2 == 0 then b.lower.le f && f.le b.upper else b.lower.lt f && f.lt b.upper

/-- The neighbour of the number on the grid of multiples of `10 ^ e` that rounds to it. -/
def onGrid? (b : Binary) (e : Int) : Option Decimal :=
  let v := b.value
  let unit := Fraction.scaled 10 1 e
  let below := v.num * unit.den / (v.den * unit.num)
  let lo := Fraction.scaled 10 below e
  let hi := Fraction.scaled 10 (below + 1) e
  match b.holds lo && below != 0, b.holds hi with
  | true, true =>
    let toLo := lo.distance v
    let toHi := hi.distance v
    let up := toHi.lt toLo || (!toLo.lt toHi && below % 2 == 1)
    some ⟨if up then below + 1 else below, e⟩
  | true, false => some ⟨below, e⟩
  | false, true => some ⟨below + 1, e⟩
  | false, false => none

/-- The exponent of the leading decimal digit, starting the search at an estimate that is not too
small. -/
def leadingExponent (b : Binary) : Nat → Int → Int
  | 0, e => e
  | steps + 1, e =>
    if (Fraction.scaled 10 1 e).le b.value then e else b.leadingExponent steps (e - 1)

/-- The first grid, from `e` down, that holds a number rounding to `b`. -/
def search (b : Binary) : Nat → Int → Decimal
  | 0, _ => ⟨b.mantissa, b.exponent⟩
  | steps + 1, e =>
    match b.onGrid? e with
    | some d => d
    | none => b.search steps (e - 1)

/-- An exponent of the leading decimal digit that is at most three too large, from the number of
binary digits: a binary digit is worth about 0.30103 decimal ones. -/
def estimate (b : Binary) : Int :=
  ((b.exponent + b.mantissa.log2) * 30103).fdiv 100000 + 1

/-- The shortest decimal that rounds to the number. No number needs more than 17 digits. -/
def shortest (b : Binary) : Decimal :=
  b.search 20 (b.leadingExponent 4 b.estimate)

end Binary

/-- The number that a float denotes, up to its sign; `none` for zero, infinities and NaN. -/
def binary? (x : Float) : Option Binary :=
  let bits : Nat := x.toBits.toNat
  let fraction : Nat := bits % Nat.pow 2 52
  let biased : Nat := bits / Nat.pow 2 52 % Nat.pow 2 11
  if biased == 2047 then none
  else if biased == 0 then
    if fraction == 0 then none else some ⟨fraction, -1074, false⟩
  else some ⟨Nat.pow 2 52 + fraction, (biased : Int) - 1075, fraction == 0 && biased != 1⟩

/-- Whether a float carries a minus sign. -/
def isNegative (x : Float) : Bool :=
  x.toBits.toNat / Nat.pow 2 63 == 1

end TagSearch.Number
