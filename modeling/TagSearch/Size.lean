import TagSearch.Number.Integer
import TagSearch.Text.Case

/-!
# File sizes

A size is a decimal number and a unit, such as `300kb`. The letters `k m g t p e` stand for powers
of 1000 and, with a following `i`, for powers of 1024; an `i` is understood before a final `b` after
`k`, `m`, `g` and `t`. A number of bits is an eighth of it in bytes. A size that is no whole
number of bytes is rounded up.
-/

namespace TagSearch.Size

open Text Number

/-- A unit as the fraction of bytes that it is worth. -/
structure UnitOf where
  num : Nat
  den : Nat
  deriving DecidableEq, Repr

/-- What may follow the letter of a unit: nothing or `b` for bytes, `bit` or `bits` for bits. -/
def readEnding? (scale : Nat) (t : Text) : Option UnitOf :=
  if t = [] ∨ t = ['b'] then some ⟨scale, 1⟩
  else if t = "bit".toList ∨ t = "bits".toList then some ⟨scale, 8⟩
  else none

/-- The power that a unit's letter stands for. -/
def powerOf? : Char → Option Nat
  | 'k' => some 1
  | 'm' => some 2
  | 'g' => some 3
  | 't' => some 4
  | 'p' => some 5
  | 'e' => some 6
  | _ => none

/-- Reads a lowercase unit. -/
def readUnit? (t : Text) : Option UnitOf :=
  match t with
  | [] => some ⟨1, 1⟩
  | c :: rest =>
    match powerOf? c with
    | none => readEnding? 1 t
    | some power =>
      match rest with
      | 'i' :: ending => readEnding? (Nat.pow 1024 power) ending
      | _ => readEnding? (Nat.pow 1000 power) rest

/-- Writes the `i` that is understood before a final `b`. -/
def spellOut (t : Text) : Text :=
  match t.reverse with
  | 'b' :: c :: rest =>
    if c == 'k' || c == 'm' || c == 'g' || c == 't' then (c :: rest).reverse ++ ['i', 'b'] else t
  | _ => t

/-- Reads digits with an optional fraction: the digits as one number, the number of decimals, and
what follows. A point needs digits on both sides. -/
def takeAmount? (t : Text) : Option (Nat × Nat × Text) :=
  let whole := t.takeWhile isDigit
  if whole.isEmpty then none
  else match t.dropWhile isDigit with
    | '.' :: after =>
      let fraction := after.takeWhile isDigit
      if fraction.isEmpty then none
      else some (natOfDigits (whole ++ fraction), fraction.length, after.dropWhile isDigit)
    | rest => some (natOfDigits whole, 0, rest)

/-- Reads a size in bytes, rounded up. It must fit into 64 bits with a sign. -/
def read? (t : Text) : Option Int := do
  let (amount, decimals, rest) ← takeAmount? (spellOut (asciiLowercase t))
  let unit ← readUnit? (rest.dropWhile (· == ' '))
  let den := unit.den * Nat.pow 10 decimals
  let bytes := (amount * unit.num + den - 1) / den
  if (bytes : Int) ≤ maxInt64 then some (bytes : Int) else none

end TagSearch.Size
