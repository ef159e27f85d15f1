import TagSearch.Text.Basic

/-!
# Integers as text

Integers are read in decimal, with an optional sign and ASCII digits only, and must fit into 64
bits.
-/

namespace TagSearch.Number

/-- The largest signed 64-bit integer. -/
def maxInt64 : Int := 9223372036854775807

/-- The smallest signed 64-bit integer. -/
def minInt64 : Int := -9223372036854775808

/-- Whether an integer fits into 64 bits. -/
def fitsInt64 (n : Int) : Bool :=
  minInt64 ≤ n && n ≤ maxInt64

/-- The product of two integers, if it fits into 64 bits. -/
def times? (a b : Int) : Option Int :=
  (some (a * b)).filter fitsInt64

/-- An ASCII digit. -/
def isDigit (c : Char) : Bool :=
  '0' ≤ c && c ≤ '9'

/-- The value of an ASCII digit. -/
def digitValue (c : Char) : Nat :=
  c.toNat - '0'.toNat

/-- The number that a row of digits denotes. -/
def natOfDigits (digits : Text) : Nat :=
  digits.foldl (fun n c => 10 * n + digitValue c) 0

/-- Reads a row of digits, at least one. -/
def readNat? (t : Text) : Option Nat :=
  if t.isEmpty || !t.all isDigit then none else some (natOfDigits t)

/-- Reads an optional sign: whether it is a minus, and what follows. -/
def takeSign : Text → Bool × Text
  | '-' :: rest => (true, rest)
  | '+' :: rest => (false, rest)
  | t => (false, t)

/-- Reads an integer of any size. -/
def readSigned? (t : Text) : Option Int :=
  let (negative, digits) := takeSign t
  (readNat? digits).map fun n => if negative then -(n : Int) else n

/-- Reads an integer that fits into 64 bits. -/
def readInt? (t : Text) : Option Int :=
  (readSigned? t).filter fitsInt64

/-- The decimal digits of a number. -/
def natText (n : Nat) : Text :=
  Nat.toDigits 10 n

/-- An integer in decimal. -/
def intText (n : Int) : Text :=
  if n < 0 then '-' :: natText n.natAbs else natText n.natAbs

end TagSearch.Number
