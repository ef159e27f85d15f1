import TagSearch.Number.Integer
import TagSearch.Number.Shortest

/-!
# Decimal numbers as text

Floats are read from decimal notation, correctly rounded, and written with the fewest digits that
read back.
-/

namespace TagSearch.Number

/-! ## Reading -/

/-- The parts of a number in decimal notation: `digits * 10 ^ exponent`. -/
structure Numeral where
  negative : Bool
  digits : Text
  exponent : Int

/-- Reads the exponent of a number: nothing, or `e` and an integer. -/
def readExponent? : Text → Option Int
  | [] => some 0
  | c :: rest => if c == 'e' || c == 'E' then readSigned? rest else none

/-- Reads a number in decimal notation: an optional sign, digits with or without a point, at least
one digit, and an optional exponent. -/
def readNumeral? (t : Text) : Option Numeral :=
  let (negative, body) := takeSign t
  let whole := body.takeWhile isDigit
  let rest := body.dropWhile isDigit
  let (fraction, rest) := match rest with
    | '.' :: after => (after.takeWhile isDigit, after.dropWhile isDigit)
    | _ => ([], rest)
  if whole.isEmpty && fraction.isEmpty then none
  else (readExponent? rest).map fun e => ⟨negative, whole ++ fraction, e - fraction.length⟩

/-- The float nearest to a number. A number past the range of floats is an infinity or zero. -/
def Numeral.toFloat (n : Numeral) : Float :=
  let digits := n.digits.dropWhile (· == '0')
  let magnitude := n.exponent + digits.length
  let size : Float :=
    if digits.isEmpty || magnitude < -400 then 0.0
    else if 400 < magnitude then 1.0 / 0.0
    else match n.exponent with
      | .ofNat e => Float.ofScientific (natOfDigits digits) false e
      | .negSucc e => Float.ofScientific (natOfDigits digits) true (e + 1)
  if n.negative then -size else size

/-- Reads a finite float. -/
def readFloat? (t : Text) : Option Float :=
  ((readNumeral? t).map Numeral.toFloat).filter Float.isFinite

/-! ## Writing -/

/-- How floats are laid out. -/
structure Layout where
  /-- The smallest exponent of the leading digit that is written out in full. -/
  least : Int
  /-- The largest exponent of the leading digit that is written out in full. -/
  most : Int
  /-- Whether a whole number ends in `.0`. -/
  point : Bool

/-- A number written out in full. -/
def positional (digits : Text) (leading : Int) (point : Bool) : Text :=
  match leading with
  | .negSucc k => '0' :: '.' :: (List.replicate k '0' ++ digits)
  | .ofNat k =>
    if digits.length ≤ k + 1 then
      digits ++ List.replicate (k + 1 - digits.length) '0' ++ (if point then ['.', '0'] else [])
    else digits.take (k + 1) ++ '.' :: digits.drop (k + 1)

/-- A number in scientific notation, its exponent signed. -/
def scientific (digits : Text) (leading : Int) : Text :=
  let mantissa := match digits with
    | d :: [] => [d]
    | d :: rest => d :: '.' :: rest
    | [] => []
  mantissa ++ 'e' :: (if leading < 0 then intText leading else '+' :: intText leading)

/-- A finite float as text. -/
def Layout.write (layout : Layout) (x : Float) : Text :=
  let sign := if isNegative x then ['-'] else []
  match binary? x with
  | none => sign ++ positional ['0'] 0 layout.point
  | some b =>
    let d := b.shortest
    let digits := natText d.digits
    let leading := d.exponent + digits.length - 1
    let digits := (digits.reverse.dropWhile (· == '0')).reverse
    sign ++
      if layout.least ≤ leading && leading ≤ layout.most then
        positional digits leading layout.point
      else scientific digits leading

end TagSearch.Number
