import TagSearch.Number.Decimal
import TagSearch.Toml.Basic

/-!
# Strings, numbers and flags of TOML

Each reader takes a text and yields what it read and what follows.
-/

namespace TagSearch.Toml

open Text Number

/-! ## Strings -/

/-- The value of a hexadecimal digit. -/
def hexValue? (c : Char) : Option Nat :=
  if '0' ≤ c && c ≤ '9' then some (c.toNat - 0x30)
  else if 'a' ≤ c && c ≤ 'f' then some (c.toNat - 0x57)
  else if 'A' ≤ c && c ≤ 'F' then some (c.toNat - 0x37)
  else none

/-- The number that digits denote in a base. -/
def natOfBase? (base : Nat) (digits : Text) : Option Nat :=
  digits.foldlM (fun n c => do
    let d ← hexValue? c
    if d < base then some (base * n + d) else none) 0

/-- The character with a code given in hexadecimal. -/
def charOfHex? (digits : Text) : Option Char := do
  let n ← natOfBase? 16 digits
  if n.isValidChar then some (Char.ofNat n) else none

/-- The character that a letter stands for after a backslash. -/
def escaped? : Char → Option Char
  | 'b' => some '\x08'
  | 't' => some '\t'
  | 'n' => some '\n'
  | 'f' => some '\x0c'
  | 'r' => some '\r'
  | '"' => some '"'
  | '\\' => some '\\'
  | _ => none

/-- A control character that no string may hold as it is. -/
def isControl (c : Char) : Bool :=
  c != '\t' && (c.toNat < 0x20 || c.toNat == 0x7f)

/-- A character in front of what a reader yields. -/
def withChar (c : Char) (result : Option (Text × Text)) : Option (Text × Text) :=
  result.map fun (body, rest) => (c :: body, rest)

/-- Reads the rest of a string in double quotes. -/
def basicRest : Text → Option (Text × Text)
  | [] => none
  | '"' :: rest => some ([], rest)
  | '\\' :: 'u' :: a :: b :: c :: d :: rest =>
    (charOfHex? [a, b, c, d]).bind fun x => withChar x (basicRest rest)
  | '\\' :: 'U' :: a :: b :: c :: d :: e :: f :: g :: h :: rest =>
    (charOfHex? [a, b, c, d, e, f, g, h]).bind fun x => withChar x (basicRest rest)
  | '\\' :: c :: rest => (escaped? c).bind fun x => withChar x (basicRest rest)
  | c :: rest => if isControl c || c == '\\' then none else withChar c (basicRest rest)

/-- Reads the rest of a string in single quotes. -/
def literalRest : Text → Option (Text × Text)
  | [] => none
  | '\'' :: rest => some ([], rest)
  | c :: rest => if isControl c then none else withChar c (literalRest rest)

/-- Reads the rest of a string in three double quotes. After a backslash at the end of a line, white
space is skipped; every line break is read as a line feed. -/
def longBasicRest (skipping : Bool) : Text → Option (Text × Text)
  | [] => none
  | '"' :: '"' :: '"' :: '"' :: '"' :: rest => some (['"', '"'], rest)
  | '"' :: '"' :: '"' :: '"' :: rest => some (['"'], rest)
  | '"' :: '"' :: '"' :: rest => some ([], rest)
  | '\\' :: 'u' :: a :: b :: c :: d :: rest =>
    (charOfHex? [a, b, c, d]).bind fun x => withChar x (longBasicRest false rest)
  | '\\' :: 'U' :: a :: b :: c :: d :: e :: f :: g :: h :: rest =>
    (charOfHex? [a, b, c, d, e, f, g, h]).bind fun x => withChar x (longBasicRest false rest)
  | '\\' :: c :: rest =>
    if c == '\n' || c == ' ' || c == '\t' || c == '\r' then
      if ((c :: rest).dropWhile fun d => d == ' ' || d == '\t' || d == '\r').head? == some '\n' then
        longBasicRest true rest
      else none
    else (escaped? c).bind fun x => withChar x (longBasicRest false rest)
  | '\r' :: '\n' :: rest =>
    if skipping then longBasicRest true rest else withChar '\n' (longBasicRest false rest)
  | c :: rest =>
    if skipping && (c == ' ' || c == '\t' || c == '\n') then longBasicRest true rest
    else if c == '\\' then none
    else if isControl c && c != '\n' then none
    else withChar c (longBasicRest false rest)

/-- Reads the rest of a string in three single quotes. -/
def longLiteralRest : Text → Option (Text × Text)
  | [] => none
  | '\'' :: '\'' :: '\'' :: '\'' :: '\'' :: rest => some (['\'', '\''], rest)
  | '\'' :: '\'' :: '\'' :: '\'' :: rest => some (['\''], rest)
  | '\'' :: '\'' :: '\'' :: rest => some ([], rest)
  | '\r' :: '\n' :: rest => withChar '\n' (longLiteralRest rest)
  | c :: rest =>
    if isControl c && c != '\n' then none else withChar c (longLiteralRest rest)

/-- A line break right after the opening of a long string is not part of it. -/
def dropFirstLine : Text → Text
  | '\n' :: rest => rest
  | '\r' :: '\n' :: rest => rest
  | t => t

/-! ## Numbers -/

/-- A row of digits in which single underscores may stand between digits. -/
def plainDigits? (isDigitOf : Char → Bool) (t : Text) : Option Text :=
  let pieces := t.splitOn '_'
  if pieces.all fun p => !p.isEmpty && p.all isDigitOf then some pieces.flatten else none

/-- Decimal digits without a leading zero. -/
def decimalDigits? (t : Text) : Option Text := do
  let digits ← plainDigits? isDigit t
  match digits with
  | '0' :: _ :: _ => none
  | _ => some digits

/-- Reads an integer that fits into 64 bits. -/
def readInteger? (t : Text) : Option Int :=
  let value : Option Int := match t with
    | '0' :: 'x' :: rest => inBase 16 rest
    | '0' :: 'o' :: rest => inBase 8 rest
    | '0' :: 'b' :: rest => inBase 2 rest
    | _ =>
      let (negative, body) := takeSign t
      (decimalDigits? body).map fun digits =>
        if negative then -(natOfDigits digits : Int) else natOfDigits digits
  value.filter fitsInt64
where
  /-- Reads digits of another base. -/
  inBase (base : Nat) (digits : Text) : Option Int := do
    let digits ← plainDigits? (fun c => ((hexValue? c).any (· < base))) digits
    return (← natOfBase? base digits : Nat)

/-- Reads a float: digits, a fraction or an exponent or both, or one of the special values. -/
def readFloating? (t : Text) : Option Float :=
  let (negative, body) := takeSign t
  let sign := if negative then ['-'] else []
  if body == "inf".toList then some (if negative then -1.0 / 0.0 else 1.0 / 0.0)
  else if body == "nan".toList then some (0.0 / 0.0)
  else do
    let (mantissa, exponent) := match body.span fun c => c != 'e' && c != 'E' with
      | (m, _ :: e) => (m, some e)
      | (m, []) => (m, none)
    let exponentText ← match exponent with
      | none => some []
      | some e =>
        let (below, digits) := takeSign e
        (plainDigits? isDigit digits).map fun d => 'e' :: ((if below then ['-'] else []) ++ d)
    match cut? '.' mantissa with
    | some (whole, fraction) => do
      let whole ← decimalDigits? whole
      let fraction ← plainDigits? isDigit fraction
      readBounded? (sign ++ whole ++ '.' :: fraction ++ exponentText)
    | none => do
      let whole ← decimalDigits? mantissa
      if exponent.isNone then none else readBounded? (sign ++ whole ++ exponentText)
where
  /-- Reads a number that is not too large. -/
  readBounded? (t : Text) : Option Float :=
    ((readNumeral? t).map Numeral.toFloat).filter fun x => x != 1.0 / 0.0

/-- Reads a flag or a number. -/
def readBare? (t : Text) : Option Toml :=
  if t == "true".toList then some (.bool true)
  else if t == "false".toList then some (.bool false)
  else (readInteger? t).map .int <|> (readFloating? t).map .float

end TagSearch.Toml
