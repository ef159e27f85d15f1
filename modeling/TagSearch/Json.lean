import TagSearch.Number.Decimal

/-!
# JSON

The values that answers are written as, and their two written forms: compact, and indented by two
spaces a level.
-/

namespace TagSearch

open Number

/-- A JSON value. The members of an object are written in the order given. -/
inductive Json where
  | null
  | bool (b : Bool)
  | int (n : Int)
  | float (x : Float)
  | str (text : Text)
  | arr (items : List Json)
  | obj (members : List (String × Json))

namespace Json

/-- A fixed word as a value. -/
def word (s : String) : Json :=
  str s.toList

/-- An optional value; nothing is `null`. -/
def option {α : Type} (f : α → Json) : Option α → Json
  | some a => f a
  | none => null

/-- A list of texts. -/
def texts (ts : List Text) : Json :=
  arr (ts.map str)

/-- Numbers with a leading digit from the fifth decimal place up to the sixteenth digit before the
point are written in full, whole numbers with `.0`. -/
def numberLayout : Layout := ⟨-5, 15, true⟩

/-- A float; an infinity has no JSON form and becomes `null`. -/
def floatText (x : Float) : Text :=
  if x.isFinite then numberLayout.write x else "null".toList

/-- The lowercase hexadecimal digit. -/
def hexDigit (n : Nat) : Char :=
  if n < 10 then Char.ofNat (0x30 + n) else Char.ofNat (0x57 + n)

/-- A character inside quotes. -/
def escape (c : Char) : Text :=
  match c with
  | '"' => ['\\', '"']
  | '\\' => ['\\', '\\']
  | '\n' => ['\\', 'n']
  | '\r' => ['\\', 'r']
  | '\t' => ['\\', 't']
  | '\x08' => ['\\', 'b']
  | '\x0c' => ['\\', 'f']
  | c =>
    if c.toNat < 0x20 then
      ['\\', 'u', '0', '0', hexDigit (c.toNat / 16), hexDigit (c.toNat % 16)]
    else [c]

/-- A text in double quotes. -/
def quote (t : Text) : Text :=
  '"' :: (t.flatMap escape ++ ['"'])

/-- A new line, indented. -/
def newline (depth : Nat) : Text :=
  '\n' :: List.replicate (2 * depth) ' '

mutual

/-- The compact form. -/
def compact : Json → Text
  | null => "null".toList
  | bool b => if b then "true".toList else "false".toList
  | int n => intText n
  | float x => floatText x
  | str text => quote text
  | arr items => '[' :: (compactItems items ++ [']'])
  | obj members => '\x7b' :: (compactMembers members ++ ['\x7d'])

/-- Items apart by commas. -/
def compactItems : List Json → Text
  | [] => []
  | item :: [] => compact item
  | item :: rest => compact item ++ ',' :: compactItems rest

/-- Members apart by commas. -/
def compactMembers : List (String × Json) → Text
  | [] => []
  | (key, value) :: rest =>
    quote key.toList ++ ':' :: (compact value ++
      match rest with
      | [] => []
      | _ :: _ => ',' :: compactMembers rest)

end

mutual

/-- The indented form of a value at a depth. -/
def indented (depth : Nat) : Json → Text
  | arr [] => ['[', ']']
  | arr (item :: rest) =>
    '[' :: (indentedItems (depth + 1) (item :: rest) ++ newline depth ++ [']'])
  | obj [] => ['\x7b', '\x7d']
  | obj (m :: rest) =>
    '\x7b' :: (indentedMembers (depth + 1) (m :: rest) ++ newline depth ++ ['\x7d'])
  | value => compact value

/-- Items on lines of their own. -/
def indentedItems (depth : Nat) : List Json → Text
  | [] => []
  | item :: rest =>
    newline depth ++ indented depth item ++
      match rest with
      | [] => []
      | _ :: _ => ',' :: indentedItems depth rest

/-- Members on lines of their own. -/
def indentedMembers (depth : Nat) : List (String × Json) → Text
  | [] => []
  | (key, value) :: rest =>
    newline depth ++ quote key.toList ++ ':' :: ' ' :: (indented depth value ++
      match rest with
      | [] => []
      | _ :: _ => ',' :: indentedMembers depth rest)

end

/-- The indented form. -/
def pretty (value : Json) : Text :=
  value.indented 0

end Json

end TagSearch
