import TagSearch.Toml.Document
import TagSearch.Toml.Moment
import TagSearch.Toml.Scalar

/-!
# Reading TOML

A document is a row of statements, one a line: a header opens a table, a key sets a value in the
table that is open. Values nest, and so the readers of values and of statements take a bound on the
number of steps; each step takes a character, so the length of the text is bound enough.
-/

namespace TagSearch.Toml

open Text

/-! ## Space and keys -/

/-- The text without spaces and tabs in front. -/
def skipBlanks (t : Text) : Text :=
  t.dropWhile fun c => c == ' ' || c == '\t'

/-- The text without a comment in front, up to the end of the line. -/
def skipComment : Text → Text
  | '#' :: rest => rest.dropWhile fun c => !isControl c
  | t => t

/-- The text after a line break. -/
def afterNewline? : Text → Option Text
  | '\n' :: rest => some rest
  | '\r' :: '\n' :: rest => some rest
  | _ => none

/-- The text without blanks, line breaks and comments in front. A comment ends before a control
character. -/
def skipLines (inComment : Bool) : Text → Text
  | [] => []
  | '\n' :: rest => skipLines false rest
  | '\r' :: '\n' :: rest => skipLines false rest
  | c :: rest =>
    if inComment then if isControl c then c :: rest else skipLines true rest
    else if c == ' ' || c == '\t' then skipLines false rest
    else if c == '#' then skipLines true rest
    else c :: rest

/-- A character of a key without quotes. -/
def isKeyChar (c : Char) : Bool :=
  c.isAlphanum || c == '_' || c == '-'

/-- Reads one part of a key. -/
def takeKeyPart? (t : Text) : Option (Text × Text) :=
  match t with
  | '"' :: rest => basicRest rest
  | '\'' :: rest => literalRest rest
  | _ =>
    let key := t.takeWhile isKeyChar
    if key.isEmpty then none else some (key, t.dropWhile isKeyChar)

/-- Reads a key, its parts apart by dots. -/
def takeKey? : (bound : Nat) → Text → Option (List Text × Text)
  | 0, _ => none
  | bound + 1, t => do
    let (part, rest) ← takeKeyPart? (skipBlanks t)
    match skipBlanks rest with
    | '.' :: more => do
      let (parts, rest) ← takeKey? bound more
      return (part :: parts, rest)
    | rest => return ([part], rest)

/-! ## Values -/

/-- A character of a value without quotes or brackets. -/
def isBareChar (c : Char) : Bool :=
  isKeyChar c || c == '+' || c == '.' || c == ':'

/-- Reads a value without quotes or brackets. -/
def takeBare? (t : Text) : Option (Toml × Text) :=
  match takeMoment? t with
  | some (text, rest) => some (.moment text, rest)
  | none => (readBare? (t.takeWhile isBareChar)).map fun v => (v, t.dropWhile isBareChar)

mutual

/-- Reads a value. -/
def takeValue? : (bound : Nat) → Text → Option (Toml × Text)
  | 0, _ => none
  | bound + 1, t =>
    match t with
    | '"' :: '"' :: '"' :: rest =>
      (longBasicRest false (dropFirstLine rest)).map fun (s, rest) => (.str s, rest)
    | '"' :: rest => (basicRest rest).map fun (s, rest) => (.str s, rest)
    | '\'' :: '\'' :: '\'' :: rest =>
      (longLiteralRest (dropFirstLine rest)).map fun (s, rest) => (.str s, rest)
    | '\'' :: rest => (literalRest rest).map fun (s, rest) => (.str s, rest)
    | '[' :: rest => (takeItems? bound rest).map fun (items, rest) => (.array items, rest)
    | '\x7b' :: rest =>
      match skipBlanks rest with
      | '\x7d' :: rest => some (.table [], rest)
      | rest => (takeMembers? bound [] rest).map fun (s, rest) => (.table (sectionToToml s), rest)
    | _ => takeBare? t

/-- Reads the items of an array and its closing bracket. -/
def takeItems? : (bound : Nat) → Text → Option (List Toml × Text)
  | 0, _ => none
  | bound + 1, t =>
    match skipLines false t with
    | ']' :: rest => some ([], rest)
    | t => do
      let (item, rest) ← takeValue? bound t
      match skipLines false rest with
      | ']' :: rest => return ([item], rest)
      | ',' :: rest => do
        let (items, rest) ← takeItems? bound rest
        return (item :: items, rest)
      | _ => none

/-- Reads the members of an inline table and its closing brace. -/
def takeMembers? : (bound : Nat) → Section → Text → Option (Section × Text)
  | 0, _, _ => none
  | bound + 1, s, t => do
    let (path, rest) ← takeKey? (t.length + 1) t
    match skipBlanks rest with
    | '=' :: rest => do
      let (v, rest) ← takeValue? bound (skipBlanks rest)
      let s ← s.set path v
      match skipBlanks rest with
      | '\x7d' :: rest => return (s, rest)
      | ',' :: rest => takeMembers? bound s rest
      | _ => none
    | _ => none

end

/-! ## Statements -/

/-- An unfinished document: its root table, and the path of the table that is open. -/
structure Draft where
  root : Section := []
  path : List Text := []

/-- Reads a header's path up to its closing brackets. -/
def takeHeader? (closing : Text) (t : Text) : Option (List Text × Text) := do
  let (path, rest) ← takeKey? (t.length + 1) t
  return (path, ← dropStart? closing (skipBlanks rest))

/-- Reads one statement. -/
def takeStatement? (draft : Draft) (t : Text) : Option (Draft × Text) :=
  match t with
  | '[' :: '[' :: rest => do
    let (path, rest) ← takeHeader? [']', ']'] rest
    return (⟨← draft.root.openItem path, path⟩, rest)
  | '[' :: rest => do
    let (path, rest) ← takeHeader? [']'] rest
    return (⟨← draft.root.openTable path, path⟩, rest)
  | _ => do
    let (path, rest) ← takeKey? (t.length + 1) t
    match skipBlanks rest with
    | '=' :: rest => do
      let rest := skipBlanks rest
      let (v, rest) ← takeValue? (rest.length + 1) rest
      let root ← draft.root.within (fun table => table.set path v) draft.path
      return (⟨root, draft.path⟩, rest)
    | _ => none

/-- Reads statements up to the end. -/
def takeStatements? : (bound : Nat) → Draft → Text → Option Draft
  | 0, _, _ => none
  | bound + 1, draft, t =>
    match skipLines false t with
    | [] => some draft
    | t => do
      let (draft, rest) ← takeStatement? draft t
      match skipComment (skipBlanks rest) with
      | [] => return draft
      | rest => takeStatements? bound draft (← afterNewline? rest)

/-- Reads a document. -/
def read? (t : Text) : Option (List (Text × Toml)) :=
  let t := match t with
    | '\ufeff' :: rest => rest
    | _ => t
  (takeStatements? (t.length + 1) {} t).map fun draft => sectionToToml draft.root

end TagSearch.Toml
