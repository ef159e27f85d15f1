import TagSearch.Json
import TagSearch.Toml.Basic

/-!
# Writing TOML

Values come before tables. A list of two or more items takes a line for each item. Strings are
quoted in the plainest way that needs no escape.
-/

namespace TagSearch.Toml

open Text Number

/-! ## Quoting -/

/-- A control character other than tab and line feed. -/
def needsEscape (c : Char) : Bool :=
  c != '\t' && c != '\n' && (c.toNat < 0x20 || c.toNat == 0x7f)

/-- The longest run of a character. -/
def longestRun (c : Char) (t : Text) : Nat :=
  (t.foldl (fun (longest, run) d =>
    if d == c then (max longest (run + 1), run + 1) else (longest, 0)) (0, 0)).1

/-- A character other than a quote inside double quotes. In a long string line breaks stay. -/
def escapeChar (long : Bool) (c : Char) : Text :=
  match c with
  | '\\' => ['\\', '\\']
  | '\x08' => ['\\', 'b']
  | '\x0c' => ['\\', 'f']
  | '\r' => ['\\', 'r']
  | '\t' => ['\\', 't']
  | '\n' => if long then ['\n'] else ['\\', 'n']
  | c =>
    if c.toNat < 0x20 || c.toNat == 0x7f then
      "\\u00".toList
        ++ [Json.hexDigit (c.toNat / 16), Json.hexDigit (c.toNat % 16)].map Char.toUpper
    else [c]

/-- A text inside double quotes. `room` is the number of quotes that may stand here as they are: in
a long string two in a row, otherwise none. -/
def escape (long : Bool) (room : Nat) : Text → Text
  | [] => []
  | '"' :: rest =>
    match room with
    | 0 => '\\' :: '"' :: escape long (quotesAtOnce long) rest
    | room + 1 => '"' :: escape long room rest
  | c :: rest => escapeChar long c ++ escape long (quotesAtOnce long) rest
where
  /-- The number of quotes in a row that need no escape. -/
  quotesAtOnce (long : Bool) : Nat :=
    if long then 2 else 0

/-- Three of a character. -/
def triple (c : Char) : Text := [c, c, c]

/-- A text in double quotes. -/
def basicString (t : Text) : Text :=
  '"' :: (escape false 0 t ++ ['"'])

/-- A text in single quotes. -/
def literalString (t : Text) : Text :=
  '\'' :: (t ++ ['\''])

/-- A text in three quotes. If it has several lines, it starts on a line of its own. -/
def longString (quote : Char) (body t : Text) : Text :=
  triple quote ++ (if t.contains '\n' then ['\n'] else []) ++ body ++ triple quote

/-- A string value. Double quotes are preferred, then single quotes, then their long forms, as long
as no more than a tab has to be escaped. -/
def quoteString (t : Text) : Text :=
  let controls := t.any needsEscape
  let slashes := t.contains '\\'
  let lines := t.contains '\n'
  let doubles := longestRun '"' t
  let singles := longestRun '\'' t
  if !controls && !slashes && doubles == 0 && !lines then basicString t
  else if !controls && singles == 0 && !lines then literalString t
  else if !controls && !slashes && doubles ≤ 2 then longString '"' (escape true 2 t) t
  else if !controls && singles ≤ 2 then longString '\'' t t
  else if lines then longString '"' (escape true 2 t) t
  else basicString t

/-- A key: bare if it can be, otherwise quoted on one line. -/
def quoteKey (t : Text) : Text :=
  let controls := t.any fun c => needsEscape c || c == '\n'
  if !t.isEmpty && t.all fun c => c.isAlphanum || c == '_' || c == '-' then t
  else if !controls && !t.contains '\\' && !t.contains '"' then basicString t
  else if !controls && !t.contains '\'' then literalString t
  else basicString t

/-! ## Values -/

/-- Floats are written in full, whole numbers with `.0`. -/
def numberLayout : Layout := ⟨-400, 400, true⟩

mutual

/-- A value on the right of a key. -/
def inlineText : Toml → Text
  | str text => quoteString text
  | int n => intText n
  | float x => numberLayout.write x
  | bool b => if b then "true".toList else "false".toList
  | moment text => text
  | array [] => ['[', ']']
  | array [item] => '[' :: (inlineText item ++ [']'])
  | array (first :: second :: rest) =>
    "[\n".toList ++ itemLines (first :: second :: rest) ++ [']']
  | table entries => "\x7b ".toList ++ memberTexts entries ++ " \x7d".toList

/-- The items of an array, one a line. -/
def itemLines : List Toml → Text
  | [] => []
  | item :: rest => "    ".toList ++ inlineText item ++ ",\n".toList ++ itemLines rest

/-- The members of a table on one line. -/
def memberTexts : List (Text × Toml) → Text
  | [] => []
  | (key, value) :: rest =>
    quoteKey key ++ " = ".toList ++ inlineText value ++
      match rest with
      | [] => []
      | _ :: _ => ", ".toList ++ memberTexts rest

end

/-! ## Documents -/

/-- Whether a value is written under a header. -/
def isTable : Toml → Bool
  | table _ => true
  | _ => false

/-- The line of a key. -/
def entryLine (entry : Text × Toml) : Text :=
  quoteKey entry.1 ++ " = ".toList ++ inlineText entry.2 ++ ['\n']

/-- The lines of the values of a table. -/
def valueLines (entries : List (Text × Toml)) : Text :=
  (entries.filter fun entry => !isTable entry.2).flatMap entryLine

/-- A table under its header. -/
def headedTable (key : Text) (entries : List (Text × Toml)) : Text :=
  '[' :: (quoteKey key ++ "]\n".toList ++ valueLines entries)

/-- A document whose tables hold values only. Blank lines separate its parts. -/
def write (entries : List (Text × Toml)) : Text :=
  let parts := valueLines entries :: entries.filterMap fun (key, value) =>
    match value with
    | table inner => some (headedTable key inner)
    | _ => none
  ['\n'].intercalate (parts.filter (!·.isEmpty))

end TagSearch.Toml
