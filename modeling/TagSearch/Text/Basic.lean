/-!
# Text

A search is read as a list of characters. `Text` is that list; `String` is kept for fixed words
and for what is printed.

White space comes in two sizes. *Blanks* separate the tokens of a search and are ASCII only;
*white space* is the Unicode property `White_Space`, used when a value or a name is trimmed.
-/

namespace TagSearch

/-- A text under study, one entry per Unicode scalar value. -/
abbrev Text := List Char

namespace Text

/-! ## Character classes -/

/-- A character that separates tokens: the six ASCII blanks, vertical tab and form feed included. -/
def isBlank (c : Char) : Bool :=
  c == ' ' || c == '\t' || c == '\n' || c == '\x0b' || c == '\x0c' || c == '\r'

/-- The Unicode property `White_Space`. Every blank has it. -/
def isSpace (c : Char) : Bool :=
  let n := c.toNat
  (0x09 ≤ n && n ≤ 0x0d) || n == 0x20 || n == 0x85 || n == 0xa0 || n == 0x1680
    || (0x2000 ≤ n && n ≤ 0x200a) || n == 0x2028 || n == 0x2029 || n == 0x202f
    || n == 0x205f || n == 0x3000

/-- An ASCII letter or digit, or `_`: the characters of a metatag's name. -/
def isNameChar (c : Char) : Bool :=
  c.isAlphanum || c == '_'

theorem isSpace_of_isBlank {c : Char} (h : isBlank c = true) : isSpace c = true := by
  simp only [isBlank, Bool.or_eq_true, beq_iff_eq] at h
  rcases h with ((((rfl | rfl) | rfl) | rfl) | rfl) | rfl <;> decide

/-! ## Cutting -/

/-- Drops from both ends the characters that satisfy `p`. -/
def trimBy (p : Char → Bool) (t : Text) : Text :=
  ((t.dropWhile p).reverse.dropWhile p).reverse

/-- The text without surrounding white space. -/
def trim (t : Text) : Text :=
  t.trimBy isSpace

/-- The text without surrounding blanks. -/
def trimBlanks (t : Text) : Text :=
  t.trimBy isBlank

/-- Whether nothing but white space is left. -/
def isWhite (t : Text) : Bool :=
  t.all isSpace

/-- The pieces between the characters that satisfy `p`, empty pieces included. -/
def piecesBy (p : Char → Bool) : Text → List Text
  | [] => [[]]
  | c :: rest =>
    if p c then [] :: piecesBy p rest
    else match piecesBy p rest with
      | [] => [[c]]
      | piece :: pieces => (c :: piece) :: pieces

/-- The words of a text: what stands between white space. -/
def words (t : Text) : List Text :=
  (t.piecesBy isSpace).filter (!·.isEmpty)

/-- All pieces between the occurrences of `sep`, empty ones included. -/
def splitOn (sep : Char) (t : Text) : List Text :=
  t.piecesBy (· == sep)

/-- What precedes and what follows the first `sep`, if there is one. -/
def cut? (sep : Char) : Text → Option (Text × Text)
  | [] => none
  | c :: rest =>
    if c == sep then some ([], rest)
    else (cut? sep rest).map fun (before, after) => (c :: before, after)

theorem cut?_eq {sep : Char} {t before after : Text} (h : cut? sep t = some (before, after)) :
    t = before ++ sep :: after := by
  induction t generalizing before with
  | nil => simp [cut?] at h
  | cons c rest ih =>
    unfold cut? at h
    split at h
    · next hc =>
      simp only [Option.some.injEq, Prod.mk.injEq] at h
      obtain ⟨rfl, rfl⟩ := h
      simp [beq_iff_eq.mp hc]
    · obtain ⟨⟨b, a⟩, hb, he⟩ := Option.map_eq_some_iff.mp h
      simp only [Prod.mk.injEq] at he
      obtain ⟨rfl, rfl⟩ := he
      simp [ih hb]

/-- The text after `start`, if it begins so. -/
def dropStart? (start : Text) (t : Text) : Option Text :=
  if start.isPrefixOf t then some (t.drop start.length) else none

/-- The text before `ending`, if it ends so. -/
def dropEnd? (ending : Text) (t : Text) : Option Text :=
  (dropStart? ending.reverse t.reverse).map List.reverse

/-- Joins pieces with one space between neighbours. -/
def unwords (pieces : List Text) : Text :=
  [' '].intercalate pieces

/-- Joins pieces with `sep` between neighbours. -/
def joinWith (sep : Char) (pieces : List Text) : Text :=
  [sep].intercalate pieces

/-- One enclosing pair of double quotes is removed; a quote on one side only stays. -/
def unquote (t : Text) : Text :=
  match t with
  | '"' :: rest =>
    match rest.reverse with
    | '"' :: inner => inner.reverse
    | _ => t
  | _ => t

/-! ## Order and size -/

/-- Compares two lists at their first difference. A list comes before its extensions. -/
def leByFirst {α : Type} [DecidableEq α] (le : α → α → Bool) : List α → List α → Bool
  | [], _ => true
  | _ :: _, [] => false
  | a :: as, b :: bs => if a = b then leByFirst le as bs else le a b

/-- The order by code points, which is also the order of the UTF-8 bytes. -/
def le (a b : Text) : Bool :=
  leByFirst (fun c d => c.toNat ≤ d.toNat) a b

/-- Sorts by code points; equal texts stay in order. -/
def sort (ts : List Text) : List Text :=
  ts.mergeSort le

/-- The number of bytes of the text in UTF-8. -/
def byteLength (t : Text) : Nat :=
  t.foldr (fun c n => c.utf8Size + n) 0

/-- The printed form. -/
def toStr (t : Text) : String :=
  String.ofList t

end Text

end TagSearch
