import TagSearch.Text.Canonical
import TagSearch.Text.Case

/-!
# Searches and tag names

A search is brought to canonical composition and trimmed before it is read. A tag name is
lowercased as well, and its words are joined by underscores.
-/

namespace TagSearch

open Text

/-- The deepest nesting of groups that is ever looked into. Configured limits are cut to it. -/
def maxDepth : Nat := 10

/-- A search ready for lexing: canonically composed, without blanks and NULs at its ends. -/
def cleanSearch (t : Text) : Text :=
  t.compose.trimBy fun c => isBlank c || c == '\x00'

/-- A tag name as it is stored: canonically composed, lowercase, words joined by `_`. -/
def tagName (t : Text) : Text :=
  joinWith '_' t.compose.lowercase.words

/-- Whether the whole search is one group with nothing but blanks inside, such as `( )` or
`-( )`. -/
def isEmptyGroup (t : Text) : Bool :=
  let body := match t with
    | '-' :: rest => rest
    | '~' :: rest => rest
    | _ => t
  match body with
  | '(' :: rest =>
    match rest.reverse with
    | ')' :: inner => !inner.isEmpty && inner.all isBlank
    | _ => false
  | _ => false

end TagSearch
