import TagSearch.Scan.Nested

/-!
# Lookups in a raw search

Metatags and tags can be found in a search without compiling it. A metatag's name is matched
exactly, its modifier included; one pair of quotes around a value is removed, and blank values are
passed over.
-/

namespace TagSearch.Lookup

open Text

/-- The recognized values of the `status` metatag. -/
def statusValues : List Text :=
  ["all", "any", "pending", "flagged", "modqueue", "deleted", "active"].map String.toList

/-- The tokens that a lookup visits: those of the top level or, with `recurse`, also those inside
groups up to `maxDepth` deep. -/
def visited (recurse : Bool) (search : Text) : List Token :=
  Tree.leavesOf (if recurse then maxDepth else 0) (Tree.ofText (cleanSearch search))

/-- The name and the value of a token, if the name is one of `names` and the value not blank. -/
def match? (names : List Text) (token : Token) : Option (Text × Text) :=
  match cut? ':' token.text with
  | some (name, value) =>
    let value := unquote value
    if names.contains name && !isWhite value then some (name, value) else none
  | none => none

/-- Every match of a search, in document order. -/
def allMatches (names : List Text) (recurse : Bool) (search : Text) : List (Text × Text) :=
  (visited recurse search).filterMap (match? names)

/-- The values of each name that has one; names sorted, values in document order. -/
def metatags (names : List Text) (recurse : Bool) (search : Text) : List (Text × List Text) :=
  let found := allMatches names recurse search
  (Text.sort (found.map (·.1))).eraseDups.map fun name =>
    (name, (found.filter (·.1 == name)).map (·.2))

/-- The first value of any of the names. -/
def metatag? (names : List Text) (recurse : Bool) (search : Text) : Option Text :=
  (visited recurse search).findSome? fun token => (match? names token).map (·.2)

/-- Whether any of the names has a value. -/
def hasMetatag (names : List Text) (recurse : Bool) (search : Text) : Bool :=
  (metatag? names recurse search).isSome

/-! ## Tags in a list of tokens -/

/-- Whether a text is one whole group. -/
def isWholeGroup (t : Text) : Bool :=
  match tokenize t with
  | token :: _ => token.isGroup && token.text.byteLength == t.byteLength
  | [] => false

/-- The options under which an entry is searched: modifiers kept, markers left out. -/
def tagOptions : Scan.Options :=
  { dropRepeats := true, delimitGroups := false }

/-- The tags of an entry: itself, or all tags of a whole group. -/
def entryTags (entry : Text) : List Text :=
  let entry := entry.trim
  if isWholeGroup entry then
    match Scan.scan tagOptions id entry with
    | .ok items => items.filterMap fun
        | .tag text => some text
        | .nested _ => none
    | .error _ => []
  else [entry]

/-- Which of the wanted tags appear among the entries, each once. With `recurse`, entries are
trimmed, groups are searched, and the order is that of appearance; otherwise entries are compared
as they stand and the order is that of `wanted`. -/
def tags (entries wanted : List Text) (recurse : Bool) : List Text :=
  if recurse then ((entries.flatMap entryTags).filter wanted.contains).eraseDups
  else (wanted.filter entries.contains).eraseDups

/-! ## Deleted posts -/

/-- The metatags that tell whether deleted posts are asked for. -/
def deletionNames : List Text :=
  ["status", "-status", "delreason", "-delreason", "~delreason", "deletedby", "-deletedby",
    "~deletedby"].map String.toList

/-- Whether a match asks for posts by their deletion: any reason or deleter does, and a status if
it is recognized. -/
def concernsDeletion (name value : Text) : Bool :=
  if (dropEnd? "status".toList name).isSome then statusValues.contains value.lowercase else true

/-- Whether a search hides deleted posts. -/
def hidesDeleted (search : Text) (alwaysShow : Bool) : Bool :=
  !alwaysShow &&
    !(allMatches deletionNames true search).any fun (name, value) => concernsDeletion name value

end TagSearch.Lookup
