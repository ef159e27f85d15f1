import TagSearch.Search
import TagSearch.Toml.Reader
import TagSearch.Toml.Writer

/-!
# Aliases

An alias table says which tags are other names of a tag. Names may form chains, and a tag stands
for the end of its chain. An alias that would close a circle is refused, so every chain has an end.

The table is kept in both directions: from an alias to its tag, and from a tag to its aliases.
-/

namespace TagSearch

open Text

/-- Why an alias table refuses a change. -/
inductive AliasError where
  /-- A name that is blank, starts with a modifier or holds a wildcard. -/
  | invalidTag (name : Text)
  /-- The alias stands for another tag already. -/
  | taken (name canonical : Text)
  /-- The alias would stand for itself in the end. -/
  | circular (name canonical : Text)
  | notFound (name : Text)
  deriving DecidableEq, Repr

/-- What the error is reported as. -/
def AliasError.message : AliasError → Text
  | invalidTag name => "Invalid tag format: ".toList ++ name
  | taken name canonical =>
    "Alias '".toList ++ name ++ "' already exists for '".toList ++ canonical ++ ['\'']
  | circular name canonical =>
    "Circular alias detected: Adding alias '".toList ++ name ++ "' → '".toList ++ canonical
      ++ "' would create circular reference".toList
  | notFound name => "Alias '".toList ++ name ++ "' not found".toList

/-- The aliases of each tag that has any. -/
structure AliasIndex where
  entries : List (Text × List Text) := []
  deriving DecidableEq, Repr

namespace AliasIndex

/-- The aliases of a tag in a list of entries. -/
def lookup (canonical : Text) : List (Text × List Text) → List Text
  | [] => []
  | (tag, names) :: rest => if tag = canonical then names else lookup canonical rest

/-- Adds an alias of a tag to a list of entries. -/
def addTo (canonical name : Text) : List (Text × List Text) → List (Text × List Text)
  | [] => [(canonical, [name])]
  | (tag, names) :: rest =>
    if tag = canonical then (tag, names.insert name) :: rest
    else (tag, names) :: addTo canonical name rest

/-- Takes an alias of a tag from a list of entries. A tag that is left without one is dropped. -/
def dropFrom (canonical name : Text) : List (Text × List Text) → List (Text × List Text)
  | [] => []
  | (tag, names) :: rest =>
    if tag = canonical then
      let others := names.filter (· != name)
      if others.isEmpty then rest else (tag, others) :: rest
    else (tag, names) :: dropFrom canonical name rest

/-- The aliases of a tag. -/
def get (index : AliasIndex) (canonical : Text) : List Text :=
  lookup canonical index.entries

/-- Adds an alias of a tag. -/
def add (index : AliasIndex) (canonical name : Text) : AliasIndex :=
  ⟨addTo canonical name index.entries⟩

/-- Takes an alias of a tag away. -/
def drop (index : AliasIndex) (canonical name : Text) : AliasIndex :=
  ⟨dropFrom canonical name index.entries⟩

end AliasIndex

/-- Aliases with the tags they stand for. -/
structure AliasTable where
  /-- In the order in which they were added. -/
  pairs : List (Text × Text) := []
  /-- The same the other way round. -/
  index : AliasIndex := {}
  deriving DecidableEq, Repr

namespace AliasTable

/-- The tag that a name is a direct alias of. -/
def next? (table : AliasTable) (name : Text) : Option Text :=
  (table.pairs.find? fun pair => pair.1 == name).map Prod.snd

/-- Follows a chain for a number of steps at most. -/
def follow (table : AliasTable) : (steps : Nat) → Text → Text
  | 0, name => name
  | steps + 1, name =>
    match table.next? name with
    | some next => follow table steps next
    | none => name

/-- The tag that a name stands for. A chain without a circle has no more steps than the table has
aliases. -/
def canonicalize (table : AliasTable) (name : Text) : Text :=
  table.follow (table.pairs.length + 1) name

/-- Whether the chain from a name comes to a target, or goes on for more than a number of steps. -/
def reaches (table : AliasTable) (target : Text) : (steps : Nat) → Text → Bool
  | 0, _ => true
  | steps + 1, name =>
    match table.next? name with
    | some next => next == target || reaches table target steps next
    | none => false

/-- Whether an alias would close a circle. -/
def wouldCircle (table : AliasTable) (name canonical : Text) : Bool :=
  name == canonical || table.reaches name (table.pairs.length + 1) canonical

/-- Whether a name can be aliased. -/
def isValidName (name : Text) : Bool :=
  match name with
  | [] => false
  | c :: _ => c != '-' && c != '~' && !name.contains '*'

/-- Adds an alias. Adding one that is there already changes nothing. -/
def add (table : AliasTable) (name canonical : Text) : Except AliasError AliasTable :=
  let name := tagName name
  let canonical := tagName canonical
  if !isValidName name then .error (.invalidTag name)
  else if !isValidName canonical then .error (.invalidTag canonical)
  else match table.next? name with
    | some existing => if existing = canonical then .ok table else .error (.taken name existing)
    | none =>
      if table.wouldCircle name canonical then .error (.circular name canonical)
      else .ok ⟨table.pairs ++ [(name, canonical)], table.index.add canonical name⟩

/-- Removes an alias. -/
def remove (table : AliasTable) (name : Text) : Except AliasError AliasTable :=
  let name := tagName name
  match table.next? name with
  | some canonical =>
    .ok ⟨table.pairs.filter fun pair => pair.1 != name, table.index.drop canonical name⟩
  | none => .error (.notFound name)

/-- The direct aliases of a tag, sorted. -/
def aliasesOf (table : AliasTable) (canonical : Text) : List Text :=
  Text.sort (table.index.get canonical)

/-- All aliases with their tags, sorted. -/
def list (table : AliasTable) : List (Text × Text) :=
  table.pairs.mergeSort fun a b => Text.le a.1 b.1

/-- Adds pairs, one after the other. -/
def addAll (table : AliasTable) (pairs : List (Text × Text)) : Except AliasError AliasTable :=
  pairs.foldlM (fun table pair => table.add pair.1 pair.2) table

/-! ## Files -/

/-- Why an alias file cannot be used. -/
inductive FileError where
  /-- The text is not TOML, or its values are not of the right type. -/
  | malformed
  | refused (error : AliasError)
  deriving DecidableEq, Repr

/-- A pair of an alias file. -/
def readPair? (entry : Text × Toml) : Option (Text × Text) :=
  match entry.2 with
  | .str canonical => some (entry.1, canonical)
  | _ => none

/-- The pairs of an alias file, sorted by alias. -/
def readPairs? (t : Text) : Option (List (Text × Text)) := do
  let document ← Toml.read? t
  match Toml.lookup? "aliases".toList document with
  | none => some []
  | some (.table entries) => do
    let pairs ← entries.mapM readPair?
    return pairs.mergeSort fun a b => Text.le a.1 b.1
  | some _ => none

/-- Reads an alias file. -/
def ofFile (t : Text) : Except FileError AliasTable :=
  match readPairs? t with
  | none => .error .malformed
  | some pairs =>
    match ({} : AliasTable).addAll pairs with
    | .ok table => .ok table
    | .error error => .error (.refused error)

/-- The text of an alias file. -/
def toFile (table : AliasTable) : Text :=
  Toml.write [("aliases".toList,
    .table (table.list.map fun pair => (pair.1, .str pair.2)))]

end AliasTable

end TagSearch
