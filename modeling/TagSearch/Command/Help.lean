import TagSearch.Command.Grammar

/-!
# Help

The explanation of a command: what it does, how it is called, and its commands, arguments and
options in aligned columns.
-/

namespace TagSearch.Usage

open Text

/-- An entry of a help text, and what is said about it. -/
structure Row where
  entry : Text
  about : Text
  deriving DecidableEq, Repr

/-- The width of the longest entry. -/
def width (rows : List Row) : Nat :=
  (rows.map fun row => row.entry.length).foldl max 0

/-- A row as a line. What is said starts in the same column for all rows. -/
def Row.line (width : Nat) (row : Row) : Text :=
  [' ', ' '] ++ row.entry ++ List.replicate (width + 2 - row.entry.length) ' ' ++ row.about

/-- A heading with its rows; nothing if there are none. -/
def block? (heading : String) (rows : List Row) : Option Text :=
  if rows.isEmpty then none
  else some (joinWith '\n' (heading.toList :: rows.map (Row.line (width rows))))

namespace Place

/-- The names of the commands that lead to a place. -/
def path : Place → List String
  | root => []
  | parse => ["parse"]
  | scan => ["scan"]
  | hoist => ["hoist"]
  | normalize => ["normalize"]
  | hideDeleted => ["hide-deleted"]
  | aliases => ["alias"]
  | aliasAdd => ["alias", "add"]
  | aliasRemove => ["alias", "remove"]
  | aliasList => ["alias", "list"]
  | help => ["help"]
  | aliasHelp => ["alias", "help"]

/-- What a command does. -/
def about : Place → String
  | root => "Inspect how search queries compile"
  | parse => "Build a query and print it as JSON"
  | scan => "Scan a query into tokens"
  | hoist => "Lift global metatags out of groups and print the top-level tokens"
  | normalize => "Print the canonical form of a query"
  | hideDeleted => "Print whether the search hides deleted posts"
  | aliases => "Manage tag aliases"
  | aliasAdd => "Add an alias for a canonical tag"
  | aliasRemove => "Remove an alias"
  | aliasList => "List all aliases"
  | help | aliasHelp => "Print this message or the help of the given subcommand(s)"

/-- The arguments of a command, as they stand in its call, and what they are. -/
def argumentRows : Place → List Row
  | parse | scan | hoist | normalize | hideDeleted =>
    [⟨"<QUERY>...".toList, "Search query; multiple arguments are joined with spaces".toList⟩]
  | aliasAdd =>
    [⟨"<ALIAS>".toList, "Alias name (e.g. kitty)".toList⟩,
      ⟨"<CANONICAL>".toList, "Canonical tag (e.g. cat)".toList⟩]
  | aliasRemove => [⟨"<ALIAS>".toList, "Alias to remove".toList⟩]
  | help | aliasHelp => [⟨"[COMMAND]...".toList, "Print help for the subcommand(s)".toList⟩]
  | root | aliases | aliasList => []

/-- The second names of the commands of a place. -/
def secondNames (p child : Place) : List String :=
  (p.commands.filter fun c => c.2 == child && !child.path.contains c.1).map Prod.fst

/-- The commands of a place by their first names. -/
def commandRows (p : Place) : List Row :=
  (p.commands.filter fun c => c.2.path.contains c.1).map fun (name, child) =>
    let others := (p.secondNames child).map fun other => s!" [aliases: {other}]".toList
    ⟨name.toList, child.about.toList ++ others.flatten⟩

end Place

/-- An option as it stands in a help text. -/
def Named.entry (o : Named) : Text :=
  let letter := match o.letter with
    | some c => ['-', c, ',', ' ']
    | none => "    ".toList
  let value := match o.kind with
    | .valued v => s!" <{v.placeholder}>".toList
    | .switch _ => []
  letter ++ '-' :: '-' :: o.word.toList ++ value

/-- What options of the same rank are sorted by: the letter, or else the word. -/
def Named.key (o : Named) : Text :=
  match o.letter with
  | some c => [c]
  | none => o.word.toList

/-- Merges two lists of options: those of the same rank stand together, sorted. -/
def interleave : List Named → List Named → List Named
  | [], right => right
  | left, [] => left
  | a :: left, b :: right =>
    (if Text.le a.key b.key then [a, b] else [b, a]) ++ interleave left right

namespace Place

/-- The options of a place as they are explained: own and global ones, then those that ask for a
text. -/
def optionRows (p : Place) : List Row :=
  if p.isHelp then []
  else (interleave p.ownOptions globalOptions ++ p.askingOptions).map fun o =>
    ⟨o.entry, o.about.toList⟩

/-- How a command is called. -/
def call (p : Place) : Text :=
  let options := if p.isHelp then [] else ["[OPTIONS]".toList]
  let command := if p.needsCommand then ["<COMMAND>".toList] else []
  unwords (("tagq" :: p.path).map String.toList ++ options ++ command
    ++ p.argumentRows.map Row.entry)

/-- The explanation of a command. -/
def helpText (p : Place) : Text :=
  let blocks := [block? "Commands:" p.commandRows, block? "Arguments:" p.argumentRows,
    block? "Options:" p.optionRows].filterMap id
  joinWith '\n' (([p.about.toList, "Usage: ".toList ++ p.call] ++ blocks).intersperse []) ++ ['\n']

end Place

end TagSearch.Usage
