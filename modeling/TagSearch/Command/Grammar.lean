import TagSearch.Command.Basic

/-!
# The grammar of the command line

Which commands there are, how they are named, which options each takes, which arguments follow, and
what is said about each of them.
-/

namespace TagSearch.Usage

/-- A place in the grammar: the top, a command, or a command of a command. -/
inductive Place where
  | root
  | parse
  | scan
  | hoist
  | normalize
  | hideDeleted
  | aliases
  | aliasAdd
  | aliasRemove
  | aliasList
  | help
  | aliasHelp
  deriving DecidableEq, Repr

/-- An option that is given or not. -/
inductive Switch where
  | verbose
  | quiet
  | processGroups
  | summary
  | pretty
  | grouped
  | recursive
  | nested
  | stripModifiers
  | distributeModifiers
  | dropRepeats
  | noDelimiters
  | sort
  | normalize
  | strict
  | help
  | version
  deriving DecidableEq, Repr

/-- An option with a value. -/
inductive Valued where
  | config
  | maxTags
  deriving DecidableEq, Repr

/-- An option. -/
inductive Kind where
  | switch (s : Switch)
  | valued (v : Valued)
  deriving DecidableEq, Repr

/-- The names of an option, and what it does. -/
structure Named where
  letter : Option Char
  word : String
  kind : Kind
  about : String
  deriving DecidableEq, Repr

/-- What stands for the value of an option. -/
def Valued.placeholder : Valued → String
  | config => "PATH"
  | maxTags => "N"

/-- The arguments that follow the options. -/
inductive Arguments where
  | none
  /-- All that is left is one search. It may start with a hyphen. -/
  | search
  /-- A fixed number of names. -/
  | names (count : Nat)
  deriving DecidableEq, Repr

/-- The options that every command takes. -/
def globalOptions : List Named :=
  [⟨some 'c', "config", .valued .config,
      "Configuration file (defaults to the user config directory)"⟩,
    ⟨some 'v', "verbose", .switch .verbose, "Log debug output to stderr"⟩,
    ⟨some 'q', "quiet", .switch .quiet, "Suppress informational output (only print results)"⟩,
    ⟨none, "max-tags", .valued .maxTags, "Override the tag budget"⟩,
    ⟨none, "process-groups", .switch .processGroups, "Build groups into sub-queries"⟩]

namespace Place

/-- Whether a place only explains commands. -/
def isHelp : Place → Bool
  | help | aliasHelp => true
  | _ => false

/-- The options of one place. -/
def ownOptions : Place → List Named
  | parse =>
    [⟨some 's', "summary", .switch .summary, "Print a readable summary instead of JSON"⟩,
      ⟨none, "pretty", .switch .pretty, "Pretty-print the JSON"⟩]
  | scan =>
    [⟨some 'r', "recursive", .switch .recursive, "Expand groups instead of scanning flat"⟩,
      ⟨none, "nested", .switch .nested, "Keep nested groups instead of flattening them"⟩,
      ⟨none, "strip-prefixes", .switch .stripModifiers, "Drop `-`/`~` modifiers"⟩,
      ⟨none, "distribute-prefixes", .switch .distributeModifiers,
        "Push group modifiers down onto their tags"⟩,
      ⟨none, "dedup", .switch .dropRepeats, "Drop repeated tags and groups within a level"⟩,
      ⟨none, "no-delimit", .switch .noDelimiters, "Leave out the `(`/`)` markers around groups"⟩,
      ⟨none, "sort", .switch .sort, "Sort each level"⟩,
      ⟨none, "normalize", .switch .normalize, "Normalize and alias-resolve tags"⟩,
      ⟨none, "strict", .switch .strict,
        "Fail on groups nested too deep instead of scanning them as empty"⟩]
  | normalize =>
    [⟨some 'g', "grouped", .switch .grouped,
      "Keep groups instead of treating parentheses as tags"⟩]
  | _ => []

/-- The options that ask for a text. -/
def askingOptions : Place → List Named
  | root =>
    [⟨some 'h', "help", .switch .help, "Print help"⟩,
      ⟨some 'V', "version", .switch .version, "Print version"⟩]
  | _ => [⟨some 'h', "help", .switch .help, "Print help"⟩]

/-- All options of a place. -/
def options (p : Place) : List Named :=
  p.ownOptions ++ globalOptions ++ p.askingOptions

/-- The option with a letter. -/
def byLetter? (p : Place) (c : Char) : Option Kind :=
  (p.options.find? fun o => o.letter == some c).map Named.kind

/-- The option with a word. -/
def byWord? (p : Place) (t : Text) : Option Kind :=
  (p.options.find? fun o => o.word.toList == t).map Named.kind

/-- The arguments of a place. -/
def arguments : Place → Arguments
  | parse | scan | hoist | normalize | hideDeleted => .search
  | aliasAdd => .names 2
  | aliasRemove => .names 1
  | root | aliases | aliasList | help | aliasHelp => .none

/-- Whether a search follows. -/
def takesSearch (p : Place) : Bool :=
  p.arguments == .search

/-- The commands of a place, second names included. -/
def commands : Place → List (String × Place)
  | root =>
    [("parse", parse), ("p", parse), ("scan", scan), ("hoist", hoist), ("normalize", normalize),
      ("n", normalize), ("hide-deleted", hideDeleted), ("alias", aliases), ("help", help)]
  | aliases =>
    [("add", aliasAdd), ("remove", aliasRemove), ("rm", aliasRemove), ("list", aliasList),
      ("ls", aliasList), ("help", aliasHelp)]
  | _ => []

/-- The command of a place with a given name. -/
def command? (p : Place) (t : Text) : Option Place :=
  (p.commands.find? fun c => c.1.toList == t).map Prod.snd

/-- Whether a command must follow. -/
def needsCommand (p : Place) : Bool :=
  !p.commands.isEmpty

end Place

/-- The switches of a scan that need a nested scan. -/
def nestedOnly : List Switch :=
  [.nested, .stripModifiers, .distributeModifiers, .dropRepeats, .noDelimiters, .sort, .normalize,
    .strict]

end TagSearch.Usage
