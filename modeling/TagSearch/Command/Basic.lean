import TagSearch.Scan.Options
import TagSearch.Settings

/-!
# Commands

What the command line can be asked to do, and the flags that go with every command.
-/

namespace TagSearch

/-- The flags of a scan. All but the first need a nested scan. -/
structure ScanFlags where
  /-- Scan groups as well. -/
  recursive : Bool := false
  nested : Bool := false
  stripModifiers : Bool := false
  distributeModifiers : Bool := false
  dropRepeats : Bool := false
  noDelimiters : Bool := false
  sort : Bool := false
  normalize : Bool := false
  strict : Bool := false
  deriving DecidableEq, Repr

/-- The scan options that the flags stand for. -/
def ScanFlags.options (flags : ScanFlags) (depthLimit : Nat) : Scan.Options where
  flatten := !flags.nested
  stripModifiers := flags.stripModifiers
  distributeModifiers := flags.distributeModifiers
  dropRepeats := flags.dropRepeats
  delimitGroups := !flags.noDelimiters
  sortLevels := flags.sort
  normalizeTags := flags.normalize
  failOnDepth := flags.strict
  depthLimit := depthLimit

/-- What to do. -/
inductive Command where
  /-- Compile a search and print the query. -/
  | parse (summary pretty : Bool) (search : Text)
  /-- Print the tokens of a search. -/
  | scan (flags : ScanFlags) (search : Text)
  /-- Print the top-level tokens after hoisting. -/
  | hoist (search : Text)
  /-- Print the canonical form of a search. -/
  | normalize (grouped : Bool) (search : Text)
  /-- Print whether a search hides deleted posts. -/
  | hideDeleted (search : Text)
  | aliasAdd (name canonical : Text)
  | aliasRemove (name : Text)
  | aliasList
  deriving DecidableEq, Repr

/-- The search that a command works on. -/
def Command.search? : Command → Option Text
  | .parse _ _ search => some search
  | .scan _ search => some search
  | .hoist search => some search
  | .normalize _ search => some search
  | .hideDeleted search => some search
  | .aliasAdd _ _ => none
  | .aliasRemove _ => none
  | .aliasList => none

/-- A command with the flags that go with every command. -/
structure Invocation where
  command : Command
  /-- The configuration file, unless it is the default one. -/
  config : Option Text := none
  verbose : Bool := false
  quiet : Bool := false
  maxTags : Option Nat := none
  processGroups : Bool := false
  deriving DecidableEq, Repr

/-- The settings with what the flags override. -/
def Invocation.override (i : Invocation) (s : Settings) : Settings :=
  { s with
    maxTags := i.maxTags.getD s.maxTags
    processGroups := s.processGroups || i.processGroups }

end TagSearch
