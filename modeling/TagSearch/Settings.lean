import TagSearch.Hoist

/-!
# Query settings

The limits and switches that a search is compiled under.
-/

namespace TagSearch

/-- The patterns of tokens that are free unless the settings say otherwise. -/
def defaultUnlimited : List Text :=
  ["^-?status:deleted$".toList, "^rating:s.*$".toList, "^limit:.+$".toList]

/-- How searches are compiled. -/
structure Settings where
  /-- The number of tags that a search may hold. -/
  maxTags : Nat := 40
  /-- The part of that number that is reserved for the caller. -/
  freeTags : Nat := 0
  /-- The deepest nesting of groups; cut to `maxDepth`. -/
  depthLimit : Nat := maxDepth
  /-- Compile groups instead of only counting their tags. -/
  processGroups : Bool := false
  /-- Replace tags by their canonical names. -/
  resolveAliases : Bool := true
  /-- Report the query built so far with count and depth errors. -/
  returnWithData : Bool := false
  /-- Fail on a group past the limit instead of dropping what it holds. -/
  failOnDepth : Bool := false
  /-- Fail while counting the tags of a group past the limit. -/
  failOnCountDepth : Bool := true
  /-- The metatags that are hoisted out of groups. -/
  hoistedNames : List Text := Hoist.defaultNames
  /-- Patterns of tokens that are not counted. -/
  unlimited : List Text := defaultUnlimited
  /-- The number of tags that a pattern with `*` may stand for. -/
  wildcardLimit : Option Nat := none
  deriving DecidableEq, Repr

namespace Settings

/-- The depth limit in force. -/
def depth (s : Settings) : Nat :=
  min s.depthLimit maxDepth

/-- The wildcard limit in force: as many as a search may hold, unless set. -/
def wildcards (s : Settings) : Nat :=
  s.wildcardLimit.getD s.maxTags

end Settings

end TagSearch
