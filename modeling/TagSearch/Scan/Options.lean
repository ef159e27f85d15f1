import TagSearch.Search

/-!
# Scan options

What a nested scan keeps of the groups and modifiers it meets. The options are independent of
each other.
-/

namespace TagSearch.Scan

/-- The settings of a nested scan. -/
structure Options where
  /-- Put the items of a group into the list that holds the group. -/
  flatten : Bool := true
  /-- Leave out every modifier. -/
  stripModifiers : Bool := false
  /-- Write a group's modifier on the tags inside it instead of on the group. -/
  distributeModifiers : Bool := false
  /-- Leave out what a level already has. -/
  dropRepeats : Bool := false
  /-- Write `(` and `)` around the items of a group. -/
  delimitGroups : Bool := true
  /-- Sort every level: groups first, then tags. -/
  sortLevels : Bool := false
  /-- Write plain tags by their canonical names. -/
  normalizeTags : Bool := false
  /-- Fail on a group past the limit instead of scanning it as empty. -/
  failOnDepth : Bool := false
  /-- Leave the modifier of a group out. -/
  bareGroups : Bool := false
  /-- The deepest nesting that is scanned; cut to `maxDepth`. -/
  depthLimit : Nat := maxDepth
  /-- How many groups already enclose the text. -/
  baseDepth : Nat := 0
  deriving DecidableEq, Repr

/-- The limit in force. -/
def Options.limit (options : Options) : Nat :=
  min options.depthLimit maxDepth

end TagSearch.Scan
