import TagSearch.Settings

/-!
# Levels

Where compiling stands in the nesting of groups, and what the level was given.
-/

namespace TagSearch

/-- One level of a search. -/
structure Level where
  /-- One more than the number of groups around the level. -/
  depth : Nat
  depthLimit : Nat
  /-- Tags that are already counted elsewhere. -/
  freeTags : Nat
  resolveAliases : Bool
  returnWithData : Bool
  failOnDepth : Bool
  deriving DecidableEq, Repr

namespace Level

/-- The top level. -/
def root (s : Settings) : Level where
  depth := 1
  depthLimit := s.depth
  freeTags := s.freeTags
  resolveAliases := s.resolveAliases
  returnWithData := s.returnWithData
  failOnDepth := s.failOnDepth

/-- The inside of a group of this level. It always reports what it built with an error, so that the
level around it can keep that. -/
def child (level : Level) (freeTags : Nat) : Level :=
  { level with depth := level.depth + 1, freeTags, returnWithData := true }

/-- The same level after the groups around it were unwrapped. -/
def deeper (level : Level) (groups : Nat) : Level :=
  { level with depth := level.depth + groups }

/-- The number of levels left below this one. -/
def remaining (level : Level) : Nat :=
  level.depthLimit + 1 - level.depth

/-- Whether a group of this level is nested past the limit. -/
def exceeds (level : Level) : Bool :=
  decide (level.depthLimit < level.depth)

/-- Inside a group that is not past the limit, fewer levels are left. -/
theorem remaining_child_deeper_lt {level : Level} {groups free : Nat}
    (h : ¬ (level.deeper groups).exceeds = true) :
    ((level.deeper groups).child free).remaining < level.remaining := by
  have h : level.depth + groups ≤ level.depthLimit := by grind [exceeds, deeper]
  simp only [child, deeper, remaining]
  omega

end Level

end TagSearch
