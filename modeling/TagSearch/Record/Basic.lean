import TagSearch.Number.Integer

/-!
# Record lookups

Compiling a search needs to know users, pools, sets and tags, and who is searching. `Records` is
that knowledge as a set of functions; `Resolver` adds the canonical names of tags.
-/

namespace TagSearch

/-- Who a search is made for. -/
structure Actor where
  /-- Absent for an anonymous search. -/
  id : Option Int := none
  isModerator : Bool := false
  deriving DecidableEq, Repr

/-- The lookups that metatags need. -/
structure Records where
  /-- The id of a user, by name. -/
  userId? : Text → Option Int
  /-- The id of a pool, by name or number. -/
  poolId? : Text → Option Int
  /-- The id of a set, by name or number, and whether the actor may see it. -/
  setId? : Text → Option (Int × Bool)
  /-- The tags that match a pattern with `*`, most used first, up to a limit. -/
  wildcardTags : Text → Nat → List Text
  /-- Whether the favorites of a user are hidden from the actor. -/
  favoritesHidden : Int → Bool
  actor : Actor

/-- Nothing is known. A number is taken for the id of a pool or of a visible set. -/
def Records.none : Records where
  userId? _ := Option.none
  poolId? name := Number.readInt? name
  setId? name := (Number.readInt? name).map fun id => (id, true)
  wildcardTags _ _ := []
  favoritesHidden _ := false
  actor := {}

/-- All that compiling a search asks for. -/
structure Resolver where
  /-- The canonical name of a tag. -/
  canonical : Text → Text := id
  records : Records := Records.none

end TagSearch
