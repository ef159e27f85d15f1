import TagSearch.Query.Basic
import TagSearch.Value.Coerce

/-!
# Query errors

Why a search does not compile. Count and depth errors may carry the query built up to where they
arose.
-/

namespace TagSearch

/-- Something that the actor may not see. -/
inductive Resource where
  | set (name : Text)
  | favorites (user : Text)
  deriving DecidableEq, Repr

/-- How a resource is named. -/
def Resource.text : Resource → Text
  | set name => "set '".toList ++ name ++ ['\'']
  | favorites user => "favorites of '".toList ++ user ++ ['\'']

/-- Why a search does not compile. -/
inductive QueryError where
  /-- More tags than the settings allow. -/
  | countExceeded (max : Nat) (built : Option Query)
  /-- Groups nested deeper than the settings allow. -/
  | depthExceeded (limit : Nat) (built : Option Query)
  | invalidValue (metatag value : Text) (reason : Reason)
  | denied (resource : Resource)
  /-- A pattern of the settings that cannot be read. -/
  | invalidPattern (pattern : Text)

namespace QueryError

open Number

/-- The message of a count error. -/
def countMessage (max : Nat) : Text :=
  "You cannot search for more than ".toList ++ natText max ++ " tags at a time".toList

/-- The message of a depth error. -/
def depthMessage (limit : Nat) : Text :=
  "You cannot have more than ".toList ++ natText limit
    ++ " levels of grouping at a time".toList

/-- What the error is reported as. -/
def message : QueryError → Text
  | countExceeded max _ => countMessage max
  | depthExceeded limit _ => depthMessage limit
  | invalidValue metatag value reason =>
    "Invalid value '".toList ++ value ++ "' for metatag '".toList ++ metatag ++ "': ".toList
      ++ reason.message
  | denied resource => "Access denied: ".toList ++ resource.text
  | invalidPattern pattern => "Invalid unlimited tag pattern: ".toList ++ pattern

/-- The query built so far. -/
def built? : QueryError → Option Query
  | countExceeded _ built => built
  | depthExceeded _ built => built
  | _ => none

/-- Whether there were too many tags. -/
def isCountExceeded : QueryError → Bool
  | countExceeded _ _ => true
  | _ => false

/-- Whether groups were nested too deep. -/
def isDepthExceeded : QueryError → Bool
  | depthExceeded _ _ => true
  | _ => false

end QueryError

end TagSearch
