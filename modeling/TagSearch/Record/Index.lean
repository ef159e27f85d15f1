import TagSearch.Record.Basic
import TagSearch.Text.Case
import TagSearch.Toml.Reader

/-!
# The record index

A file of records: the acting user, users, pools and sets by name, and how many posts each tag has.
Names are compared without regard to case, and white space in them counts as `_`.
-/

namespace TagSearch

open Text

/-- Values by name, sorted by name. -/
structure NameMap (α : Type) where
  entries : List (Text × α) := []

namespace NameMap

variable {α : Type}

/-- Puts a value into a sorted list, in place of the value of the same name if there is one. -/
def insertInto (name : Text) (value : α) : List (Text × α) → List (Text × α)
  | [] => [(name, value)]
  | (n, v) :: rest =>
    if n = name then (name, value) :: rest
    else if Text.le name n then (name, value) :: (n, v) :: rest
    else (n, v) :: insertInto name value rest

/-- Sets the value of a name. -/
def insert (m : NameMap α) (name : Text) (value : α) : NameMap α :=
  ⟨insertInto name value m.entries⟩

/-- The value of a name. -/
def get? (m : NameMap α) (name : Text) : Option α :=
  (m.entries.find? fun entry => entry.1 == name).map Prod.snd

/-- The values in the order of their names. -/
def values (m : NameMap α) : List α :=
  m.entries.map Prod.snd

end NameMap

/-- A user. -/
structure User where
  id : Int
  privateFavorites : Bool := false
  deriving DecidableEq, Repr

/-- A set of posts. -/
structure PostSet where
  id : Int
  owner : Option Int := none
  isPublic : Bool := true
  deriving DecidableEq, Repr

/-- The records that searches refer to. -/
structure Index where
  actor : Actor := {}
  users : NameMap User := {}
  pools : NameMap Int := {}
  sets : NameMap PostSet := {}
  /-- How many posts have each tag. -/
  tags : NameMap Nat := {}

/-- A name as it is stored: trimmed, in lowercase, with `_` for every white space. -/
def recordName (t : Text) : Text :=
  t.trim.lowercase.map fun c => if isSpace c then '_' else c

/-- Whether a text passes a test once some characters in front, none of them a line feed, are taken
away. -/
def passesAfterGap (test : Text → Bool) : Text → Bool
  | [] => test []
  | c :: rest => test (c :: rest) || (c != '\n' && passesAfterGap test rest)

/-- Whether a text consists of parts in order, with a gap on one line between neighbours. -/
def matchesParts : (parts : List Text) → Text → Bool
  | [], t => t.isEmpty
  | [part], t => part == t
  | part :: parts, t =>
    match dropStart? part t with
    | some rest => passesAfterGap (matchesParts parts) rest
    | none => false

/-- Whether a text matches a pattern in which `*` stands for any number of characters on one line. -/
def matchesGlob (pattern t : Text) : Bool :=
  matchesParts (pattern.splitOn '*') t

namespace Index

/-! ## Lookups -/

/-- Whether the actor may see a set. -/
def canView (index : Index) (set : PostSet) : Bool :=
  set.isPublic || index.actor.isModerator || (set.owner.isSome && set.owner == index.actor.id)

/-- The set with a given number or name. -/
def set? (index : Index) (name : Text) : Option PostSet :=
  match Number.readInt? name.trim with
  | some id => index.sets.values.find? fun set => set.id == id
  | none => index.sets.get? (recordName name)

/-- The used tags that match a pattern with their numbers of posts, most used first, then by name. -/
def ranked (index : Index) (pattern : Text) : List (Text × Nat) :=
  let found := index.tags.entries.filter fun (name, count) =>
    0 < count && matchesGlob pattern name
  found.mergeSort fun a b => b.2 < a.2 || (a.2 == b.2 && Text.le a.1 b.1)

/-- The used tags that match a pattern. -/
def tagsLike (index : Index) (pattern : Text) : List Text :=
  (index.ranked pattern).map Prod.fst

/-- Whether a user keeps favorites to themselves, and the actor is neither that user nor a
moderator. -/
def hidesFavorites (index : Index) (id : Int) : Bool :=
  (index.users.values.any fun user => user.id == id && user.privateFavorites)
    && !index.actor.isModerator && index.actor.id != some id

/-- The index as a set of lookups. -/
def records (index : Index) : Records where
  userId? name := (index.users.get? (recordName name)).map User.id
  poolId? name := Number.readInt? name.trim <|> index.pools.get? (recordName name)
  setId? name := (index.set? name).map fun set => (set.id, index.canView set)
  wildcardTags pattern limit := (index.tagsLike pattern).take limit
  favoritesHidden := index.hidesFavorites
  actor := index.actor

/-! ## Reading -/

/-- Reads an integer. -/
def int? : Toml → Option Int
  | .int n => some n
  | _ => none

/-- Reads a number of posts. -/
def count? : Toml → Option Nat
  | .int n => if 0 ≤ n then some n.toNat else none
  | _ => none

/-- Reads a flag. -/
def bool? : Toml → Option Bool
  | .bool b => some b
  | _ => none

/-- Reads the acting user. -/
def actor? (value : Toml) : Option Actor := do
  if !value.isRecord then none
  else
    let id ← value.memberOr? 0 "id" (fun v => (int? v).map some) none
    let isModerator ← value.memberOr? 1 "is_moderator" bool? false
    return { id, isModerator }

/-- Reads a user. -/
def user? (value : Toml) : Option User := do
  let id ← int? (← value.member? 0 "id")
  let privateFavorites ← value.memberOr? 1 "private_favorites" bool? false
  return { id, privateFavorites }

/-- Reads a set. -/
def postSet? (value : Toml) : Option PostSet := do
  let id ← int? (← value.member? 0 "id")
  let owner ← value.memberOr? 1 "owner" (fun v => (int? v).map some) none
  let isPublic ← value.memberOr? 2 "public" bool? true
  return { id, owner, isPublic }

/-- Reads values by name. Of two names that are stored alike, the later one in the order of the
names as written counts. -/
def nameMap? {α : Type} (read : Toml → Option α) (value : Toml) : Option (NameMap α) :=
  match value with
  | .table entries => do
    let items ← entries.mapM fun (name, v) => (read v).map fun a => (name, a)
    let sorted := items.mergeSort fun a b => Text.le a.1 b.1
    return sorted.foldl (fun m (name, a) => m.insert (recordName name) a) {}
  | _ => none

/-- Reads an index from the members of a table. -/
def ofToml? (document : List (Text × Toml)) : Option Index := do
  let root := Toml.table document
  let actor ← root.memberOr? 0 "actor" actor? {}
  let users ← root.memberOr? 1 "users" (nameMap? user?) {}
  let pools ← root.memberOr? 2 "pools" (nameMap? int?) {}
  let sets ← root.memberOr? 3 "sets" (nameMap? postSet?) {}
  let tags ← root.memberOr? 4 "tags" (nameMap? count?) {}
  return { actor, users, pools, sets, tags }

/-- Reads an index file. -/
def ofFile? (t : Text) : Option Index :=
  (Toml.read? t).bind ofToml?

end Index

end TagSearch
