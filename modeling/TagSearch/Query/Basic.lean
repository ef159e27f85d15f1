import TagSearch.Lookup
import TagSearch.Query.Fields

/-!
# Queries

What a search compiles to: plain tags and groups by clause, and typed fields. A group is a query of
its own, unless it was only counted.
-/

namespace TagSearch

mutual

/-- A group inside a query. -/
inductive GroupEntry where
  /-- The inside of a group that was only counted. -/
  | unparsed (source : Text)
  | parsed (query : Query)
  /-- A group that went over the limit of tags, up to where it did. -/
  | exceeded (max : Nat) (query : Query)

/-- A compiled search. -/
structure Query where
  tags : Clauses Text := {}
  groups : Clauses GroupEntry := {}
  fields : Fields := {}
  /-- The number of tags counted, those inside groups included. -/
  tagCount : Nat := 0

end

instance : Inhabited Query := ⟨{}⟩

/-- The query of a group that was compiled. -/
def GroupEntry.query? : GroupEntry → Option Query
  | .unparsed _ => none
  | .parsed query => some query
  | .exceeded _ query => some query

namespace Query

/-- The key of the status that is asked for. -/
def statusKey : FieldKey := ⟨"status", .must⟩

/-- The key of the status that is ruled out. -/
def statusNotKey : FieldKey := ⟨"status", .mustNot⟩

/-! ## Building -/

/-- Counts tags. -/
def charge (q : Query) (tags : Nat) : Query :=
  { q with tagCount := q.tagCount + tags }

/-- Adds tags to a clause, one after the other; a tag that the clause has is not added again. -/
def pushTags (q : Query) (clause : Clause) (tags : List Text) : Query :=
  { q with tags := tags.foldl (fun all tag => all.pushNew clause tag) q.tags }

/-- Adds a group to a clause. -/
def pushGroup (q : Query) (clause : Clause) (group : GroupEntry) : Query :=
  { q with groups := q.groups.push clause group }

/-- Changes the fields. -/
def change (q : Query) (changes : List Change) : Query :=
  { q with fields := changes.foldl Fields.apply q.fields }

/-- Replaces every tag by its canonical name; repeats that arise are dropped. -/
def canonicalize (canonical : Text → Text) (q : Query) : Query :=
  let names (tags : List Text) := (tags.map canonical).eraseDups
  { q with tags := ⟨names q.tags.must, names q.tags.mustNot, names q.tags.should⟩ }

/-! ## Reading -/

/-- Whether nothing is searched for. -/
def isEmpty (q : Query) : Bool :=
  q.tags.isEmpty && q.groups.isEmpty && q.fields.isEmpty

/-- Whether the fields ask for posts by their status. -/
def namesStatus (fields : Fields) : Bool :=
  (((fields.get? statusKey).bind FieldValue.text?).any Lookup.statusValues.contains)
    || fields.contains statusNotKey

end Query

mutual

/-- Whether a query, or a group below it, asks for posts by their status. -/
def Query.concernsDeletion : Query → Bool
  | ⟨_, ⟨must, mustNot, should⟩, fields, _⟩ =>
    Query.namesStatus fields || GroupEntry.anyConcernsDeletion must
      || GroupEntry.anyConcernsDeletion mustNot || GroupEntry.anyConcernsDeletion should

/-- Whether a group asks for posts by their status. -/
def GroupEntry.concernsDeletion : GroupEntry → Bool
  | .unparsed source => !Lookup.hidesDeleted source false
  | .parsed query => query.concernsDeletion
  | .exceeded _ query => query.concernsDeletion

/-- Whether one of some groups asks for posts by their status. -/
def GroupEntry.anyConcernsDeletion : List GroupEntry → Bool
  | [] => false
  | group :: rest => group.concernsDeletion || GroupEntry.anyConcernsDeletion rest

end

/-- Whether a query hides deleted posts. -/
def Query.hidesDeleted (q : Query) (alwaysShow : Bool) : Bool :=
  !alwaysShow && !q.concernsDeletion

end TagSearch
