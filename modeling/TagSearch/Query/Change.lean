import TagSearch.Query.Compiler

/-!
# What metatags do

Each occurrence of a recognized metatag reads its value and changes the fields. Most metatags
gather one value per occurrence under the key of their clause; some are set by their last
occurrence; those with a presence field take `any` and `none` as well.
-/

namespace TagSearch.Compiler

open Text

/-- The id that stands for a record that does not exist. -/
def unknownId : Int := -1

variable (c : Compiler)

/-! ## Records -/

/-- The id of a user, by name or as `!id`. -/
def userId? (value : Text) : Option Int :=
  match value with
  | '!' :: id => Number.readInt? id
  | _ => c.resolver.records.userId? value

/-- The id of a set that the actor may see. -/
def setId (value : Text) : Except QueryError Int :=
  match c.resolver.records.setId? value with
  | none => .ok unknownId
  | some (_, false) => .error (.denied (.set value))
  | some (id, true) => .ok id

/-- The id of a user whose favorites the actor may see. -/
def favoritesId (value : Text) : Except QueryError Int :=
  match c.userId? value with
  | none => .ok unknownId
  | some id =>
    if c.resolver.records.favoritesHidden id then .error (.denied (.favorites value))
    else .ok id

/-- The id of a voter. Moderators may ask for anyone's votes; whoever else asks gets their own. -/
def voterId (value : Text) : Int :=
  let actor := c.resolver.records.actor
  (if actor.isModerator then c.userId? value else actor.id).getD unknownId

/-! ## Values -/

/-- A value, or the error that names the metatag. -/
def coerced {α : Type} (m : Metatag) (value : Text) (result : Except Reason α) :
    Except QueryError α :=
  match result with
  | .ok a => .ok a
  | .error reason => .error (.invalidValue m.name.toList value reason)

/-- The hashes of a list apart by commas, in lowercase. -/
def hashes (value : Text) : List Text :=
  ((value.lowercase.splitOn ',').filter (!·.isEmpty)).take Range.maxItems

/-- The first letter of a rating, in lowercase. -/
def ratingLetter (value : Text) : Text :=
  match value with
  | [] => "miss".toList
  | letter :: _ => lowerChar letter

/-- The value that an occurrence gathers, for the metatags that gather values. -/
def gathered? (m : Metatag) (value : Text) : Option (Except QueryError Value) :=
  match m with
  | .user | .approver | .commenter | .noter | .noteUpdater | .deletedBy =>
    some (.ok (.int ((c.userId? value).getD unknownId)))
  | .userId | .parent => some (.int <$> coerced m value (Value.readInteger value))
  | .pool => some (.ok (.int ((c.resolver.records.poolId? value).getD unknownId)))
  | .set => some (.int <$> c.setId value)
  | .fav => some (.int <$> c.favoritesId value)
  | .rating => some (.ok (.text (ratingLetter value)))
  | .locked => some (.lock <$> coerced m value (Value.readLock value))
  | .id | .width | .height | .score | .favCount | .change | .tagCount | .categoryTags _ =>
    some (.intRange <$> coerced m value (Value.readIntRange value))
  | .mpixels => some (.floatRange <$> coerced m value (Value.readMeasuredRange value))
  | .ratio => some (.floatRange <$> coerced m value (Value.readRatioRange value))
  | .duration => some (.floatRange <$> coerced m value (Value.readFloatRange value))
  | .filesize => some (.intRange <$> coerced m value (Value.readSizeRange value))
  | .source => some (.ok (.text (Value.collapseStars (value ++ ['*']))))
  | .date => some (.timeRange <$> coerced m value (Value.readDateRange c.now value))
  | .age => some (.timeRange <$> coerced m value (Value.readAgeRange c.now value))
  | .filetype => some (.ok (.text value.lowercase))
  | .description | .note => some (.ok (.text value))
  | .delReason => some (.ok (.text (Value.collapseStars value)))
  | .upvote | .downvote | .voted => some (.ok (.int (c.voterId value)))
  | .md5 | .lockedKind _ | .child | .randSeed | .order | .limit | .status | .commentCount
  | .property _ => none

/-! ## Changes -/

/-- The change by which an occurrence sets a field. -/
def setField (key : FieldKey) (value : Value) : List Change :=
  [.set key (.single value)]

/-- Asking for a reason or a person of a deletion shows deleted posts, whatever their status. -/
def implied : Metatag → List Change
  | .delReason | .deletedBy => [.setDefault Query.statusKey (.single (.text "any".toList))]
  | _ => []

/-- What an occurrence does, for the metatags that do not gather values. -/
def settled (m : Metatag) (clause : Clause) (value : Text) : Except QueryError (List Change) :=
  match m with
  | .md5 => .ok (setField ⟨m.field, .must⟩ (.texts (hashes value)))
  | .lockedKind lock =>
    let clause := if Value.readBool value then Clause.must else .mustNot
    .ok [.push ⟨m.field, clause⟩ (.lock lock)]
  | .child | .order => .ok (setField ⟨m.field, .must⟩ (.text value.lowercase))
  | .randSeed => do
    let seed ← coerced m value (Value.readInteger value)
    return setField ⟨m.field, .must⟩ (.int seed)
  | .status =>
    if Lookup.statusValues.contains value.lowercase then
      .ok (setField ⟨m.field, clause⟩ (.text value.lowercase))
    else .ok []
  | .commentCount => do
    let range ← coerced m value (Value.readIntRange value)
    return setField ⟨m.field, .must⟩ (.intRange range)
  | .property _ => .ok (setField ⟨m.field, .must⟩ (.bool (Value.readBool value)))
  | _ => .ok []

/-- How a presence is stored. Ruling it out asks for the opposite. -/
def presenceChange (field : String) (clause : Clause) (presence : Presence) : Change :=
  match clause with
  | .must => .set ⟨field, .must⟩ (.presence presence)
  | .mustNot => .set ⟨field, .must⟩ (.presence presence.invert)
  | .should => .set ⟨field, .should⟩ (.presence presence)

/-- What an occurrence of a metatag does. The value is not blank. -/
def changes (m : Metatag) (clause : Clause) (value : Text) : Except QueryError (List Change) :=
  match m.presenceField?, Presence.read? value with
  | some field, some presence => .ok [presenceChange field clause presence]
  | _, _ =>
    match c.gathered? m value with
    | some result => do
      let v ← result
      return implied m ++ [.push ⟨m.field, clause⟩ v]
    | none => settled m clause value

end TagSearch.Compiler
