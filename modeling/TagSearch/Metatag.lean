import TagSearch.Clause
import TagSearch.Text.Case

/-!
# Metatags

A metatag `name:value` is recognized by its name, in any case. Recognized metatags are stored in
typed fields of the compiled query; every other one is searched for as a plain tag.

Whether a metatag takes a modifier is part of its definition: with a modifier that it does not
take, the whole token is a plain tag.
-/

namespace TagSearch

/-- The categories that tags are counted by. -/
inductive Category where
  | general
  | artist
  | contributor
  | copyright
  | character
  | species
  | invalid
  | metaInfo
  | lore
  deriving DecidableEq, Repr

namespace Category

/-- Every category. -/
def all : List Category :=
  [general, artist, contributor, copyright, character, species, invalid, metaInfo, lore]

/-- The abbreviation that starts the name of the category's metatag. -/
def short : Category → String
  | general => "gen"
  | artist => "art"
  | contributor => "contrib"
  | copyright => "copy"
  | character => "char"
  | species => "spec"
  | invalid => "inv"
  | metaInfo => "meta"
  | lore => "lore"

/-- The full name. -/
def name : Category → String
  | general => "general"
  | artist => "artist"
  | contributor => "contributor"
  | copyright => "copyright"
  | character => "character"
  | species => "species"
  | invalid => "invalid"
  | metaInfo => "meta"
  | lore => "lore"

/-- The category with a given abbreviation. -/
def ofShort? (t : Text) : Option Category :=
  all.find? fun category => category.short.toList == t

end Category

/-- The yes-or-no properties of a post. -/
inductive Property where
  | hasSource
  | hasDescription
  | isParent
  | isChild
  | inPool
  | pendingReplacements
  | artVerified
  deriving DecidableEq, Repr

namespace Property

/-- Every property. -/
def all : List Property :=
  [hasSource, hasDescription, isParent, isChild, inPool, pendingReplacements, artVerified]

/-- The name of the property's metatag. -/
def name : Property → String
  | hasSource => "hassource"
  | hasDescription => "hasdescription"
  | isParent => "isparent"
  | isChild => "ischild"
  | inPool => "inpool"
  | pendingReplacements => "pending_replacements"
  | artVerified => "artverified"

end Property

/-- What can be locked on a post. -/
inductive Lock where
  | rating
  | note
  | status
  deriving DecidableEq, Repr

namespace Lock

/-- The name of a lock. -/
def name : Lock → String
  | rating => "rating"
  | note => "note"
  | status => "status"

/-- Reads the name of a lock, in any case. -/
def read? (t : Text) : Option Lock :=
  let t := t.lowercase
  if t == "rating".toList then some rating
  else if t == "note".toList || t == "notes".toList then some note
  else if t == "status".toList then some status
  else none

end Lock

/-- A recognized metatag. -/
inductive Metatag where
  | user
  | userId
  | approver
  | commenter
  | noter
  | noteUpdater
  | pool
  | set
  | fav
  | md5
  | rating
  | locked
  /-- `ratinglocked`, `notelocked` and `statuslocked`. -/
  | lockedKind (lock : Lock)
  | id
  | width
  | height
  | mpixels
  | ratio
  | duration
  | score
  | favCount
  | filesize
  | change
  | source
  | date
  | age
  | tagCount
  /-- The number of tags of one category, such as `arttags`. -/
  | categoryTags (category : Category)
  | parent
  | child
  | randSeed
  | order
  | limit
  | status
  | filetype
  | description
  | note
  | delReason
  | deletedBy
  | upvote
  | downvote
  | voted
  | commentCount
  | property (property : Property)
  deriving DecidableEq, Repr

namespace Metatag

/-- Every metatag. -/
def all : List Metatag :=
  [user, userId, approver, commenter, noter, noteUpdater, pool, set, fav, md5, rating, locked,
    lockedKind .rating, lockedKind .note, lockedKind .status, id, width, height, mpixels, ratio,
    duration, score, favCount, filesize, change, source, date, age, tagCount, parent, child,
    randSeed, order, limit, status, filetype, description, note, delReason, deletedBy, upvote,
    downvote, voted, commentCount]
    ++ Category.all.map categoryTags ++ Property.all.map property

/-- The canonical name. -/
def name : Metatag → String
  | user => "user"
  | userId => "user_id"
  | approver => "approver"
  | commenter => "commenter"
  | noter => "noter"
  | noteUpdater => "noteupdater"
  | pool => "pool"
  | set => "set"
  | fav => "fav"
  | md5 => "md5"
  | rating => "rating"
  | locked => "locked"
  | lockedKind lock => lock.name ++ "locked"
  | id => "id"
  | width => "width"
  | height => "height"
  | mpixels => "mpixels"
  | ratio => "ratio"
  | duration => "duration"
  | score => "score"
  | favCount => "favcount"
  | filesize => "filesize"
  | change => "change"
  | source => "source"
  | date => "date"
  | age => "age"
  | tagCount => "tagcount"
  | categoryTags category => category.short ++ "tags"
  | parent => "parent"
  | child => "child"
  | randSeed => "randseed"
  | order => "order"
  | limit => "limit"
  | status => "status"
  | filetype => "filetype"
  | description => "description"
  | note => "note"
  | delReason => "delreason"
  | deletedBy => "deletedby"
  | upvote => "upvote"
  | downvote => "downvote"
  | voted => "voted"
  | commentCount => "comment_count"
  | property p => p.name

/-- Second names. -/
def secondNames : List (String × Metatag) :=
  [("comm", commenter), ("favoritedby", fav), ("type", filetype), ("votedup", upvote),
    ("voteddown", downvote)]

/-- Every name with its metatag. -/
def names : List (String × Metatag) :=
  all.map (fun m => (m.name, m)) ++ secondNames

/-- The metatag with a given name, in any ASCII case. -/
def ofName? (t : Text) : Option Metatag :=
  let t := Text.asciiLowercase t
  (names.find? fun entry => entry.1.toList == t).map Prod.snd

theorem mem_all (m : Metatag) : m ∈ all := by
  cases m with
  | lockedKind lock => cases lock <;> simp [all]
  | categoryTags category => cases category <;> simp [all, Category.all]
  | property p => cases p <;> simp [all, Property.all]
  | _ => simp [all]

/-- A metatag is found by its canonical name. -/
theorem ofName?_name (m : Metatag) : ofName? m.name.toList = some m := by
  have h : all.all (fun m => decide (ofName? m.name.toList = some m)) = true := by
    decide +kernel
  simpa using List.all_eq_true.mp h m (mem_all m)

/-- The field that the values are stored under. -/
def field : Metatag → String
  | user | userId => "uploader_ids"
  | approver => "approver_ids"
  | commenter => "commenter_ids"
  | noter => "noter_ids"
  | noteUpdater => "note_updater_ids"
  | pool => "pool_ids"
  | set => "set_ids"
  | fav => "fav_ids"
  | locked | lockedKind _ => "locked"
  | id => "post_id"
  | favCount => "fav_count"
  | change => "change_seq"
  | source => "sources"
  | tagCount => "post_tag_count"
  | categoryTags category => category.name ++ "_tag_count"
  | parent => "parent_ids"
  | randSeed => "random_seed"
  | deletedBy => "deleter"
  | m => m.name

/-- The field that tells whether there is any value at all, for the metatags that can ask so. -/
def presenceField? : Metatag → Option String
  | approver => some "approver"
  | commenter => some "commenter"
  | noter => some "noter"
  | pool => some "pool"
  | source => some "source"
  | parent => some "parent"
  | _ => none

/-- Whether the metatag takes modifiers. -/
def takesModifier : Metatag → Bool
  | md5 | order | limit | child | randSeed | lockedKind _ | commentCount | property _ => false
  | _ => true

/-- Whether the metatag may stand in a clause. -/
def accepts : Metatag → Clause → Bool
  | status, .should => false
  | _, .must => true
  | m, _ => m.takesModifier

end Metatag

end TagSearch
