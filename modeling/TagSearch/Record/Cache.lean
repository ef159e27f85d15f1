import TagSearch.Number.Integer
import TagSearch.Record.Basic
import TagSearch.Text.Case

/-!
# Cached lookups

A cache in front of the records. Answers about users, pools, sets and wildcards are kept, misses
included; names that differ only in case share an answer. Hidden favorites and the actor are always
asked for anew.
-/

namespace TagSearch

/-- A question to the records. -/
inductive Request where
  | user (name : Text)
  | pool (name : Text)
  | set (name : Text)
  | wildcard (pattern : Text) (limit : Nat)
  | favorites (user : Int)
  | actor
  deriving DecidableEq, Repr

/-- An answer of the records. -/
inductive Answer where
  | id (id : Option Int)
  | set (found : Option (Int × Bool))
  | tags (tags : List Text)
  | hidden (isHidden : Bool)
  | actor (actor : Actor)
  deriving DecidableEq, Repr

/-- What the records answer. -/
def Records.answer (records : Records) : Request → Answer
  | .user name => .id (records.userId? name)
  | .pool name => .id (records.poolId? name)
  | .set name => .set (records.setId? name)
  | .wildcard pattern limit => .tags (records.wildcardTags pattern limit)
  | .favorites id => .hidden (records.favoritesHidden id)
  | .actor => .actor records.actor

namespace Request

/-- The request that an answer is kept under, if it is kept. -/
def key? : Request → Option Request
  | user name => some (user name.lowercase)
  | pool name => some (pool name.lowercase)
  | set name => some (set name.lowercase)
  | wildcard pattern limit => some (wildcard pattern limit)
  | favorites _ => none
  | actor => none

/-- The request in words. -/
def text : Request → Text
  | user name => "user ".toList ++ name
  | pool name => "pool ".toList ++ name
  | set name => "set ".toList ++ name
  | wildcard pattern limit =>
    "wildcard ".toList ++ pattern ++ ' ' :: Number.natText limit
  | favorites id => "favorites ".toList ++ Number.intText id
  | actor => "actor".toList

end Request

/-- The answers kept so far, by their keys. -/
structure Cache where
  entries : List (Request × Answer) := []

namespace Cache

/-- The answer kept under a key. -/
def get? (cache : Cache) (key : Request) : Option Answer :=
  (cache.entries.find? fun entry => entry.1 == key).map Prod.snd

/-- The answer that is at hand for a request. -/
def hit? (cache : Cache) (request : Request) : Option Answer :=
  request.key?.bind cache.get?

/-- Keeps an answer, if it is to be kept. -/
def keep (cache : Cache) (request : Request) (answer : Answer) : Cache :=
  match request.key? with
  | some key => ⟨(key, answer) :: cache.entries⟩
  | none => cache

/-- Answers a request: from the cache if it can, otherwise from the records. -/
def ask (records : Records) (cache : Cache) (request : Request) : Answer × Cache :=
  match cache.hit? request with
  | some answer => (answer, cache)
  | none => (records.answer request, cache.keep request (records.answer request))

end Cache

end TagSearch
