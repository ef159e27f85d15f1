import TagSearch.Value.Basic

/-!
# Fields

The typed part of a query: what each metatag field holds under each clause. A field is looked up by
its key; setting a key anew keeps its place.
-/

namespace TagSearch

/-- A field under a clause. -/
structure FieldKey where
  field : String
  clause : Clause := .must
  deriving DecidableEq, Repr

/-- The written form of a key, such as `width_must_not`. -/
def FieldKey.name (key : FieldKey) : String :=
  key.clause.key key.field

/-- What the fields of a query hold. -/
structure Fields where
  entries : List (FieldKey × FieldValue) := []

namespace Fields

/-- What a list of entries holds under a key. -/
def lookup (key : FieldKey) : List (FieldKey × FieldValue) → Option FieldValue
  | [] => none
  | (k, v) :: rest => if k = key then some v else lookup key rest

/-- Sets a key in a list of entries. -/
def assign (key : FieldKey) (value : FieldValue) :
    List (FieldKey × FieldValue) → List (FieldKey × FieldValue)
  | [] => [(key, value)]
  | (k, v) :: rest => if k = key then (k, value) :: rest else (k, v) :: assign key value rest

theorem lookup_assign (key other : FieldKey) (value : FieldValue)
    (entries : List (FieldKey × FieldValue)) :
    lookup other (assign key value entries)
      = if other = key then some value else lookup other entries := by
  induction entries with
  | nil => simp [assign, lookup, eq_comm]
  | cons entry rest ih => grind [assign, lookup]

/-- What a key holds. -/
def get? (fs : Fields) (key : FieldKey) : Option FieldValue :=
  lookup key fs.entries

/-- Sets a key. -/
def insert (fs : Fields) (key : FieldKey) (value : FieldValue) : Fields :=
  ⟨assign key value fs.entries⟩

/-- Setting a key changes that key and no other. -/
theorem get?_insert (fs : Fields) (key other : FieldKey) (value : FieldValue) :
    (fs.insert key value).get? other = if other = key then some value else fs.get? other :=
  lookup_assign key other value fs.entries

/-- Whether a key is set. -/
def contains (fs : Fields) (key : FieldKey) : Bool :=
  (fs.get? key).isSome

/-- Whether no key is set. -/
def isEmpty (fs : Fields) : Bool :=
  fs.entries.isEmpty

/-- The entries by the written form of their keys, sorted. -/
def sorted (fs : Fields) : List (String × FieldValue) :=
  (fs.entries.map fun (key, value) => (key.name, value)).mergeSort fun a b =>
    Text.le a.1.toList b.1.toList

end Fields

/-- What one occurrence of a metatag does to the fields. -/
inductive Change where
  /-- Adds to the values gathered under a key. -/
  | push (key : FieldKey) (value : Value)
  /-- Sets a key. -/
  | set (key : FieldKey) (value : FieldValue)
  /-- Sets a key that is not yet set. -/
  | setDefault (key : FieldKey) (value : FieldValue)

/-- The fields after a change. A value pushed onto another shape replaces it. -/
def Fields.apply (fs : Fields) : Change → Fields
  | .push key value =>
    fs.insert key (.values (((fs.get? key).map FieldValue.gathered).getD [] ++ [value]))
  | .set key value => fs.insert key value
  | .setDefault key value => if fs.contains key then fs else fs.insert key value

end TagSearch
