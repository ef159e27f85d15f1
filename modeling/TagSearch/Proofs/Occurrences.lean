import TagSearch.Proofs.FieldShapes

/-!
# Occurrences of metatags

An occurrence of a metatag is stored under one key, in the shape of the key: as a presence, as a
value that is gathered, or as the one value of its field. It says nothing else to the fields, except
that asking for a deletion implies any status.

* `Compiler.does_of_changes`: an occurrence does what it is stored as.
* `Compiler.stored?_shape`: it is stored in the shape of its key.
-/

namespace TagSearch

open Text

/-! ## Occurrences -/

/-- An occurrence of a metatag, in a clause that the metatag accepts. -/
structure Occurrence where
  metatag : Metatag
  clause : Clause
  value : Text
  accepts : metatag.accepts clause = true

namespace Occurrence

/-- The presence that an occurrence asks for, with its key. Ruling a presence out asks for the
opposite. -/
def presence? (o : Occurrence) : Option (FieldKey × Presence) := do
  let field ← o.metatag.presenceField?
  let presence ← Presence.read? o.value
  return match o.clause with
    | .must => (⟨field, .must⟩, presence)
    | .mustNot => (⟨field, .must⟩, presence.invert)
    | .should => (⟨field, .should⟩, presence)

/-- The value that an occurrence sets its field to, for the metatags that hold one value. -/
def single? (o : Occurrence) : Option Value :=
  match o.metatag with
  | .md5 => some (.texts (Compiler.hashes o.value))
  | .child | .order => some (.text o.value.lowercase)
  | .randSeed => (Value.readInteger o.value).toOption.map .int
  | .status =>
    if Lookup.statusValues.contains o.value.lowercase then some (.text o.value.lowercase) else none
  | .commentCount => (Value.readIntRange o.value).toOption.map .intRange
  | .property _ => some (.bool (Value.readBool o.value))
  | _ => none

/-- Whether an occurrence asks for a deletion, whatever the status. -/
def asksAnyStatus (o : Occurrence) : Bool :=
  o.metatag = .delReason || o.metatag = .deletedBy

/-- The status that an occurrence asks for, if it has no modifier and is recognized. -/
def status? (o : Occurrence) : Option Text :=
  if o.metatag = .status ∧ o.clause = .must ∧ Lookup.statusValues.contains o.value.lowercase then
    some o.value.lowercase
  else none

/-- Whether an occurrence says nothing: a limit does not, nor does an unknown status. -/
def IsIdle (o : Occurrence) : Prop :=
  o.metatag = .limit
    ∨ o.metatag = .status ∧ Lookup.statusValues.contains o.value.lowercase = false

end Occurrence

namespace Compiler

variable {c : Compiler}

/-- The value that an occurrence gathers, with its key. A lock of one kind goes to the locks that
are asked for or ruled out, as its value says. -/
def gatheredAs? (c : Compiler) (o : Occurrence) : Option (FieldKey × Value) :=
  match o.metatag with
  | .lockedKind lock =>
    some (⟨"locked", if Value.readBool o.value then .must else .mustNot⟩, .lock lock)
  | m => (c.gathered? m o.value).bind fun result =>
    result.toOption.map fun v => (⟨m.field, o.clause⟩, v)

/-- The key that an occurrence is stored under, and what it alone would leave there. -/
def stored? (c : Compiler) (o : Occurrence) : Option (FieldKey × FieldValue) :=
  ((o.presence?.map fun (key, presence) => (key, .presence presence)).or
    ((c.gatheredAs? o).map fun (key, v) => (key, .values [v]))).or
    (o.single?.map fun v => (⟨o.metatag.field, o.clause⟩, .single v))

/-- The changes that store something under a key. -/
def storing (key : FieldKey) : FieldValue → List Change
  | .values vs => vs.map (.push key)
  | value => [.set key value]

/-! ## One occurrence -/

theorem clause_eq_must {m : Metatag} {clause : Clause} (h : m.accepts clause = true)
    (hm : m.takesModifier = false) : clause = .must := by
  cases clause with
  | must => rfl
  | mustNot => cases m <;> simp_all [Metatag.accepts]
  | should => cases m <;> simp_all [Metatag.accepts]

theorem coerced_ok {α : Type} {m : Metatag} {value : Text} {result : Except Reason α} {a : α}
    (h : coerced m value result = .ok a) : result = .ok a := by
  unfold coerced at h
  split at h <;> cases h
  rfl

theorem presence?_eq_none {o : Occurrence}
    (h : ∀ field presence, o.metatag.presenceField? = some field →
      Presence.read? o.value = some presence → False) : o.presence? = none := by
  unfold Occurrence.presence?
  cases hfield : o.metatag.presenceField? with
  | none => rfl
  | some field =>
    cases hpresence : Presence.read? o.value with
    | none => rfl
    | some presence => exact (h field presence hfield hpresence).elim

/-- What an occurrence does: nothing, or what it is stored as, after what it implies for the
status. -/
inductive Does (c : Compiler) (o : Occurrence) : List Change → Prop
  | idle (hidle : o.IsIdle) (hstored : c.stored? o = none) : Does c o []
  | stores {key : FieldKey} {held : FieldValue} (hstored : c.stored? o = some (key, held)) :
    Does c o (implied o.metatag ++ storing key held)

theorem does_of_presence {o : Occurrence} {field : String} {presence : Presence}
    (hfield : o.metatag.presenceField? = some field)
    (hpresence : Presence.read? o.value = some presence) :
    c.Does o [presenceChange field o.clause presence] := by
  have himplied : implied o.metatag = [] := by
    cases hm : o.metatag <;> first | rfl | (rw [hm] at hfield; cases hfield)
  obtain ⟨key, held, hasked, hchange⟩ : ∃ key held, o.presence? = some (key, held)
      ∧ presenceChange field o.clause presence = .set key (.presence held) := by
    unfold Occurrence.presence?
    rw [hfield, hpresence]
    cases o.clause <;> exact ⟨_, _, rfl, rfl⟩
  have hstored : c.stored? o = some (key, .presence held) := by
    rw [stored?, hasked]
    rfl
  have hdoes := Does.stores hstored
  rw [himplied] at hdoes
  rw [hchange]
  exact hdoes

theorem does_of_gathered {o : Occurrence} {v : Value} (hpresence : o.presence? = none)
    (h : c.gathered? o.metatag o.value = some (.ok v)) :
    c.Does o (implied o.metatag ++ [.push ⟨o.metatag.field, o.clause⟩ v]) := by
  have hgathered : c.gatheredAs? o = some (⟨o.metatag.field, o.clause⟩, v) := by
    unfold gatheredAs?
    split
    · next hm =>
      rw [hm] at h
      cases h
    · rw [h]
      rfl
  have hstored : c.stored? o = some (⟨o.metatag.field, o.clause⟩, .values [v]) := by
    rw [stored?, hpresence, hgathered]
    rfl
  exact .stores hstored

theorem does_of_settled {o : Occurrence} {changes : List Change} (hpresence : o.presence? = none)
    (hgathered : c.gathered? o.metatag o.value = none)
    (h : settled o.metatag o.clause o.value = .ok changes) : c.Does o changes := by
  obtain ⟨m, clause, value, haccepts⟩ := o
  dsimp only at hgathered h
  have hstored : c.stored? ⟨m, clause, value, haccepts⟩
      = ((c.gatheredAs? ⟨m, clause, value, haccepts⟩).map fun (key, v) =>
          (key, FieldValue.values [v])).or
        ((Occurrence.single? ⟨m, clause, value, haccepts⟩).map fun v =>
          (⟨m.field, clause⟩, .single v)) := by
    rw [stored?, hpresence]
    rfl
  cases m with
  | lockedKind =>
    cases h
    exact .stores hstored
  | limit =>
    cases h
    exact .idle (Or.inl rfl) hstored
  | md5 | child | order | property =>
    obtain rfl := clause_eq_must haccepts rfl
    cases h
    exact .stores hstored
  | randSeed | commentCount =>
    obtain rfl := clause_eq_must haccepts rfl
    obtain ⟨v, hv, h⟩ := exists_ok_of_bind h
    cases h
    simp only [Occurrence.single?, coerced_ok hv] at hstored
    exact .stores hstored
  | status =>
    simp only [settled] at h
    simp only [Occurrence.single?] at hstored
    split at h
    · next hvalue =>
      cases h
      rw [if_pos hvalue] at hstored
      exact .stores hstored
    · next hvalue =>
      cases h
      rw [if_neg hvalue] at hstored
      exact .idle (Or.inr ⟨rfl, by simpa using hvalue⟩) hstored
  | _ =>
    -- the other metatags gather values
    cases hgathered

/-- **An occurrence does what it is stored as.** -/
theorem does_of_changes {o : Occurrence} {changes : List Change}
    (h : c.changes o.metatag o.clause o.value = .ok changes) : c.Does o changes := by
  unfold Compiler.changes at h
  split at h
  · next field presence hfield hpresence =>
    cases h
    exact does_of_presence hfield hpresence
  · next hother =>
    have hpresence : o.presence? = none := presence?_eq_none hother
    split at h
    · next result hgathered =>
      obtain ⟨v, rfl, h⟩ := exists_ok_of_bind h
      cases h
      exact does_of_gathered hpresence hgathered
    · next hgathered => exact does_of_settled hpresence hgathered h

/-! ## Shapes -/

theorem stored?_cases {o : Occurrence} {key : FieldKey} {held : FieldValue}
    (h : c.stored? o = some (key, held)) :
    (∃ presence, o.presence? = some (key, presence) ∧ held = .presence presence)
      ∨ (∃ v, c.gatheredAs? o = some (key, v) ∧ held = .values [v])
      ∨ (∃ v, o.single? = some v ∧ key = ⟨o.metatag.field, o.clause⟩ ∧ held = .single v) := by
  unfold stored? at h
  rw [Option.or_eq_some_iff, Option.or_eq_some_iff] at h
  rcases h with (h | ⟨-, h⟩) | ⟨-, h⟩
  · obtain ⟨⟨key, presence⟩, hpresence, he⟩ := Option.map_eq_some_iff.mp h
    cases he
    exact Or.inl ⟨presence, hpresence, rfl⟩
  · obtain ⟨⟨key, v⟩, hv, he⟩ := Option.map_eq_some_iff.mp h
    cases he
    exact Or.inr (Or.inl ⟨v, hv, rfl⟩)
  · obtain ⟨v, hv, he⟩ := Option.map_eq_some_iff.mp h
    cases he
    exact Or.inr (Or.inr ⟨v, hv, rfl, rfl⟩)

theorem presence?_field {o : Occurrence} {key : FieldKey} {presence : Presence}
    (h : o.presence? = some (key, presence)) : o.metatag.presenceField? = some key.field := by
  unfold Occurrence.presence? at h
  obtain ⟨field, hfield, h⟩ := Option.bind_eq_some_iff.mp h
  obtain ⟨read, _, h⟩ := Option.bind_eq_some_iff.mp h
  rw [hfield]
  cases hclause : o.clause <;> rw [hclause] at h <;> cases h <;> rfl

theorem gatheredAs?_field {o : Occurrence} {key : FieldKey} {v : Value}
    (h : c.gatheredAs? o = some (key, v)) :
    key.field = o.metatag.field ∧ o.metatag.holdsSingle = false := by
  unfold gatheredAs? at h
  split at h
  · next hm =>
    cases h
    rw [hm]
    exact ⟨rfl, rfl⟩
  · obtain ⟨result, hresult, h⟩ := Option.bind_eq_some_iff.mp h
    obtain ⟨v, _, he⟩ := Option.map_eq_some_iff.mp h
    cases he
    refine ⟨rfl, ?_⟩
    cases hm : o.metatag <;> first | rfl | (rw [hm] at hresult; cases hresult)

theorem single?_holdsSingle {o : Occurrence} {v : Value} (h : o.single? = some v) :
    o.metatag.holdsSingle = true := by
  unfold Occurrence.single? at h
  cases hm : o.metatag <;> rw [hm] at h <;> first | rfl | cases h

theorem stored?_field {o : Occurrence} {key : FieldKey} {held : FieldValue}
    (h : c.stored? o = some (key, held)) :
    key.field = o.metatag.field ∨ o.metatag.presenceField? = some key.field := by
  rcases stored?_cases h with ⟨presence, hpresence, -⟩ | ⟨v, hv, -⟩ | ⟨v, -, rfl, -⟩
  · exact Or.inr (presence?_field hpresence)
  · exact Or.inl (gatheredAs?_field hv).1
  · exact Or.inl rfl

/-- **An occurrence is stored in the shape of its key.** -/
theorem stored?_shape {o : Occurrence} {key : FieldKey} {held : FieldValue}
    (h : c.stored? o = some (key, held)) :
    held.shape = key.shape ∧ IsPlainField key.field := by
  rcases stored?_cases h with ⟨presence, hpresence, rfl⟩ | ⟨v, hv, rfl⟩ | ⟨v, hv, rfl, rfl⟩
  · have hmem := Metatag.mem_presenceFields (presence?_field hpresence)
    refine ⟨?_, isPlainField_of_mem hmem⟩
    rw [FieldKey.shape, if_pos hmem]
    rfl
  · obtain ⟨hfield, hm⟩ := gatheredAs?_field hv
    have hshape := o.metatag.shape_field key.clause
    rw [hm, ← hfield] at hshape
    exact ⟨hshape.symm, hfield ▸ o.metatag.isPlainField_field⟩
  · refine ⟨?_, o.metatag.isPlainField_field⟩
    rw [Metatag.shape_field, single?_holdsSingle hv]
    rfl

end Compiler

end TagSearch
