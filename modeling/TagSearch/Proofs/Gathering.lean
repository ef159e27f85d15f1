import TagSearch.Proofs.Occurrences
import TagSearch.Proofs.Privacy
import TagSearch.Proofs.Provenance

/-!
# What the fields gather

What the fields of a query hold is read off the occurrences among the tokens of its level: all that
were stored under a key, if the key gathers values, and else the last one. Only the status has a
default, which the metatags about deletion bring in.

Both are shown for one occurrence (`Does`) and then for a run of them (`Dispatched`).

Main statement: `compile_stores_occurrences`.
-/

namespace TagSearch.Compiler

variable {c : Compiler}

/-! ## Keys -/

/-- What an occurrence is stored as under a key. -/
def storedUnder (c : Compiler) (key : FieldKey) (o : Occurrence) : Option FieldValue :=
  (c.stored? o).bind fun (stored, held) => if stored = key then some held else none

/-- What occurrences imply for a key: any status, if one of them asks for a deletion. -/
def impliedUnder (key : FieldKey) (occs : List Occurrence) : Option FieldValue :=
  if key = Query.statusKey ∧ occs.any Occurrence.asksAnyStatus then
    some (.single (.text "any".toList))
  else none

/-- Gathered values, unless there are none. -/
def listed : List Value → Option FieldValue
  | [] => none
  | v :: vs => some (.values (v :: vs))

theorem listed_concat (vs : List Value) (v : Value) :
    listed (vs ++ [v]) = some (.values (vs ++ [v])) := by
  cases vs <;> rfl

theorem implied_eq (o : Occurrence) :
    implied o.metatag = if o.asksAnyStatus then
      [.setDefault Query.statusKey (.single (.text "any".toList))] else [] := by
  unfold Occurrence.asksAnyStatus
  cases o.metatag <;> rfl

theorem get?_foldl_implied (o : Occurrence) (key : FieldKey) (fs : Fields) :
    ((implied o.metatag).foldl Fields.apply fs).get? key
      = (fs.get? key).or (impliedUnder key [o]) := by
  rw [implied_eq, impliedUnder]
  cases hasks : o.asksAnyStatus with
  | false => simp [hasks]
  | true =>
    by_cases hkey : key = Query.statusKey
    · subst hkey
      cases hget : fs.get? Query.statusKey with
      | none => simp [Fields.apply, Fields.contains, hget, Fields.get?_insert, hasks]
      | some held => simp [Fields.apply, Fields.contains, hget]
    · have hother : ∀ change ∈ [Change.setDefault Query.statusKey (.single (.text "any".toList))],
          change.key ≠ key := by
        simpa [Change.key] using Ne.symm hkey
      rw [if_pos rfl, Fields.get?_foldl_apply hother]
      simp [hkey]

theorem get?_foldl_push {key : FieldKey} {fs : Fields} {vs : List Value}
    (hfs : fs.get? key = listed vs) (more : List Value) :
    ((more.map (Change.push key)).foldl Fields.apply fs).get? key = listed (vs ++ more) := by
  induction more generalizing fs vs with
  | nil => simpa using hfs
  | cons v rest ih =>
    have hnext : (fs.apply (.push key v)).get? key = listed (vs ++ [v]) := by
      rw [Fields.apply, Fields.get?_insert, if_pos rfl, hfs, listed_concat]
      cases vs <;> rfl
    rw [List.map_cons, List.foldl_cons, ih hnext, List.append_assoc]
    rfl

theorem storing_key {key : FieldKey} {held : FieldValue} :
    ∀ change ∈ storing key held, change.key = key := by
  cases held <;> simp [storing, Change.key]

theorem get?_storing_values {stored key : FieldKey} {held : FieldValue}
    (hshape : held.shape = stored.shape) (hkey : key.shape = .values) {fs : Fields}
    {vs : List Value} (hfs : fs.get? key = listed vs) :
    ((storing stored held).foldl Fields.apply fs).get? key
      = listed (vs ++ if stored = key then held.gathered else []) := by
  split
  · next he =>
    subst he
    obtain ⟨more, rfl⟩ := eq_values_of_shape (hshape.trans hkey)
    exact get?_foldl_push hfs more
  · next hne =>
    rw [Fields.get?_foldl_apply fun change hchange => storing_key change hchange ▸ hne, hfs,
      List.append_nil]

theorem get?_storing_last {stored key : FieldKey} {held : FieldValue}
    (hshape : held.shape = stored.shape) (hkey : key.shape ≠ .values) (fs : Fields) :
    ((storing stored held).foldl Fields.apply fs).get? key
      = if stored = key then some held else fs.get? key := by
  split
  · next he =>
    subst he
    cases held with
    | values => exact absurd hshape.symm hkey
    | single | presence => simp [storing, Fields.apply, Fields.get?_insert]
  · next hne =>
    rw [Fields.get?_foldl_apply fun change hchange => storing_key change hchange ▸ hne]

theorem storedUnder_of_stored {o : Occurrence} {stored : FieldKey} {held : FieldValue}
    (h : c.stored? o = some (stored, held)) (key : FieldKey) :
    c.storedUnder key o = if stored = key then some held else none := by
  rw [storedUnder, h]
  rfl

theorem storedUnder_of_none {o : Occurrence} (h : c.stored? o = none) (key : FieldKey) :
    c.storedUnder key o = none := by
  rw [storedUnder, h]
  rfl

theorem impliedUnder_of_isIdle {o : Occurrence} (h : o.IsIdle) (key : FieldKey) :
    impliedUnder key [o] = none := by
  have hasks : o.asksAnyStatus = false := by
    rcases h with hm | ⟨hm, -⟩ <;> simp [Occurrence.asksAnyStatus, hm]
  simp [impliedUnder, hasks]

/-- An occurrence adds to the values under a key what it is stored as there. -/
theorem Does.get?_values {o : Occurrence} {changes : List Change} (h : c.Does o changes)
    {key : FieldKey} (hkey : key.shape = .values) {fs : Fields} {vs : List Value}
    (hfs : fs.get? key = listed vs) :
    (changes.foldl Fields.apply fs).get? key
      = listed (vs ++ (c.storedUnder key o).toList.flatMap FieldValue.gathered) := by
  cases h with
  | idle _ hstored => simpa [storedUnder_of_none hstored] using hfs
  | stores hstored =>
    -- what is implied is a status, and the status is not gathered
    have hstatus : key ≠ Query.statusKey := by
      rintro rfl
      cases hkey
    have hbefore : ((implied o.metatag).foldl Fields.apply fs).get? key = listed vs := by
      simp [get?_foldl_implied, impliedUnder, hstatus, hfs]
    rw [List.foldl_append, get?_storing_values (stored?_shape hstored).1 hkey hbefore,
      storedUnder_of_stored hstored]
    split <;> simp

/-- An occurrence leaves under a key what it is stored as there, and else what was there or what it
implies. -/
theorem Does.get?_last {o : Occurrence} {changes : List Change} (h : c.Does o changes)
    {key : FieldKey} (hkey : key.shape ≠ .values) (fs : Fields) :
    (changes.foldl Fields.apply fs).get? key
      = (c.storedUnder key o).or ((fs.get? key).or (impliedUnder key [o])) := by
  cases h with
  | idle hidle hstored => simp [storedUnder_of_none hstored, impliedUnder_of_isIdle hidle]
  | stores hstored =>
    rw [List.foldl_append, get?_storing_last (stored?_shape hstored).1 hkey,
      storedUnder_of_stored hstored, get?_foldl_implied]
    split <;> rfl

/-! ## Runs -/

/-- The changes that occurrences make, one after the other. -/
inductive Dispatched (c : Compiler) : List Occurrence → List Change → Prop
  | nil : Dispatched c [] []
  | snoc {before : List Occurrence} {changes more : List Change} {o : Occurrence}
    (hbefore : Dispatched c before changes)
    (hmore : c.changes o.metatag o.clause o.value = .ok more) :
    Dispatched c (before ++ [o]) (changes ++ more)

variable {occs : List Occurrence} {changes : List Change}

/-- No occurrence is lost, but those that say nothing. -/
theorem Dispatched.stored (h : c.Dispatched occs changes) :
    ∀ o ∈ occs, (c.stored? o).isSome ∨ o.IsIdle := by
  induction h with
  | nil => simp
  | @snoc _ _ _ last _ hmore ih =>
    intro o ho
    rcases List.mem_append.mp ho with ho | ho
    · exact ih o ho
    · rw [List.mem_singleton.mp ho]
      cases does_of_changes hmore with
      | idle hidle => exact Or.inr hidle
      | stores hstored => exact Or.inl (by rw [hstored]; rfl)

theorem filterMap_concat {α β : Type} (f : α → Option β) (items : List α) (item : α) :
    (items ++ [item]).filterMap f = items.filterMap f ++ (f item).toList := by
  rw [List.filterMap_append, List.filterMap_cons]
  cases f item <;> rfl

/-- **A key that gathers values holds all that occurrences are stored as,** in order. -/
theorem Dispatched.get?_values (h : c.Dispatched occs changes) {key : FieldKey}
    (hkey : key.shape = .values) :
    (changes.foldl Fields.apply {}).get? key
      = listed ((occs.filterMap (c.storedUnder key)).flatMap FieldValue.gathered) := by
  induction h with
  | nil => rfl
  | snoc _ hmore ih =>
    rw [List.foldl_append, (does_of_changes hmore).get?_values hkey ih, filterMap_concat,
      List.flatMap_append]

theorem impliedUnder_concat (key : FieldKey) (occs : List Occurrence) (o : Occurrence) :
    impliedUnder key (occs ++ [o]) = (impliedUnder key occs).or (impliedUnder key [o]) := by
  unfold impliedUnder
  cases hall : occs.any Occurrence.asksAnyStatus <;> by_cases hkey : key = Query.statusKey <;>
    simp [List.any_append, hall, hkey]

/-- **Any other key holds the last that an occurrence is stored as,** or what is implied. -/
theorem Dispatched.get?_last (h : c.Dispatched occs changes) {key : FieldKey}
    (hkey : key.shape ≠ .values) :
    (changes.foldl Fields.apply {}).get? key
      = (occs.filterMap (c.storedUnder key)).getLast?.or (impliedUnder key occs) := by
  induction h with
  | nil => simp [impliedUnder, Fields.get?, Fields.lookup]
  | @snoc _ _ _ o _ hmore ih =>
    rw [List.foldl_append, (does_of_changes hmore).get?_last hkey, ih, filterMap_concat,
      impliedUnder_concat]
    -- what is stored wins over what is implied, whichever came first
    cases c.storedUnder key o with
    | none => simp [Option.or_assoc]
    | some held => simp

/-! ## Whole searches -/

/-- Only a recognized status, without a modifier, is stored as the status. -/
theorem storedUnder_statusKey (o : Occurrence) :
    c.storedUnder Query.statusKey o = o.status?.map fun status => .single (.text status) := by
  by_cases hm : o.metatag = .status
  · obtain ⟨m, clause, value, haccepts⟩ := o
    obtain rfl : m = .status := hm
    have hsingle : Occurrence.single? ⟨.status, clause, value, haccepts⟩
        = if Lookup.statusValues.contains value.lowercase then some (.text value.lowercase)
          else none := rfl
    have hstored : c.stored? ⟨.status, clause, value, haccepts⟩
        = (Occurrence.single? ⟨.status, clause, value, haccepts⟩).map fun v =>
          (⟨"status", clause⟩, .single v) := rfl
    rw [storedUnder, hstored, hsingle, Occurrence.status?]
    by_cases hvalue : Lookup.statusValues.contains value.lowercase = true
    · cases clause <;> simp only [hvalue] <;> rfl
    · simp only [hvalue]
      cases clause <;> rfl
  · have hnone : o.status? = none := by
      simp [Occurrence.status?, hm]
    rw [hnone]
    cases hstored : c.stored? o with
    | none => exact storedUnder_of_none hstored _
    | some entry =>
      obtain ⟨key, held⟩ := entry
      -- no other metatag has the field of the status, nor a presence of that name
      have hfield : key.field ≠ "status" := by
        intro he
        rcases stored?_field hstored with hkey | hkey
        · exact hm (Metatag.field_eq_status (hkey ▸ he))
        · exact (o.metatag.concernsDeletion_of_presenceField? hkey o.value).2 he
      rw [storedUnder_of_stored hstored, if_neg]
      · rfl
      · rintro rfl
        exact hfield rfl

/-- What the fields hold for the occurrences of a level. -/
structure Stores (c : Compiler) (occs : List Occurrence) (fs : Fields) : Prop where
  /-- No occurrence is lost. -/
  stored : ∀ o ∈ occs, (c.stored? o).isSome ∨ o.IsIdle
  /-- Values are gathered in order. -/
  gathered : ∀ key : FieldKey, key.shape = .values →
    fs.get? key = listed ((occs.filterMap (c.storedUnder key)).flatMap FieldValue.gathered)
  /-- Of values and presences that stand alone, the last one is held. -/
  last : ∀ key : FieldKey, key.shape ≠ .values → key ≠ Query.statusKey →
    fs.get? key = (occs.filterMap (c.storedUnder key)).getLast?
  /-- So is the status that is asked for; any status is the default if a deletion is asked for. -/
  status : fs.get? Query.statusKey
    = ((occs.filterMap Occurrence.status?).getLast?.or
        (if occs.any Occurrence.asksAnyStatus then some "any".toList else none)).map
          fun status => .single (.text status)

theorem Dispatched.stores (h : c.Dispatched occs changes) :
    c.Stores occs (changes.foldl Fields.apply {}) where
  stored := h.stored
  gathered := fun _ hkey => h.get?_values hkey
  last := by
    intro key hkey hstatus
    simp [h.get?_last hkey, impliedUnder, hstatus]
  status := by
    have hmap : occs.filterMap (c.storedUnder Query.statusKey)
        = (occs.filterMap Occurrence.status?).map fun status => .single (.text status) := by
      rw [List.map_filterMap]
      exact congrArg (occs.filterMap ·) (funext storedUnder_statusKey)
    rw [h.get?_last (by decide), hmap, List.getLast?_map]
    cases (occs.filterMap Occurrence.status?).getLast? with
    | some status => rfl
    | none => cases hasks : occs.any Occurrence.asksAnyStatus <;> simp [impliedUnder, hasks]

end TagSearch.Compiler
