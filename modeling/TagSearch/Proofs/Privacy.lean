import TagSearch.Proofs.Status
import TagSearch.Proofs.Subqueries
import TagSearch.Record.Index

/-!
# What a search may refer to

Whoever is not a moderator asks for their own votes only, for favorites that are not hidden from
them, and for sets that they may see. This holds of every query that a search is compiled to, with
success or up to an error, and of every group in it, however a record was named.

The argument runs from one occurrence of a metatag to a whole search: `gathered?_permitted` and
`changes_permitted` say what an occurrence stores, `Fields.Holds.foldl` that the fields keep it, and
the induction over levels is that of `compileLevel_handed`.
-/

namespace TagSearch

/-! ## Values in fields -/

/-- The values that a field holds, whatever its shape. -/
def FieldValue.contents : FieldValue → List Value
  | values vs => vs
  | single v => [v]
  | presence _ => []

/-- The values of a query under a field and a clause. -/
def Query.valuesUnder (q : Query) (field : String) (clause : Clause) : List Value :=
  ((q.fields.get? ⟨field, clause⟩).map FieldValue.contents).getD []

/-- What holds of every value that a change may store. -/
def Change.Stores (P : FieldKey → Value → Prop) : Change → Prop
  | .push key value => P key value
  | .set key value | .setDefault key value => ∀ v ∈ value.contents, P key v

/-- What holds of every value under its key. -/
def Fields.Holds (P : FieldKey → Value → Prop) (fs : Fields) : Prop :=
  ∀ key value, fs.get? key = some value → ∀ v ∈ value.contents, P key v

namespace Fields

variable {P : FieldKey → Value → Prop} {fs : Fields}

theorem Holds.insert (h : fs.Holds P) {key : FieldKey} {value : FieldValue}
    (hvalue : ∀ v ∈ value.contents, P key v) : (fs.insert key value).Holds P := by
  intro other found hfound
  rw [get?_insert] at hfound
  split at hfound
  · next hkey =>
    cases hfound
    rw [hkey]
    exact hvalue
  · exact h other found hfound

theorem gathered_subset (value : FieldValue) : value.gathered ⊆ value.contents := by
  cases value with
  | values vs => exact fun _ h => h
  | single | presence => exact List.nil_subset _

theorem Holds.apply (h : fs.Holds P) {change : Change} (hchange : change.Stores P) :
    (fs.apply change).Holds P := by
  cases change with
  | push key value =>
    refine h.insert fun v hv => ?_
    rcases List.mem_append.mp hv with hv | hv
    · -- what was gathered under the key before
      cases hold : fs.get? key with
      | none =>
        rw [hold] at hv
        simp at hv
      | some old =>
        rw [hold] at hv
        exact h key old hold v (gathered_subset old hv)
    · rw [List.mem_singleton.mp hv]
      exact hchange
  | set key value => exact h.insert hchange
  | setDefault key value =>
    rw [Fields.apply]
    split
    · exact h
    · exact h.insert hchange

/-- What every change stores, the fields hold after all of them. -/
theorem Holds.foldl {changes : List Change} (h : fs.Holds P)
    (hchanges : ∀ change ∈ changes, change.Stores P) : (changes.foldl Fields.apply fs).Holds P :=
  List.foldlRecOn changes Fields.apply h fun _ hfs change hmem => hfs.apply (hchanges change hmem)

theorem Holds.mem_valuesUnder {q : Query} (h : q.fields.Holds P) {field : String} {clause : Clause}
    {v : Value} (hv : v ∈ q.valuesUnder field clause) : P ⟨field, clause⟩ v := by
  unfold Query.valuesUnder at hv
  cases hget : q.fields.get? ⟨field, clause⟩ with
  | none =>
    rw [hget] at hv
    simp at hv
  | some value =>
    rw [hget] at hv
    exact h _ value hget v hv

end Fields

/-! ## Records that a search may refer to -/

/-- The metatags that ask for votes. -/
def voteMetatags : List Metatag := [.upvote, .downvote, .voted]

/-- The fields that hold who voted. -/
def voteFields : List String := ["upvote", "downvote", "voted"]

/-- What a value under a key may be, if the actor is not a moderator. -/
structure Index.Permits (index : Index) (key : FieldKey) (v : Value) : Prop where
  votes : key.field ∈ voteFields → v = .int (index.actor.id.getD (-1))
  favorites : key.field = "fav_ids" →
    v = .int (-1) ∨ ∃ user, v = .int user ∧ index.hidesFavorites user = false
  sets : key.field = "set_ids" →
    v = .int (-1) ∨ ∃ set ∈ index.sets.values, v = .int set.id
      ∧ (set.isPublic = true ∨ set.owner.isSome = true ∧ set.owner = index.actor.id)

/-- The metatags whose records are not for everyone. -/
def guardedMetatags : List Metatag := .fav :: .set :: voteMetatags

/-- The fields whose records are not for everyone. -/
def guardedFields : List String := "fav_ids" :: "set_ids" :: voteFields

theorem Index.permits_of_not_mem (index : Index) {key : FieldKey} (h : key.field ∉ guardedFields)
    (v : Value) : index.Permits key v := by
  simp only [guardedFields, List.mem_cons, not_or] at h
  exact ⟨fun hvotes => absurd hvotes h.2.2, fun hfav => absurd hfav h.1,
    fun hset => absurd hset h.2.1⟩

/-- A guarded field is filled by its own metatags only. -/
theorem Metatag.mem_guarded {m : Metatag} (h : m.field ∈ guardedFields) : m ∈ guardedMetatags := by
  have hall : Metatag.all.all
      (fun m => decide (m.field ∈ guardedFields → m ∈ guardedMetatags)) = true := by
    decide +kernel
  exact of_decide_eq_true (List.all_eq_true.mp hall m m.mem_all) h

namespace Index

theorem mem_values_of_get? {α : Type} {map : NameMap α} {name : Text} {value : α}
    (h : map.get? name = some value) : value ∈ map.values := by
  obtain ⟨entry, hfind, rfl⟩ := Option.map_eq_some_iff.mp h
  exact List.mem_map_of_mem (f := Prod.snd) (List.mem_of_find?_eq_some hfind)

/-- A set is found among the sets, by name and by number. -/
theorem mem_of_set? {index : Index} {name : Text} {set : PostSet}
    (h : index.set? name = some set) : set ∈ index.sets.values := by
  unfold Index.set? at h
  split at h
  · exact List.mem_of_find?_eq_some h
  · exact mem_values_of_get? h

theorem canView_iff {index : Index} (hmember : index.actor.isModerator = false) {set : PostSet} :
    index.canView set = true
      ↔ set.isPublic = true ∨ set.owner.isSome = true ∧ set.owner = index.actor.id := by
  simp [canView, hmember]

end Index

namespace Compiler

variable {c : Compiler} {index : Index}

/-! ## One occurrence -/

section Occurrence

variable (hrecords : c.resolver.records = index.records)
  (hmember : index.actor.isModerator = false)

include hrecords

theorem favoritesId_visible {value : Text} {id : Int} (h : c.favoritesId value = .ok id) :
    id = -1 ∨ index.hidesFavorites id = false := by
  unfold favoritesId at h
  split at h
  · cases h
    exact Or.inl rfl
  · next user _ =>
    split at h
    · simp at h
    · next hvisible =>
      cases h
      rw [hrecords] at hvisible
      exact Or.inr (by simpa [Index.records] using hvisible)

include hmember

/-- Whoever is not a moderator votes as themselves. -/
theorem voterId_eq (value : Text) : c.voterId value = index.actor.id.getD (-1) := by
  simp [voterId, hrecords, Index.records, hmember, unknownId]

theorem setId_visible {value : Text} {id : Int} (h : c.setId value = .ok id) :
    id = -1 ∨ ∃ set ∈ index.sets.values, id = set.id
      ∧ (set.isPublic = true ∨ set.owner.isSome = true ∧ set.owner = index.actor.id) := by
  unfold setId at h
  rw [hrecords] at h
  split at h
  · cases h
    exact Or.inl rfl
  · simp at h
  · next id' hfound =>
    cases h
    obtain ⟨set, hset, hpair⟩ := Option.map_eq_some_iff.mp hfound
    simp only [Prod.mk.injEq] at hpair
    obtain ⟨rfl, hview⟩ := hpair
    exact Or.inr ⟨set, Index.mem_of_set? hset, rfl, (Index.canView_iff hmember).mp hview⟩

/-- A vote is gathered under the id of the actor, whoever is named. -/
theorem gathered?_vote {m : Metatag} (h : m ∈ voteMetatags) (value : Text) :
    c.gathered? m value = some (.ok (.int (index.actor.id.getD (-1)))) := by
  rw [← voterId_eq hrecords hmember value]
  simp only [voteMetatags, List.mem_cons, List.not_mem_nil, or_false] at h
  rcases h with rfl | rfl | rfl <;> rfl

/-- **What an occurrence gathers, the actor may refer to.** -/
theorem gathered?_permitted {m : Metatag} {value : Text} {v : Value}
    (h : c.gathered? m value = some (.ok v)) (clause : Clause) :
    index.Permits ⟨m.field, clause⟩ v := by
  by_cases hguarded : m.field ∈ guardedFields
  · have hm := Metatag.mem_guarded hguarded
    simp only [guardedMetatags, List.mem_cons] at hm
    rcases hm with rfl | rfl | hvote
    · obtain ⟨id, hid, rfl⟩ := exists_ok_of_map (Option.some.inj h)
      refine ⟨fun hfield => ?_, fun _ => ?_, fun hfield => ?_⟩
      · exact absurd hfield (show Metatag.fav.field ∉ voteFields by decide)
      · rcases favoritesId_visible hrecords hid with rfl | hvisible
        · exact Or.inl rfl
        · exact Or.inr ⟨id, rfl, hvisible⟩
      · exact absurd hfield (show Metatag.fav.field ≠ "set_ids" by decide)
    · obtain ⟨id, hid, rfl⟩ := exists_ok_of_map (Option.some.inj h)
      refine ⟨fun hfield => ?_, fun hfield => ?_, fun _ => ?_⟩
      · exact absurd hfield (show Metatag.set.field ∉ voteFields by decide)
      · exact absurd hfield (show Metatag.set.field ≠ "fav_ids" by decide)
      · rcases setId_visible hrecords hmember hid with rfl | ⟨set, hset, rfl, hview⟩
        · exact Or.inl rfl
        · exact Or.inr ⟨set, hset, rfl, hview⟩
    · rw [gathered?_vote hrecords hmember hvote] at h
      cases h
      have hother : ∀ m ∈ voteMetatags, m.field ≠ "fav_ids" ∧ m.field ≠ "set_ids" := by decide
      exact ⟨fun _ => rfl, fun hfield => absurd hfield (hother m hvote).1,
        fun hfield => absurd hfield (hother m hvote).2⟩
  · exact index.permits_of_not_mem hguarded v

/-- A guarded metatag gathers its values. -/
theorem gathered?_ne_none {m : Metatag} (h : m ∈ guardedMetatags) (value : Text) :
    c.gathered? m value ≠ none := by
  simp only [guardedMetatags, List.mem_cons] at h
  rcases h with rfl | rfl | hvote
  · simp [gathered?]
  · simp [gathered?]
  · simp [gathered?_vote hrecords hmember hvote]

/-- **All that an occurrence stores, the actor may refer to.** -/
theorem changes_permitted {m : Metatag} {clause : Clause} {value : Text} {changes : List Change}
    (h : c.changes m clause value = .ok changes) :
    ∀ change ∈ changes, change.Stores index.Permits := by
  unfold Compiler.changes at h
  split at h
  · next field presence _ _ =>
    cases h
    cases clause <;> simp [presenceChange, Change.Stores, FieldValue.contents]
  · split at h
    · next result hgathered =>
      obtain ⟨v, rfl, h⟩ := exists_ok_of_bind h
      cases h
      have hvalue : index.Permits ⟨m.field, clause⟩ v :=
        gathered?_permitted hrecords hmember hgathered clause
      have himplied : ∀ change ∈ implied m, change.Stores index.Permits := by
        intro change hchange
        unfold implied at hchange
        split at hchange
        · simp only [List.mem_singleton] at hchange
          subst hchange
          exact fun v _ => index.permits_of_not_mem (by decide) v
        · simp only [List.mem_singleton] at hchange
          subst hchange
          exact fun v _ => index.permits_of_not_mem (by decide) v
        · simp at hchange
      intro change hchange
      rcases List.mem_append.mp hchange with hchange | hchange
      · exact himplied change hchange
      · rw [List.mem_singleton.mp hchange]
        exact hvalue
    · next hgathered =>
      -- what is settled and not gathered is no guarded field
      have hfield : m.field ∉ guardedFields := fun hguarded =>
        gathered?_ne_none hrecords hmember (Metatag.mem_guarded hguarded) value hgathered
      intro change hchange
      have hkey : change.key.field ∉ guardedFields := by
        rw [settled_field h change hchange]
        exact hfield
      cases change with
      | push key v => exact index.permits_of_not_mem hkey v
      | set key v | setDefault key v => exact fun v _ => index.permits_of_not_mem hkey v

/-- **Votes do not tell users apart.** Whoever is named, the same is stored. -/
theorem changes_vote {m : Metatag} (h : m ∈ voteMetatags) (clause : Clause) (value : Text) :
    c.changes m clause value
      = .ok [.push ⟨m.field, clause⟩ (.int (index.actor.id.getD (-1)))] := by
  have hpresence : m.presenceField? = none := by
    simp only [voteMetatags, List.mem_cons, List.not_mem_nil, or_false] at h
    rcases h with rfl | rfl | rfl <;> rfl
  have himplied : implied m = [] := by
    simp only [voteMetatags, List.mem_cons, List.not_mem_nil, or_false] at h
    rcases h with rfl | rfl | rfl <;> rfl
  unfold Compiler.changes
  rw [hpresence, gathered?_vote hrecords hmember h, himplied]
  rfl

end Occurrence

/-! ## Whole searches -/

/-- What a token does to the fields: nothing, or what its metatag does. -/
theorem addToken_fields {q q' : Query} {token : Token} (h : c.addToken q token = .ok q') :
    q'.fields = q.fields ∨ ∃ m value changes, c.changes m token.clause value = .ok changes
      ∧ q'.fields = changes.foldl Fields.apply q.fields := by
  rcases addToken_cases h with ⟨m, value, changes, _, hchanges, rfl⟩ | ⟨_, rfl⟩
  · exact Or.inr ⟨m, value, changes, hchanges, rfl⟩
  · exact Or.inl rfl

theorem finished_fields (level : Level) (q : Query) : (c.finished level q).fields = q.fields := by
  unfold finished
  split <;> rfl

/-- What every occurrence of a metatag stores, every query holds. -/
theorem keeps_fields {P : FieldKey → Value → Prop}
    (h : ∀ {m clause value changes}, c.changes m clause value = .ok changes →
      ∀ change ∈ changes, change.Stores P) :
    c.Keeps (fun q => q.fields.Holds P) (fun q => q.fields.Holds P) where
  empty := by simp [Fields.Holds, Fields.get?, Fields.lookup]
  token := by
    intro q q' token hq hadd
    rcases addToken_fields hadd with hsame | ⟨m, value, changes, hchanges, hfields⟩
    · rw [hsame]
      exact hq
    · rw [hfields]
      exact hq.foldl (h hchanges)
  group := fun _ _ _ hq => hq
  finished := by
    intro q level hq
    rw [finished_fields]
    exact hq
  nothing := by simp [Fields.Holds, Fields.get?, Fields.lookup]

/-- **Whoever is not a moderator reaches no restricted record.** In every query that a search hands
out and in every group below it, votes are the actor's own, favorites are not hidden from the actor,
and sets are public or the actor's own; and whichever users are named in a vote, and whichever users
there are, the query comes out the same. -/
theorem compile_reaches_permitted (c : Compiler) (index : Index)
    (hrecords : c.resolver.records = index.records) (hmember : index.actor.isModerator = false) :
    (∀ search q, c.Returns search q → ∀ inner, Query.Within inner q → ∀ clause,
        (∀ field ∈ voteFields, ∀ v ∈ inner.valuesUnder field clause,
          v = .int (index.actor.id.getD (-1)))
        ∧ (∀ v ∈ inner.valuesUnder "fav_ids" clause,
          v = .int (-1) ∨ ∃ user, v = .int user ∧ index.hidesFavorites user = false)
        ∧ (∀ v ∈ inner.valuesUnder "set_ids" clause,
          v = .int (-1) ∨ ∃ set ∈ index.sets.values, v = .int set.id
            ∧ (set.isPublic = true ∨ set.owner.isSome = true ∧ set.owner = index.actor.id)))
      ∧ ∀ (c' : Compiler) (index' : Index), c'.resolver.records = index'.records →
          index'.actor = index.actor → ∀ m ∈ voteMetatags, ∀ clause value value' (q : Query),
          ∃ q', q.change <$> c.changes m clause value = .ok q'
            ∧ q.change <$> c'.changes m clause value' = .ok q' := by
  refine ⟨?_, ?_⟩
  · intro search q hreturns inner hwithin clause
    have hholds : inner.fields.Holds index.Permits :=
      (keeps_fields (changes_permitted hrecords hmember)).of_returns hreturns inner hwithin
    exact ⟨fun field hfield v hv => (hholds.mem_valuesUnder hv).votes hfield,
      fun v hv => (hholds.mem_valuesUnder hv).favorites rfl,
      fun v hv => (hholds.mem_valuesUnder hv).sets rfl⟩
  · intro c' index' hrecords' hactor m hm clause value value' q
    have hmember' : index'.actor.isModerator = false := by rw [hactor, hmember]
    refine ⟨_, congrArg (q.change <$> ·) (changes_vote hrecords hmember hm clause value), ?_⟩
    rw [changes_vote hrecords' hmember' hm clause value', hactor]
    rfl

/-- Whoever has number 7 owns the set `mine` and may not see the favorites of `ann`. -/
def memberIndex : Index where
  actor := { id := some 7 }
  users := ⟨[("ann".toList, { id := 1, privateFavorites := true }), ("bob".toList, { id := 2 })]⟩
  sets := ⟨[("hers".toList, { id := 4, owner := some 1, isPublic := false }),
    ("mine".toList, { id := 5, owner := some 7, isPublic := false })]⟩

/-- Compiles for whoever has number 7. -/
def memberCompiler : Compiler where
  settings := { processGroups := true }
  resolver := { records := memberIndex.records }
  now := ⟨0⟩

/-- Asking for the votes of `ann` finds the actor's own, and a set in a group is one that the actor
may see; a set of `ann` is refused. -/
theorem compile_reaches_permitted_member :
    (∃ built, memberCompiler.compile "upvote:ann ( fav:bob -( set:mine ) )".toList = .ok built
      ∧ built.valuesUnder "upvote" .must = [.int 7]
      ∧ ∀ inner, Query.Within inner built → ∀ clause, ∀ v ∈ inner.valuesUnder "set_ids" clause,
          v = .int (-1) ∨ ∃ set ∈ memberIndex.sets.values, v = .int set.id
            ∧ (set.isPublic = true ∨ set.owner.isSome = true ∧ set.owner = some 7))
      ∧ (memberCompiler.compile "( set:hers )".toList).toBool = false := by
  refine ⟨?_, by decide +kernel⟩
  have hvotes : ((memberCompiler.compile "upvote:ann ( fav:bob -( set:mine ) )".toList).toOption.map
      fun built => (built.valuesUnder "upvote" .must).length) = some 1 := by
    decide +kernel
  cases hbuilt : memberCompiler.compile "upvote:ann ( fav:bob -( set:mine ) )".toList with
  | error e =>
    rw [hbuilt] at hvotes
    cases hvotes
  | ok built =>
    rw [hbuilt] at hvotes
    have hpermitted := (compile_reaches_permitted memberCompiler memberIndex rfl rfl).1 _ built
      (Or.inl hbuilt)
    refine ⟨built, rfl, ?_, fun inner hwithin clause => (hpermitted inner hwithin clause).2.2⟩
    exact List.eq_replicate_iff.mpr
      ⟨Option.some.inj hvotes, (hpermitted built .self .must).1 "upvote" (by decide)⟩

end Compiler

end TagSearch
