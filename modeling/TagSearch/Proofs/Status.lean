import TagSearch.Proofs.Budget

/-!
# The status in a query

Whether a query asks for posts by their deletion shows in the status among its fields, and in those
of its groups. A status is set by three metatags and by nothing else, and only to a recognized
value; so a query asks for what the metatags among its tokens do.

* `Compiler.StatusChange`: what one metatag does to the status.
* `Compiler.addToken_concernsDeletion`: what one token adds to a query.
-/

namespace TagSearch

open Text

/-! ## Metatags about deletion -/

/-- The metatags that tell whether deleted posts are asked for. -/
def deletionMetatags : List Metatag :=
  [.status, .delReason, .deletedBy]

/-- Whether an occurrence of a metatag asks for posts by their deletion. -/
def Metatag.concernsDeletion : Metatag → Text → Bool
  | .status, value => Lookup.statusValues.contains value.lowercase
  | .delReason, _ | .deletedBy, _ => true
  | _, _ => false

theorem Metatag.concernsDeletion_mem {m : Metatag} {value : Text}
    (h : m.concernsDeletion value = true) : m ∈ deletionMetatags := by
  unfold Metatag.concernsDeletion at h
  split at h
  · simp [deletionMetatags]
  · simp [deletionMetatags]
  · simp [deletionMetatags]
  · simp at h

/-- Whether a token, as it is compiled, asks for posts by their deletion. -/
def Token.asksDeletion (token : Token) : Bool :=
  (Compiler.metatag? token).any fun (m, value) => m.concernsDeletion value

theorem Token.asksDeletion_iff {token : Token} {name value : Text} {quoted : Bool}
    (hbody : token.body = .metatag name value quoted) :
    token.asksDeletion = true ↔ isWhite value = false ∧ ∃ m, Metatag.ofName? name = some m
      ∧ m.accepts token.clause = true ∧ m.concernsDeletion value = true := by
  unfold Token.asksDeletion Compiler.metatag?
  rw [hbody]
  dsimp only
  cases isWhite value with
  | true => simp
  | false =>
    cases Metatag.ofName? name with
    | none => simp
    | some m => by_cases haccepts : m.accepts token.clause = true <;>
      simp [Option.filter_some, haccepts]

/-- A metatag that is hoisted by default is not about deletion. -/
theorem Token.asksDeletion_of_isHoisted {token : Token}
    (h : Hoist.isHoisted Hoist.defaultNames token = true) : token.asksDeletion = false := by
  unfold Hoist.isHoisted at h
  split at h
  · next name value quoted hbody =>
    obtain ⟨n, hn, hname⟩ := List.any_eq_true.mp (Bool.and_eq_true_iff.mp h).2
    have hfound : Metatag.ofName? name = Metatag.ofName? n := by
      unfold Metatag.ofName?
      rw [beq_iff_eq.mp hname]
    obtain ⟨m, hm, hconcerns⟩ : ∃ m, Metatag.ofName? n = some m
        ∧ m.concernsDeletion value = false := by
      simp only [Hoist.defaultNames, List.mem_cons, List.not_mem_nil, or_false] at hn
      rcases hn with rfl | rfl | rfl
      · exact ⟨_, Metatag.ofName?_name .order, rfl⟩
      · exact ⟨_, Metatag.ofName?_name .limit, rfl⟩
      · exact ⟨_, Metatag.ofName?_name .randSeed, rfl⟩
    rw [← Bool.not_eq_true, Token.asksDeletion_iff hbody]
    rintro ⟨-, m', hm', -, hconcerns'⟩
    rw [hfound, hm] at hm'
    cases hm'
    rw [hconcerns] at hconcerns'
    exact Bool.false_ne_true hconcerns'
  · simp at h

/-! ## The status in the fields -/

/-- The key that a change is made to. -/
def Change.key : Change → FieldKey
  | .push key _ | .set key _ | .setDefault key _ => key

namespace Fields

theorem get?_apply_of_ne (fs : Fields) {change : Change} {key : FieldKey} (h : change.key ≠ key) :
    (fs.apply change).get? key = fs.get? key := by
  cases change with
  | push other value | set other value =>
    have h : key ≠ other := Ne.symm h
    rw [apply, get?_insert, if_neg h]
  | setDefault other value =>
    have h : key ≠ other := Ne.symm h
    rw [apply]
    split
    · rfl
    · rw [get?_insert, if_neg h]

/-- Changes of other keys leave a key as it is. -/
theorem get?_foldl_apply {changes : List Change} {key : FieldKey}
    (h : ∀ change ∈ changes, change.key ≠ key) (fs : Fields) :
    (changes.foldl apply fs).get? key = fs.get? key := by
  induction changes generalizing fs with
  | nil => rfl
  | cons change rest ih =>
    rw [List.forall_mem_cons] at h
    rw [List.foldl_cons, ih h.2, get?_apply_of_ne fs h.1]

/-- The status that is asked for is a recognized one. -/
def StatusRecognized (fs : Fields) : Prop :=
  ∀ value, fs.get? Query.statusKey = some value →
    value.text?.any Lookup.statusValues.contains = true

theorem statusRecognized_congr {fs fs' : Fields}
    (h : fs'.get? Query.statusKey = fs.get? Query.statusKey) (hfs : fs.StatusRecognized) :
    fs'.StatusRecognized := by
  intro value hvalue
  exact hfs value (h ▸ hvalue)

theorem statusRecognized_insert (fs : Fields) {value : Text}
    (h : Lookup.statusValues.contains value = true) :
    (fs.insert Query.statusKey (.single (.text value))).StatusRecognized := by
  intro found hfound
  rw [get?_insert, if_pos rfl] at hfound
  cases hfound
  exact h

theorem StatusRecognized.namesStatus {fs : Fields} (h : fs.StatusRecognized)
    (hset : fs.contains Query.statusKey = true) : Query.namesStatus fs = true := by
  obtain ⟨value, hvalue⟩ := Option.isSome_iff_exists.mp hset
  have hrecognized := h value hvalue
  simp only [Query.namesStatus, hvalue, Option.bind_some, hrecognized, Bool.true_or]

theorem namesStatus_insert (fs : Fields) {value : Text}
    (h : Lookup.statusValues.contains value = true) :
    Query.namesStatus (fs.insert Query.statusKey (.single (.text value))) = true :=
  (fs.statusRecognized_insert h).namesStatus (by simp [contains, get?_insert])

/-- By default any status is asked for, and a status that is already there was recognized. -/
theorem StatusRecognized.setDefault {fs : Fields} (h : fs.StatusRecognized) :
    (fs.apply (.setDefault Query.statusKey (.single (.text "any".toList)))).StatusRecognized
      ∧ Query.namesStatus (fs.apply (.setDefault Query.statusKey (.single (.text "any".toList))))
          = true := by
  rw [apply]
  split
  · next hset => exact ⟨h, h.namesStatus hset⟩
  · exact ⟨fs.statusRecognized_insert (by decide), fs.namesStatus_insert (by decide)⟩

theorem namesStatus_congr {fs fs' : Fields}
    (hkey : fs'.get? Query.statusKey = fs.get? Query.statusKey)
    (hnot : fs'.get? Query.statusNotKey = fs.get? Query.statusNotKey) :
    Query.namesStatus fs' = Query.namesStatus fs := by
  simp only [Query.namesStatus, contains, hkey, hnot]

end Fields

/-- Only the metatag of the status is stored as the status. -/
theorem Metatag.field_eq_status {m : Metatag} (h : m.field = "status") : m = .status := by
  have hall : Metatag.all.all (fun m => decide (m.field = "status" → m = .status)) = true := by
    decide +kernel
  exact of_decide_eq_true (List.all_eq_true.mp hall m m.mem_all) h

theorem Metatag.concernsDeletion_of_presenceField? {m : Metatag} {field : String}
    (h : m.presenceField? = some field) (value : Text) :
    m.concernsDeletion value = false ∧ field ≠ "status" := by
  cases m <;> simp_all [Metatag.presenceField?, Metatag.concernsDeletion] <;>
    (subst h; decide)

namespace Compiler

variable {c : Compiler}

/-- What the changes of an occurrence do to the status. -/
inductive StatusChange (m : Metatag) (clause : Clause) (value : Text) : List Change → Prop where
  /-- The status is left alone. -/
  | other {changes : List Change} (h : m.concernsDeletion value = false)
    (hkeys : ∀ change ∈ changes, change.key.field ≠ "status") : StatusChange m clause value changes
  | status (hm : m = .status) (h : Lookup.statusValues.contains value.lowercase = true) :
    StatusChange m clause value
      [.set ⟨"status", clause⟩ (.single (.text value.lowercase))]
  /-- Asking for a deletion asks for any status. -/
  | implied {rest : List Change} (h : m.concernsDeletion value = true)
    (hkeys : ∀ change ∈ rest, change.key.field ≠ "status") :
    StatusChange m clause value
      (.setDefault Query.statusKey (.single (.text "any".toList)) :: rest)

/-- What an occurrence sets is the field of its metatag. -/
theorem settled_field {m : Metatag} {clause : Clause} {value : Text} {changes : List Change}
    (h : settled m clause value = .ok changes) :
    ∀ change ∈ changes, change.key.field = m.field := by
  cases m with
  | randSeed | commentCount =>
    obtain ⟨_, _, h⟩ := exists_ok_of_bind h
    cases h
    simp [setField, Change.key]
  | status =>
    simp only [settled] at h
    split at h <;> cases h <;> simp [setField, Change.key]
  | _ =>
    cases h
    simp [setField, Change.key]

theorem statusChange_of_gathered {m : Metatag} {clause : Clause} {value : Text}
    (hgathered : c.gathered? m value ≠ none) (v : Value) :
    StatusChange m clause value (implied m ++ [.push ⟨m.field, clause⟩ v]) := by
  have hm : m ≠ .status := by
    rintro rfl
    exact hgathered rfl
  have hkeys : ∀ change ∈ [Change.push ⟨m.field, clause⟩ v], change.key.field ≠ "status" := by
    simpa [Change.key] using mt Metatag.field_eq_status hm
  by_cases hconcerns : m.concernsDeletion value = true
  · have himplied : implied m = [.setDefault Query.statusKey (.single (.text "any".toList))] := by
      have hmem := Metatag.concernsDeletion_mem hconcerns
      simp only [deletionMetatags, List.mem_cons, List.not_mem_nil, or_false] at hmem
      rcases hmem with rfl | rfl | rfl
      · exact absurd rfl hm
      · rfl
      · rfl
    rw [himplied]
    exact .implied hconcerns hkeys
  · have himplied : implied m = [] := by
      unfold implied
      split
      · simp [Metatag.concernsDeletion] at hconcerns
      · simp [Metatag.concernsDeletion] at hconcerns
      · rfl
    rw [himplied]
    exact .other (by simpa using hconcerns) hkeys

theorem statusChange_of_settled {m : Metatag} {clause : Clause} {value : Text}
    {changes : List Change} (hgathered : c.gathered? m value = none)
    (h : settled m clause value = .ok changes) : StatusChange m clause value changes := by
  by_cases hm : m = .status
  · subst hm
    simp only [settled] at h
    split at h
    · next hvalue =>
      cases h
      exact .status rfl hvalue
    · next hvalue =>
      cases h
      exact .other (by simpa [Metatag.concernsDeletion] using hvalue) (by simp)
  · have hconcerns : m.concernsDeletion value = false := by
      unfold Metatag.concernsDeletion
      split
      · exact absurd rfl hm
      · simp [gathered?] at hgathered
      · simp [gathered?] at hgathered
      · rfl
    refine .other hconcerns fun change hchange he => hm (Metatag.field_eq_status ?_)
    rw [← settled_field h change hchange, he]

/-- **An occurrence sets the status if it asks for posts by their deletion**, and else leaves it
alone. -/
theorem statusChange_of_changes {m : Metatag} {clause : Clause} {value : Text}
    {changes : List Change} (h : c.changes m clause value = .ok changes) :
    StatusChange m clause value changes := by
  unfold Compiler.changes at h
  split at h
  · next field presence hfield _ =>
    cases h
    obtain ⟨hconcerns, hne⟩ := m.concernsDeletion_of_presenceField? hfield value
    refine .other hconcerns ?_
    cases clause <;> simpa [presenceChange, Change.key] using hne
  · split at h
    · next result hgathered =>
      obtain ⟨v, -, h⟩ := exists_ok_of_bind h
      cases h
      exact statusChange_of_gathered (c := c) (by simp [hgathered]) v
    · next hgathered => exact statusChange_of_settled hgathered h

/-- The fields after an occurrence name a status if they did before or the occurrence asks for posts
by their deletion. -/
theorem StatusChange.foldl {m : Metatag} {clause : Clause} {value : Text} {changes : List Change}
    (h : StatusChange m clause value changes) (haccepts : m.accepts clause = true) {fs : Fields}
    (hfs : fs.StatusRecognized) :
    (changes.foldl Fields.apply fs).StatusRecognized
      ∧ Query.namesStatus (changes.foldl Fields.apply fs)
          = (Query.namesStatus fs || m.concernsDeletion value) := by
  have hkept : ∀ {changes : List Change} (fs : Fields),
      (∀ change ∈ changes, change.key.field ≠ "status") → ∀ clause,
        (changes.foldl Fields.apply fs).get? ⟨"status", clause⟩ = fs.get? ⟨"status", clause⟩ := by
    intro changes fs hkeys clause
    exact Fields.get?_foldl_apply (fun change hchange he => hkeys change hchange (by rw [he])) fs
  cases h with
  | other h hkeys =>
    rw [h, Bool.or_false]
    exact ⟨Fields.statusRecognized_congr (hkept fs hkeys .must) hfs,
      Fields.namesStatus_congr (hkept fs hkeys .must) (hkept fs hkeys .mustNot)⟩
  | status hm h =>
    subst hm
    rw [Metatag.concernsDeletion, h, Bool.or_true]
    cases clause with
    | must => exact ⟨fs.statusRecognized_insert h, fs.namesStatus_insert h⟩
    | mustNot =>
      refine ⟨Fields.statusRecognized_congr ?_ hfs, ?_⟩
      · simp [Query.statusKey, Fields.apply, Fields.get?_insert]
      · simp [Query.namesStatus, Query.statusNotKey, Fields.apply, Fields.contains,
          Fields.get?_insert]
    | should => cases haccepts
  | implied h hkeys =>
    obtain ⟨hrecognized, hnames⟩ := hfs.setDefault
    rw [List.foldl_cons, h, Bool.or_true]
    refine ⟨Fields.statusRecognized_congr (hkept _ hkeys .must) hrecognized, ?_⟩
    rw [Fields.namesStatus_congr (hkept _ hkeys .must) (hkept _ hkeys .mustNot), hnames]

end Compiler

/-! ## Queries -/

theorem GroupEntry.anyConcernsDeletion_concat (groups : List GroupEntry) (group : GroupEntry) :
    GroupEntry.anyConcernsDeletion (groups ++ [group])
      = (GroupEntry.anyConcernsDeletion groups || group.concernsDeletion) := by
  induction groups with
  | nil => simp [GroupEntry.anyConcernsDeletion]
  | cons first rest ih =>
    rw [List.cons_append, GroupEntry.anyConcernsDeletion, ih, GroupEntry.anyConcernsDeletion,
      Bool.or_assoc]

namespace Query

/-- Besides the groups it is the status in the fields that decides. -/
theorem concernsDeletion_of_groups {q q' : Query} {asks : Bool} (hgroups : q'.groups = q.groups)
    (hfields : namesStatus q'.fields = (namesStatus q.fields || asks)) :
    q'.concernsDeletion = (q.concernsDeletion || asks) := by
  obtain ⟨_, ⟨_, _, _⟩, _, _⟩ := q
  obtain ⟨_, ⟨_, _, _⟩, _, _⟩ := q'
  cases hgroups
  simp only [concernsDeletion] at hfields ⊢
  rw [hfields]
  simp only [Bool.or_comm, Bool.or_left_comm]

theorem concernsDeletion_congr {q q' : Query} (hgroups : q'.groups = q.groups)
    (hfields : q'.fields = q.fields) : q'.concernsDeletion = q.concernsDeletion := by
  have hstatus : namesStatus q'.fields = (namesStatus q.fields || false) := by
    rw [hfields, Bool.or_false]
  rw [concernsDeletion_of_groups hgroups hstatus, Bool.or_false]

theorem concernsDeletion_charge (q : Query) (tags : Nat) :
    (q.charge tags).concernsDeletion = q.concernsDeletion :=
  concernsDeletion_congr rfl rfl

theorem concernsDeletion_pushGroup (q : Query) (clause : Clause) (group : GroupEntry) :
    (q.pushGroup clause group).concernsDeletion
      = (q.concernsDeletion || group.concernsDeletion) := by
  obtain ⟨tags, ⟨must, mustNot, should⟩, fields, count⟩ := q
  cases clause <;>
    simp [pushGroup, Clauses.push, Clauses.set, Clauses.get, concernsDeletion,
      GroupEntry.anyConcernsDeletion_concat, Bool.or_assoc, Bool.or_comm, Bool.or_left_comm]

end Query

namespace Compiler

variable {c : Compiler}

theorem finished_concernsDeletion (level : Level) (q : Query) :
    (c.finished level q).concernsDeletion = q.concernsDeletion := by
  unfold finished
  split
  · exact Query.concernsDeletion_congr rfl rfl
  · rfl

theorem accepts_of_metatag? {token : Token} {m : Metatag} {value : Text}
    (h : metatag? token = some (m, value)) : m.accepts token.clause = true := by
  unfold metatag? at h
  split at h
  · split at h
    · simp at h
    · obtain ⟨found, hfound, h⟩ := Option.map_eq_some_iff.mp h
      cases h
      exact (Option.filter_eq_some_iff.mp hfound).2
  · simp at h

/-- **A tag or a metatag adds to what a query asks for what the token does.** -/
theorem addToken_concernsDeletion {q q' : Query} {token : Token} (hq : q.fields.StatusRecognized)
    (h : c.addToken q token = .ok q') : q'.fields.StatusRecognized
      ∧ q'.concernsDeletion = (q.concernsDeletion || token.asksDeletion) := by
  rcases addToken_cases h with ⟨m, value, changes, hm, hchanges, rfl⟩ | ⟨hm, rfl⟩
  · obtain ⟨hrecognized, hnames⟩ :=
      (statusChange_of_changes hchanges).foldl (accepts_of_metatag? hm) hq
    refine ⟨hrecognized, Query.concernsDeletion_of_groups rfl ?_⟩
    rw [Token.asksDeletion, hm]
    exact hnames
  · refine ⟨hq, ?_⟩
    rw [Token.asksDeletion, hm, Option.any_none, Bool.or_false]
    exact Query.concernsDeletion_congr rfl rfl

end Compiler

end TagSearch
