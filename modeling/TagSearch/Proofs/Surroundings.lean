import TagSearch.Proofs.Strictness
import TagSearch.Proofs.Subqueries

/-!
# What a group owes to its surroundings

The inside of a group is compiled after some levels and some tags were used up around it. If groups
past the limit are errors, this is all that the surroundings can do: a group that compiles where it
stands compiles to the same query on its own.

* `compileLevel_roomier`: with more levels and more tags left, what compiled compiles to the same
  query.
* `compileLevel_composed`: so the groups of a query are those of the hoisted tokens, one for one, and
  each of them is what its text compiles to.
-/

namespace TagSearch

/-! ## More levels and more tags to compile with -/

/-- One level is under another: it has used up as many levels and tags or more, and is otherwise
compiled alike. -/
structure Level.Under (inner outer : Level) : Prop where
  depth : outer.depth ≤ inner.depth
  freeTags : outer.freeTags ≤ inner.freeTags
  depthLimit : inner.depthLimit = outer.depthLimit
  resolveAliases : inner.resolveAliases = outer.resolveAliases
  failOnDepth : inner.failOnDepth = outer.failOnDepth

namespace Level.Under

variable {inner outer : Level}

theorem refl (level : Level) : level.Under level :=
  ⟨Nat.le_refl _, Nat.le_refl _, rfl, rfl, rfl⟩

theorem deeper (h : inner.Under outer) (groups : Nat) :
    (inner.deeper groups).Under (outer.deeper groups) :=
  { h with depth := Nat.add_le_add_right h.depth groups }

theorem child (h : inner.Under outer) {free free' : Nat} (hfree : free' ≤ free) :
    (inner.child free).Under (outer.child free') :=
  { h with depth := Nat.succ_le_succ h.depth, freeTags := hfree }

/-- The inside of a group is under all that its level is under. -/
theorem inside (h : inner.Under outer) (unwrapped tags : Nat) :
    ((inner.deeper unwrapped).child (tags + inner.freeTags)).Under outer where
  depth := by
    have := h.depth
    simp only [Level.child, Level.deeper]
    omega
  freeTags := Nat.le_trans h.freeTags (Nat.le_add_left _ _)
  depthLimit := h.depthLimit
  resolveAliases := h.resolveAliases
  failOnDepth := h.failOnDepth

theorem remaining_le (h : inner.Under outer) : inner.remaining ≤ outer.remaining := by
  have := h.depth
  simp only [Level.remaining, h.depthLimit]
  omega

theorem not_exceeds (h : inner.Under outer) (hroom : inner.exceeds = false) :
    outer.exceeds = false := by
  have := h.depth
  simp only [Level.exceeds, h.depthLimit, decide_eq_false_iff_not] at hroom ⊢
  omega

end Level.Under

namespace Compiler

variable {c : Compiler}

theorem finished_under {inner outer : Level} (h : inner.Under outer) (q : Query) :
    c.finished outer q = c.finished inner q := by
  unfold finished
  rw [h.resolveAliases]

theorem budget_under {inner outer : Level} (h : inner.Under outer) :
    c.budget inner ≤ c.budget outer :=
  Nat.sub_le_sub_left h.freeTags _

theorem hoist_under {inner outer : Level} (h : inner.Under outer)
    (hstrict : inner.failOnDepth = true) {text : Text} {result : List Token × Nat}
    (hhoist : Hoist.hoist (c.hoistOptions inner) text = .ok result) :
    Hoist.hoist (c.hoistOptions outer) text = .ok result := by
  have hlimit : (c.hoistOptions inner).limit ≤ (c.hoistOptions outer).limit := by
    have := h.remaining_le
    simp only [Hoist.Options.limit, hoistOptions]
    omega
  exact (@hoist_sameUnless (c.hoistOptions inner) (c.hoistOptions outer) hstrict rfl hlimit
    text).ok_of_ok hhoist

/-- What a level adds under the limit of tags, if groups are compiled and none is cut: a tag, a
metatag, or a group that was compiled. -/
theorem Added.leaf_or_built {level : Level} {q q' : Query} {token : Token}
    (hgroups : c.settings.processGroups = true) (hstrict : level.failOnDepth = true)
    (h : c.Added (c.inside level) level q token q') (hfits : q'.tagCount ≤ c.budget level) :
    token.group? = none ∧ c.addToken q token = .ok q'
      ∨ ∃ source inner, token.group? = some source ∧ level.exceeds = false
          ∧ c.compileLevel (level.child (q.tagCount + level.freeTags)) source = .ok inner
          ∧ q' = (q.charge inner.tagCount).pushGroup token.clause (.parsed inner) := by
  cases h with
  | leaf hleaf hadd => exact Or.inl ⟨hleaf, hadd⟩
  | counted _ hmode => simp [hgroups] at hmode
  | built hgroup _ hbuild? hbuild =>
    obtain ⟨hroom, rfl⟩ := c.of_mem_inside hbuild?
    exact Or.inr ⟨_, _, hgroup, hroom, hbuild, rfl⟩
  | overrun _ _ hbuild? hbuild =>
    -- a group over the limit of tags takes its level over
    have hover := overrun_of_child (inside_saysOverrun hbuild? _ _ _ _ hbuild)
    exact absurd hfits (Nat.not_le_of_lt hover)
  | cut _ _ _ hsilent => simp [hstrict] at hsilent

theorem addNext_of_added {build? : Option Build} {level : Level} {q q' : Query} {token : Token}
    (h : c.Added build? level q token q') (hfits : q'.tagCount ≤ c.budget level) :
    c.addNext build? level q token = .ok q' := by
  rw [addNext_eq, attempt_of_added h]
  exact if_pos hfits

/-- What a token adds at a level, it adds at a level above. -/
theorem addNext_under {inner outer : Level} (hgroups : c.settings.processGroups = true)
    (h : inner.Under outer) (hstrict : inner.failOnDepth = true)
    (hbuild : ∀ free free', inner.exceeds = false → free' ≤ free → ∀ source q,
      c.compileLevel (inner.child free) source = .ok q →
      c.compileLevel (outer.child free') source = .ok q)
    {q q' : Query} {token : Token} (hnext : c.addNext (c.inside inner) inner q token = .ok q') :
    c.addNext (c.inside outer) outer q token = .ok q' := by
  obtain ⟨hadded, hfits⟩ := added_of_addNext hnext
  refine addNext_of_added ?_ (Nat.le_trans hfits (budget_under h))
  rcases hadded.leaf_or_built hgroups hstrict hfits with
    ⟨hleaf, hadd⟩ | ⟨source, query, hgroup, hroom, hquery, rfl⟩
  · exact .leaf hleaf hadd
  · refine .built hgroup hgroups (if_neg (by simp [h.not_exceeds hroom])) ?_
    exact hbuild _ _ hroom (Nat.add_le_add_left h.freeTags _) _ _ hquery

/-- **With more levels and more tags left, what compiles compiles to the same query.** -/
theorem compileLevel_roomier (hgroups : c.settings.processGroups = true) (inner : Level) :
    inner.failOnDepth = true → ∀ outer, inner.Under outer → ∀ text q,
      c.compileLevel inner text = .ok q → c.compileLevel outer text = .ok q := by
  induction inner using Level.descend with
  | step inner ih =>
    intro hstrict outer hunder text q h
    obtain ⟨tokens, unwrapped, reached, hhoist, hfold, rfl⟩ := exists_of_compileLevel c h
    have hdeeper := hunder.deeper unwrapped
    rw [compileLevel_ok c (hoist_under hunder hstrict hhoist),
      foldlM_ok_of_steps (addNext_under hgroups hdeeper hstrict ?_) hfold, ← finished_under hdeeper]
    · rfl
    · intro free free' hroom hfree source q
      exact ih unwrapped free hroom hstrict _ (hdeeper.child hfree) source q

/-! ## Groups and the tokens they come from -/

/-- The group tokens of a clause. -/
def groupTokens (clause : Clause) (tokens : List Token) : List Token :=
  tokens.filter fun token => token.isGroup && token.clause == clause

theorem groupTokens_cons_leaf {token : Token} (h : token.group? = none) (clause : Clause)
    (rest : List Token) : groupTokens clause (token :: rest) = groupTokens clause rest :=
  List.filter_cons_of_neg (by simp [Token.isGroup, h])

theorem groupTokens_cons_same {token : Token} {source : Text} (h : token.group? = some source)
    (rest : List Token) :
    groupTokens token.clause (token :: rest) = token :: groupTokens token.clause rest :=
  List.filter_cons_of_pos (by simp [Token.isGroup, h])

theorem groupTokens_cons_other {token : Token} {clause : Clause} (h : clause ≠ token.clause)
    (rest : List Token) : groupTokens clause (token :: rest) = groupTokens clause rest :=
  List.filter_cons_of_neg (by simp [Ne.symm h])

mutual

/-- A query is composed of what the groups of a search compile to on their own: clause by clause and
in order, its groups are those of the hoisted tokens of the search. -/
inductive Composed (c : Compiler) : Text → Query → Prop
  | intro {search : Text} {q : Query} {tokens : List Token} {unwrapped : Nat}
    (hhoist : Hoist.hoist (c.hoistOptions (Level.root c.settings)) search
      = .ok (tokens, unwrapped))
    (hgroups : ∀ clause, ComposedGroups c (q.groups.get clause) (groupTokens clause tokens)) :
    Composed c search q

/-- Groups that are, one for one, what the group tokens compile to on their own, and composed
themselves. -/
inductive ComposedGroups (c : Compiler) : List GroupEntry → List Token → Prop
  | nil : ComposedGroups c [] []
  | cons {token : Token} {source : Text} {inner : Query} {entries : List GroupEntry}
    {tokens : List Token} (hgroup : token.group? = some source)
    (hcompile : c.compile source = .ok inner) (hinner : Composed c source inner)
    (hrest : ComposedGroups c entries tokens) :
    ComposedGroups c (.parsed inner :: entries) (token :: tokens)

end

/-- What is added after some groups, clause by clause, comes from the group tokens. -/
theorem foldlM_composed {level : Level} (hgroups : c.settings.processGroups = true)
    (hstrict : level.failOnDepth = true)
    (hinside : ∀ tags, level.exceeds = false → ∀ source inner,
      c.compileLevel (level.child (tags + level.freeTags)) source = .ok inner →
      c.compile source = .ok inner ∧ c.Composed source inner)
    {tokens : List Token} {q q' : Query}
    (h : tokens.foldlM (c.addNext (c.inside level) level) q = .ok q') (clause : Clause) :
    ∃ entries, q'.groups.get clause = q.groups.get clause ++ entries
      ∧ c.ComposedGroups entries (groupTokens clause tokens) := by
  induction tokens generalizing q with
  | nil =>
    cases h
    exact ⟨[], (List.append_nil _).symm, .nil⟩
  | cons token rest ih =>
    rw [List.foldlM_cons] at h
    obtain ⟨next, hnext, h⟩ := exists_ok_of_bind h
    obtain ⟨entries, hget, hcomposed⟩ := ih h
    obtain ⟨hadded, hfits⟩ := added_of_addNext hnext
    rcases hadded.leaf_or_built hgroups hstrict hfits with
      ⟨hleaf, hadd⟩ | ⟨source, inner, hgroup, hroom, hinner, rfl⟩
    · rw [groupTokens_cons_leaf hleaf]
      rw [addToken_groups hadd] at hget
      exact ⟨entries, hget, hcomposed⟩
    · by_cases hclause : clause = token.clause
      · subst hclause
        rw [groupTokens_cons_same hgroup]
        obtain ⟨hcompile, hinner⟩ := hinside q.tagCount hroom source inner hinner
        refine ⟨.parsed inner :: entries, ?_, .cons hgroup hcompile hinner hcomposed⟩
        rw [hget, Query.pushGroup, Clauses.push, Clauses.get_set_same, List.append_assoc]
        rfl
      · rw [groupTokens_cons_other hclause]
        refine ⟨entries, ?_, hcomposed⟩
        rw [hget, Query.pushGroup, Clauses.push, Clauses.get_set_other _ _ hclause]
        rfl

/-- **A query is composed of its groups, at whatever level it was compiled.** -/
theorem compileLevel_composed (hgroups : c.settings.processGroups = true)
    (hstrict : c.settings.failOnDepth = true) (level : Level) :
    level.Under (Level.root c.settings) → ∀ search q, c.compileLevel level search = .ok q →
      c.Composed search q := by
  induction level using Level.descend with
  | step level ih =>
    intro hunder search q h
    have hlevel : level.failOnDepth = true := hunder.failOnDepth.trans hstrict
    obtain ⟨tokens, unwrapped, reached, hhoist, hfold, rfl⟩ := exists_of_compileLevel c h
    refine .intro (hoist_under hunder hlevel hhoist) fun clause => ?_
    have hinside : ∀ tags, (level.deeper unwrapped).exceeds = false → ∀ source inner,
        c.compileLevel ((level.deeper unwrapped).child (tags + (level.deeper unwrapped).freeTags))
          source = .ok inner →
        c.compile source = .ok inner ∧ c.Composed source inner := by
      intro tags hroom source inner hinner
      have hchild := hunder.inside unwrapped tags
      exact ⟨compileLevel_roomier hgroups _ (hchild.failOnDepth.trans hstrict) _ hchild _ _ hinner,
        ih unwrapped _ hroom hchild source inner hinner⟩
    have hdeeper : (level.deeper unwrapped).failOnDepth = true := hlevel
    obtain ⟨entries, hget, hcomposed⟩ := foldlM_composed hgroups hdeeper hinside hfold clause
    rw [finished_groups, hget]
    cases clause <;> exact hcomposed

/-- **Compiling groups is compositional.** If groups are compiled and those past the limit are
errors, the groups of a query that a search compiles to are, clause by clause, in order and at every
depth, what the group tokens of the hoisted search compile to on their own; and whatever levels and
tags were used up around a text, it compiles to what it compiles to on its own, or fails. -/
theorem compile_compositional (c : Compiler) (hgroups : c.settings.processGroups = true)
    (hstrict : c.settings.failOnDepth = true) :
    (∀ search q, c.compile search = .ok q → c.Composed search q)
      ∧ ∀ level, level.Under (Level.root c.settings) → ∀ text q,
          c.compileLevel level text = .ok q → c.compile text = .ok q := by
  constructor
  · intro search q h
    exact compileLevel_composed hgroups hstrict _ (.refl _) search q h
  · intro level hunder text q h
    exact compileLevel_roomier hgroups level (hunder.failOnDepth.trans hstrict) _ hunder text q h

/-- Compiles groups, and fails on those past the limit. -/
def loudCompiler : Compiler where
  settings := { processGroups := true, failOnDepth := true, depthLimit := 3 }
  now := ⟨0⟩

/-- A search with a group in a group. -/
theorem compile_compositional_nested :
    ∃ q, loudCompiler.compile "a ( b -( order:x c ) ) ~( d )".toList = .ok q
      ∧ q.groups.size = 2 ∧ loudCompiler.Composed "a ( b -( order:x c ) ) ~( d )".toList q := by
  have hsize : ((loudCompiler.compile "a ( b -( order:x c ) ) ~( d )".toList).toOption.map
      fun q => q.groups.size) = some 2 := by
    decide +kernel
  cases hbuilt : loudCompiler.compile "a ( b -( order:x c ) ) ~( d )".toList with
  | error e =>
    rw [hbuilt] at hsize
    cases hsize
  | ok q =>
    rw [hbuilt] at hsize
    exact ⟨q, rfl, Option.some.inj hsize,
      (compile_compositional loudCompiler rfl rfl).1 _ q hbuilt⟩

end Compiler

end TagSearch
