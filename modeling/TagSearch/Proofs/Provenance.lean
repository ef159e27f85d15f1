import TagSearch.Proofs.Surroundings

/-!
# Where the parts of a query come from

A query is made of the tokens of its level, and a level may stop before its last token: the group
that it stands for is past the limit of levels, or what was built up to an error is handed on.
`Yields` says which tokens of a level a query was made of, and `Sublevel` at which place of a search
a query inside another one stands.

Main statement: `Yields.within`. Every query inside a query that is handed on was made of the tokens
of its own level, and of all of them if the search compiled.
-/

namespace TagSearch.Compiler

variable {c : Compiler} {level : Level}

/-! ## Tokens that are taken in -/

/-- The query that a level has reached after some of its tokens. -/
inductive Reaches (c : Compiler) (level : Level) : List Token → Query → Prop
  | nil : Reaches c level [] {}
  | snoc {before : List Token} {q q' : Query} {token : Token} (hbefore : Reaches c level before q)
    (hadded : c.Added (c.inside level) level q token q') : Reaches c level (before ++ [token]) q'

theorem Reaches.foldlM {before tokens : List Token} {q q' : Query} (h : c.Reaches level before q)
    (hrun : tokens.foldlM (c.addNext (c.inside level) level) q = .ok q') :
    c.Reaches level (before ++ tokens) q' := by
  induction tokens generalizing before q with
  | nil =>
    cases hrun
    simpa using h
  | cons token rest ih =>
    rw [List.foldlM_cons] at hrun
    obtain ⟨next, hnext, hrun⟩ := exists_ok_of_bind hrun
    simpa using ih (.snoc h (added_of_addNext hnext).1) hrun

theorem fits_of_foldlM {tokens : List Token} {q : Query}
    (h : tokens.foldlM (c.addNext (c.inside level) level) {} = .ok q) :
    q.tagCount ≤ c.budget level :=
  invariant_of_foldlM (P := fun q => q.tagCount ≤ c.budget level)
    (fun _ hnext => (added_of_addNext hnext).2) (Nat.zero_le _) h

/-- The query that the text of a level yields, with the tokens that it was made of: all of them, or
those up to where the level went over a limit. -/
inductive Yields (c : Compiler) (level : Level) (text : Text) :
    (whole : Bool) → List Token → Query → Prop
  | all {tokens : List Token} {unwrapped : Nat} {q : Query}
    (hhoist : Hoist.hoist (c.hoistOptions level) text = .ok (tokens, unwrapped))
    (hreached : c.Reaches (level.deeper unwrapped) tokens q)
    (hfits : q.tagCount ≤ c.budget (level.deeper unwrapped)) :
    Yields c level text true tokens (c.finished (level.deeper unwrapped) q)
  /-- The token that goes over the limit of tags is the last one. -/
  | overrun {before rest : List Token} {token : Token} {unwrapped : Nat} {q q' : Query}
    (hhoist : Hoist.hoist (c.hoistOptions level) text = .ok (before ++ token :: rest, unwrapped))
    (hreached : c.Reaches (level.deeper unwrapped) before q)
    (hfits : q.tagCount ≤ c.budget (level.deeper unwrapped))
    (hadded : c.Added (c.inside (level.deeper unwrapped)) (level.deeper unwrapped) q token q')
    (hover : c.budget (level.deeper unwrapped) < q'.tagCount) :
    Yields c level text false (before ++ [token]) (c.finished (level.deeper unwrapped) q')
  /-- A group that is nested too deep is left out, with all that follows. -/
  | deep {before rest : List Token} {token : Token} {unwrapped : Nat} {q : Query}
    (hhoist : Hoist.hoist (c.hoistOptions level) text = .ok (before ++ token :: rest, unwrapped))
    (hreached : c.Reaches (level.deeper unwrapped) before q)
    (hfits : q.tagCount ≤ c.budget (level.deeper unwrapped))
    (hdeep : c.TooDeep (c.inside (level.deeper unwrapped)) (level.deeper unwrapped) q token) :
    Yields c level text false before (c.finished (level.deeper unwrapped) q)
  /-- Nothing is made of a text that cannot be hoisted. -/
  | unhoisted {e : DepthExceeded} (hhoist : Hoist.hoist (c.hoistOptions level) text = .error e) :
    Yields c level text false [] (c.finished level {})
  /-- The inside of a group past the limit of levels is not read. -/
  | unread (hpast : level.depthLimit + 1 < level.depth) : Yields c level text true [] {}

theorem finished_empty (level : Level) : c.finished level {} = {} := by
  unfold finished
  split <;> rfl

/-- **A level that compiles is made of all its tokens.** -/
theorem yields_of_compileLevel {text : Text} {q : Query} (h : c.compileLevel level text = .ok q) :
    ∃ tokens, c.Yields level text true tokens q := by
  obtain ⟨tokens, unwrapped, reached, hhoist, hfold, rfl⟩ := exists_of_compileLevel c h
  have hreached : c.Reaches (level.deeper unwrapped) tokens reached := by
    simpa using Reaches.nil.foldlM hfold
  exact ⟨tokens, .all hhoist hreached (fits_of_foldlM hfold)⟩

theorem eq_of_attached {q built : Query} (h : c.attached level q = some built) :
    built = c.finished level q := by
  unfold attached at h
  split at h
  · exact (Option.some.inj h).symm
  · simp at h

/-- **What comes with an error of a level is made of the tokens up to the error.** -/
theorem yields_of_error {text : Text} {e : QueryError} {q : Query}
    (h : c.compileLevel level text = .error e) (hbuilt : e.built? = some q) :
    ∃ taken, c.Yields level text false taken q := by
  cases hhoist : Hoist.hoist (c.hoistOptions level) text with
  | error _ =>
    rw [compileLevel_error c hhoist] at h
    cases h
    rw [eq_of_attached hbuilt]
    exact ⟨[], .unhoisted hhoist⟩
  | ok result =>
    obtain ⟨tokens, unwrapped⟩ := result
    rw [compileLevel_ok c hhoist] at h
    obtain ⟨before, token, rest, reached, rfl, hfold, hnext⟩ :=
      exists_of_foldlM_error (error_of_map h)
    have hreached : c.Reaches (level.deeper unwrapped) before reached := by
      simpa using Reaches.nil.foldlM hfold
    have hfits := fits_of_foldlM hfold
    rw [addNext_eq] at hnext
    rcases error_of_bind hnext with hnext | ⟨added, hadd, hnext⟩
    · cases refused_of_attempt hnext with
      | value _ hadd => simp [(addToken_error hadd).built?] at hbuilt
      | inner _ _ _ _ hcount hdepth => simp [built?_eq_none hcount hdepth] at hbuilt
      | tooDeep hdeep =>
        rw [eq_of_attached hbuilt]
        exact ⟨before, .deep hhoist hreached hfits hdeep⟩
    · obtain ⟨rfl, hover⟩ := checkCount_error hnext
      rw [eq_of_attached hbuilt]
      exact ⟨before ++ [token], .overrun hhoist hreached hfits (added_of_attempt hadd) hover⟩

/-- Whatever a level yields, it is the query that the first tokens of the level reached, finished. -/
theorem Yields.exists_hoisted {text : Text} {whole : Bool} {taken : List Token} {q : Query}
    (h : c.Yields level text whole taken q) :
    ∃ unwrapped reached, c.Reaches (level.deeper unwrapped) taken reached
      ∧ q = c.finished (level.deeper unwrapped) reached
      ∧ (taken = [] ∨ ∃ rest,
        Hoist.hoist (c.hoistOptions level) text = .ok (taken ++ rest, unwrapped)) := by
  cases h with
  | all hhoist hreached => exact ⟨_, _, hreached, rfl, Or.inr ⟨[], by simpa using hhoist⟩⟩
  | @overrun before rest token unwrapped q q' hhoist hreached _ hadded =>
    exact ⟨_, _, .snoc hreached hadded, rfl, Or.inr ⟨rest, by simpa using hhoist⟩⟩
  | deep hhoist hreached => exact ⟨_, _, hreached, rfl, Or.inr ⟨_, hhoist⟩⟩
  | unhoisted => exact ⟨0, {}, .nil, rfl, Or.inl rfl⟩
  | unread => exact ⟨0, {}, .nil, (finished_empty _).symm, Or.inl rfl⟩

theorem Yields.exists_reached {text : Text} {whole : Bool} {taken : List Token} {q : Query}
    (h : c.Yields level text whole taken q) :
    ∃ unwrapped reached, c.Reaches (level.deeper unwrapped) taken reached
      ∧ q = c.finished (level.deeper unwrapped) reached := by
  obtain ⟨unwrapped, reached, hreached, hq, -⟩ := h.exists_hoisted
  exact ⟨unwrapped, reached, hreached, hq⟩

/-! ## Groups -/

/-- What a token adds to the groups: nothing, or one group of its clause, whose query was yielded by
the inside of the token. -/
theorem Added.groups {q q' : Query} {token : Token}
    (h : c.Added (c.inside level) level q token q') :
    token.group? = none ∧ q'.groups = q.groups
      ∨ ∃ source entry, token.group? = some source ∧ q'.groups = q.groups.push token.clause entry
          ∧ ∀ between ∈ entry.query?, ∃ whole taken,
            c.Yields (level.child (q.tagCount + level.freeTags)) source whole taken between
              ∧ (q'.tagCount ≤ c.budget level → whole = true) := by
  cases h with
  | leaf hleaf hadd => exact Or.inl ⟨hleaf, addToken_groups hadd⟩
  | counted hgroup => exact Or.inr ⟨_, _, hgroup, rfl, by simp [GroupEntry.query?]⟩
  | built hgroup _ hbuild? hbuild =>
    refine Or.inr ⟨_, _, hgroup, rfl, fun between hbetween => ?_⟩
    cases hbetween
    obtain ⟨_, rfl⟩ := c.of_mem_inside hbuild?
    obtain ⟨tokens, hyields⟩ := yields_of_compileLevel hbuild
    exact ⟨true, tokens, hyields, fun _ => rfl⟩
  | @overrun source _ max partly hgroup _ hbuild? hbuild =>
    refine Or.inr ⟨_, _, hgroup, rfl, fun between hbetween => ?_⟩
    cases hbetween
    have hover := overrun_of_child (inside_saysOverrun hbuild? _ _ _ _ hbuild)
    obtain ⟨_, rfl⟩ := c.of_mem_inside hbuild?
    -- the inside of a group always hands on what it built
    obtain ⟨_, he, hsome, -⟩ := compileLevel_overrun hbuild rfl
    obtain ⟨built, rfl⟩ : ∃ built, partly = some built := by
      cases he
      exact Option.isSome_iff_exists.mp hsome
    obtain ⟨taken, hyields⟩ := yields_of_error hbuild rfl
    exact ⟨false, taken, hyields, fun hfits => absurd hfits (Nat.not_le_of_lt hover)⟩
  | cut hgroup _ hbuild? =>
    refine Or.inr ⟨_, _, hgroup, rfl, fun between hbetween => ?_⟩
    cases hbetween
    have hexceeds : level.exceeds = true := by
      unfold inside at hbuild?
      split at hbuild?
      · assumption
      · simp at hbuild?
    refine ⟨true, [], .unread ?_, fun _ => rfl⟩
    simp only [Level.exceeds, decide_eq_true_eq] at hexceeds
    simp only [Level.child]
    omega

theorem groupTokens_concat_group {token : Token} {source : Text} (h : token.group? = some source)
    (before : List Token) :
    groupTokens token.clause (before ++ [token]) = groupTokens token.clause before ++ [token] := by
  rw [groupTokens, List.filter_append, ← groupTokens]
  congr 1
  exact groupTokens_cons_same h []

theorem groupTokens_concat_other {token : Token} {clause : Clause}
    (h : token.group? = none ∨ clause ≠ token.clause) (before : List Token) :
    groupTokens clause (before ++ [token]) = groupTokens clause before := by
  have htoken : groupTokens clause [token] = [] := by
    rcases h with h | h
    · exact groupTokens_cons_leaf h clause []
    · exact groupTokens_cons_other h []
  rw [groupTokens, List.filter_append, ← groupTokens, ← groupTokens, htoken, List.append_nil]

/-- A group token adds one group to its clause, and no other token does. -/
theorem Reaches.groups_length {tokens : List Token} {q : Query} (h : c.Reaches level tokens q)
    (clause : Clause) : (q.groups.get clause).length = (groupTokens clause tokens).length := by
  induction h with
  | nil => cases clause <;> rfl
  | @snoc before q q' token _ hadded ih =>
    rcases hadded.groups with ⟨hleaf, hgroups⟩ | ⟨source, entry, hgroup, hgroups, -⟩
    · rw [hgroups, groupTokens_concat_other (Or.inl hleaf), ih]
    · rw [hgroups]
      by_cases hclause : clause = token.clause
      · subst hclause
        rw [groupTokens_concat_group hgroup, Clauses.push, Clauses.get_set_same,
          List.length_append, List.length_append, ih]
        rfl
      · rw [groupTokens_concat_other (Or.inr hclause), Clauses.push,
          Clauses.get_set_other _ _ hclause, ih]

/-- A query stems from the group token at a place of a clause: the inside of the token yielded it,
given the tags that were counted before. -/
inductive Stems (c : Compiler) (level : Level) (clause : Clause) (index : Nat) (whole : Bool)
    (inner : Query) : List Token → Prop
  | intro {before rest taken : List Token} {token : Token} {source : Text} {reached : Query}
    (hgroup : token.group? = some source) (hclause : token.clause = clause)
    (hindex : (groupTokens clause before).length = index)
    (hreached : c.Reaches level before reached)
    (hyields : c.Yields (level.child (reached.tagCount + level.freeTags)) source whole taken inner) :
    Stems c level clause index whole inner (before ++ token :: rest)

theorem Stems.append {clause : Clause} {index : Nat} {whole : Bool} {inner : Query}
    {tokens : List Token} (h : c.Stems level clause index whole inner tokens)
    (more : List Token) : c.Stems level clause index whole inner (tokens ++ more) := by
  obtain ⟨hgroup, hclause, hindex, hreached, hyields⟩ := h
  rw [List.append_assoc, List.cons_append]
  exact ⟨hgroup, hclause, hindex, hreached, hyields⟩

/-- **The groups of a clause stem from its group tokens, one for one.** -/
theorem Reaches.stems {tokens : List Token} {q : Query} (h : c.Reaches level tokens q)
    {clause : Clause} {index : Nat} {entry : GroupEntry} {inner : Query}
    (hentry : (q.groups.get clause)[index]? = some entry) (hquery : entry.query? = some inner) :
    ∃ whole, c.Stems level clause index whole inner tokens
      ∧ (q.tagCount ≤ c.budget level → whole = true) := by
  induction h with
  | nil => cases clause <;> simp [Clauses.get] at hentry
  | @snoc before q q' token hbefore hadded ih =>
    have hold : (q.groups.get clause)[index]? = some entry →
        ∃ whole, c.Stems level clause index whole inner (before ++ [token])
          ∧ (q'.tagCount ≤ c.budget level → whole = true) := by
      intro hentry
      obtain ⟨whole, hstems, hwhole⟩ := ih hentry
      exact ⟨whole, hstems.append [token],
        fun hfits => hwhole (Nat.le_trans hadded.tagCount_le hfits)⟩
    rcases hadded.groups with ⟨_, hgroups⟩ | ⟨source, added, hgroup, hgroups, hinside⟩
    · exact hold (hgroups ▸ hentry)
    · rw [hgroups] at hentry
      by_cases hclause : clause = token.clause
      · subst hclause
        rw [Clauses.push, Clauses.get_set_same, List.getElem?_append] at hentry
        split at hentry
        · exact hold hentry
        · next hindex =>
          -- the place after the groups that were there is that of the token
          obtain ⟨hlast, hadded⟩ : index = (q.groups.get token.clause).length ∧ added = entry := by
            rw [List.getElem?_singleton] at hentry
            split at hentry
            · exact ⟨by omega, Option.some.inj hentry⟩
            · simp at hentry
          subst hadded
          obtain ⟨whole, taken, hyields, hwhole⟩ := hinside inner hquery
          refine ⟨whole, .intro hgroup rfl ?_ hbefore hyields, hwhole⟩
          rw [hlast, hbefore.groups_length]
      · rw [Clauses.push, Clauses.get_set_other _ _ hclause] at hentry
        exact hold hentry

/-- The groups of what a level yields stem from the tokens of the level. -/
theorem Yields.stems {text : Text} {whole : Bool} {taken : List Token} {q : Query}
    (h : c.Yields level text whole taken q) {clause : Clause} {index : Nat} {entry : GroupEntry}
    {inner : Query} (hentry : (q.groups.get clause)[index]? = some entry)
    (hquery : entry.query? = some inner) :
    ∃ tokens unwrapped within,
      Hoist.hoist (c.hoistOptions level) text = .ok (tokens, unwrapped)
        ∧ c.Stems (level.deeper unwrapped) clause index within inner tokens
        ∧ (whole = true → within = true) := by
  have hnone : ∀ {level : Level}, ((c.finished level {}).groups.get clause)[index]? = none := by
    intro level
    rw [finished_empty]
    cases clause <;> rfl
  cases h with
  | all hhoist hreached hfits =>
    rw [finished_groups] at hentry
    obtain ⟨within, hstems, hwhole⟩ := hreached.stems hentry hquery
    exact ⟨_, _, within, hhoist, hstems, fun _ => hwhole hfits⟩
  | @overrun before rest token _ _ _ hhoist hreached _ hadded =>
    rw [finished_groups] at hentry
    obtain ⟨within, hstems, -⟩ := (Reaches.snoc hreached hadded).stems hentry hquery
    exact ⟨_, _, within, hhoist, by simpa using hstems.append rest, by simp⟩
  | deep hhoist hreached =>
    rw [finished_groups] at hentry
    obtain ⟨within, hstems, -⟩ := hreached.stems hentry hquery
    exact ⟨_, _, within, hhoist, hstems.append _, by simp⟩
  | unhoisted =>
    rw [hnone] at hentry
    simp at hentry
  | unread =>
    rw [← finished_empty (c := c) level, hnone] at hentry
    simp at hentry

/-! ## Queries inside queries -/

/-- Where a query inside another one stands: the level and the text that it was made of, from those
of the outer one on. -/
inductive Sublevel (c : Compiler) : Level → Text → Query → Level → Text → Query → Prop
  | self {level : Level} {text : Text} {q : Query} : Sublevel c level text q level text q
  /-- The groups of a clause stand for its group tokens, in order. The inside of a group has the tags
  left that were not counted before it. -/
  | group {level level' : Level} {text text' source : Text} {q between inner reached : Query}
    {before rest : List Token} {token : Token} {unwrapped : Nat} {entry : GroupEntry}
    (hhoist : Hoist.hoist (c.hoistOptions level) text = .ok (before ++ token :: rest, unwrapped))
    (hgroup : token.group? = some source)
    (hreached : c.Reaches (level.deeper unwrapped) before reached)
    (hentry : (q.groups.get token.clause)[(groupTokens token.clause before).length]? = some entry)
    (hquery : entry.query? = some between)
    (hbelow : Sublevel c ((level.deeper unwrapped).child (reached.tagCount + level.freeTags)) source
      between level' text' inner) : Sublevel c level text q level' text' inner

/-- **Every query inside a query was made of the tokens of its own level,** and of all of them if the
outer one was. -/
theorem Yields.within {text : Text} {whole : Bool} {taken : List Token} {q inner : Query}
    (h : c.Yields level text whole taken q) (hwithin : inner.Within q) :
    ∃ level' text' whole' taken', c.Sublevel level text q level' text' inner
      ∧ c.Yields level' text' whole' taken' inner ∧ (whole = true → whole' = true) := by
  induction hwithin generalizing level text whole taken with
  | self => exact ⟨level, text, whole, taken, .self, h, id⟩
  | group hentry hquery _ ih =>
    obtain ⟨index, hindex⟩ := List.mem_iff_getElem?.mp hentry
    obtain ⟨tokens, unwrapped, middle, hhoist, hstems, hmiddle⟩ := h.stems hindex hquery
    obtain ⟨hgroup, rfl, rfl, hreached, hyields⟩ := hstems
    obtain ⟨level', text', whole', taken', hbelow, hinner, hwhole⟩ := ih hyields
    exact ⟨level', text', whole', taken', .group hhoist hgroup hreached hindex hquery hbelow, hinner,
      fun h => hwhole (hmiddle h)⟩

/-- Aliases are resolved at every level or at none. -/
theorem Sublevel.resolveAliases {level' : Level} {text text' : Text} {q inner : Query}
    (h : c.Sublevel level text q level' text' inner) :
    level'.resolveAliases = level.resolveAliases := by
  induction h with
  | self => rfl
  | group _ _ _ _ _ _ ih => exact ih

/-- A query that a search hands out is yielded by its text, and by all of it if the search
compiles. -/
theorem yields_of_returns {search : Text} {q : Query} (h : c.Returns search q) :
    ∃ whole taken, c.Yields (Level.root c.settings) search whole taken q
      ∧ (c.compile search = .ok q → whole = true) := by
  rcases h with hok | ⟨e, herror, hbuilt⟩
  · obtain ⟨tokens, hyields⟩ := yields_of_compileLevel hok
    exact ⟨true, tokens, hyields, fun _ => rfl⟩
  · obtain ⟨taken, hyields⟩ := yields_of_error herror hbuilt
    refine ⟨false, taken, hyields, fun hok => ?_⟩
    rw [herror] at hok
    simp at hok

end TagSearch.Compiler
