import TagSearch.Proofs.Hoisting
import TagSearch.Query.Compile

/-!
# What compiling can do

One token of a level is added in one of five ways, listed in `Added`. Everything that a level keeps
along its tokens is derived from this list, and everything that compiling keeps along the nesting of
groups from `compileLevel_ok`, which says how a level uses the levels below it.
-/

namespace TagSearch

/-- What holds of a level if it holds inside its groups holds of all levels. -/
theorem Level.descend {P : Level → Prop}
    (step : ∀ level : Level, (∀ unwrapped free, (level.deeper unwrapped).exceeds = false →
      P ((level.deeper unwrapped).child free)) → P level) (level : Level) : P level := by
  induction hn : level.remaining using Nat.strongRecOn generalizing level with
  | ind n ih =>
    refine step level fun unwrapped free hroom => ?_
    have hlt : ((level.deeper unwrapped).child free).remaining < level.remaining :=
      remaining_child_deeper_lt (by simp [hroom])
    exact ih _ (by omega) _ rfl

namespace Compiler

variable (c : Compiler)

/-! ## Levels -/

/-- How the inside of a group of a level is compiled, if the group is not nested too deep. -/
def inside (level : Level) : Option Build :=
  if level.exceeds then none
  else some fun free source => c.compileLevel (level.child free) source

theorem of_mem_inside {level : Level} {build : Build} (h : build ∈ c.inside level) :
    level.exceeds = false
      ∧ build = fun free source => c.compileLevel (level.child free) source := by
  unfold inside at h
  split at h
  · simp at h
  · next hroom =>
    cases h
    exact ⟨by simpa using hroom, rfl⟩

theorem compileLevel_error {level : Level} {text : Text} {e : DepthExceeded}
    (h : Hoist.hoist (c.hoistOptions level) text = .error e) :
    c.compileLevel level text = .error (c.depthError level {}) := by
  rw [compileLevel, h]

/-- **A level is hoisted, and then its tokens are added one by one.** -/
theorem compileLevel_ok {level : Level} {text : Text} {tokens : List Token} {unwrapped : Nat}
    (h : Hoist.hoist (c.hoistOptions level) text = .ok (tokens, unwrapped)) :
    c.compileLevel level text
      = c.finished (level.deeper unwrapped)
          <$> tokens.foldlM (c.addNext (c.inside (level.deeper unwrapped))
                (level.deeper unwrapped)) {} := by
  have hinside : (if _h : (level.deeper unwrapped).exceeds = true then none
      else some fun free source => c.compileLevel ((level.deeper unwrapped).child free) source)
        = c.inside (level.deeper unwrapped) := by
    unfold inside
    split <;> rfl
  rw [compileLevel, h]
  dsimp only
  rw [hinside]
  rfl

/-- A level that compiles was hoisted, and all its tokens were added. -/
theorem exists_of_compileLevel {level : Level} {text : Text} {q : Query}
    (h : c.compileLevel level text = .ok q) :
    ∃ tokens unwrapped reached, Hoist.hoist (c.hoistOptions level) text = .ok (tokens, unwrapped)
      ∧ tokens.foldlM (c.addNext (c.inside (level.deeper unwrapped)) (level.deeper unwrapped)) {}
          = .ok reached
      ∧ q = c.finished (level.deeper unwrapped) reached := by
  cases hhoist : Hoist.hoist (c.hoistOptions level) text with
  | error e =>
    rw [compileLevel_error c hhoist] at h
    simp at h
  | ok result =>
    obtain ⟨tokens, unwrapped⟩ := result
    rw [compileLevel_ok c hhoist] at h
    obtain ⟨reached, hfold, h⟩ := exists_ok_of_bind h
    cases h
    exact ⟨tokens, unwrapped, reached, rfl, hfold, rfl⟩

/-! ## Tokens -/

/-- Adds a token of a level without checking the count. -/
def attempt (build? : Option Build) (level : Level) (q : Query) (token : Token) :
    Except QueryError Query :=
  match token.group? with
  | some source => c.addGroup build? level q token source
  | none => c.addToken q token

theorem addNext_eq (build? : Option Build) (level : Level) (q : Query) (token : Token) :
    c.addNext build? level q token
      = (do let added ← c.attempt build? level q token; c.checkCount level added) := by
  unfold addNext attempt
  cases token.group? <;> rfl

/-- The ways in which a token is added to the query of a level. -/
inductive Added (build? : Option Build) (level : Level) (q : Query) (token : Token) :
    Query → Prop
  /-- A tag or a metatag. -/
  | leaf {q' : Query} (hleaf : token.group? = none) (hadd : c.addToken q token = .ok q') :
    Added build? level q token q'
  /-- A group that is only counted. -/
  | counted {source : Text} {items : List Scan.Item} (hgroup : token.group? = some source)
    (hmode : c.settings.processGroups = false)
    (hscan : Scan.scan (c.countOptions level) id token.text = .ok items) :
    Added build? level q token
      ((q.charge items.length).pushGroup token.clause (.unparsed source))
  /-- A group that was compiled. -/
  | built {source : Text} {build : Build} {inner : Query} (hgroup : token.group? = some source)
    (hmode : c.settings.processGroups = true) (hbuild? : build? = some build)
    (hbuild : build (q.tagCount + level.freeTags) source = .ok inner) :
    Added build? level q token
      ((q.charge inner.tagCount).pushGroup token.clause (.parsed inner))
  /-- A group that went over the limit of tags. -/
  | overrun {source : Text} {build : Build} {max : Nat} {partly : Option Query}
    (hgroup : token.group? = some source) (hmode : c.settings.processGroups = true)
    (hbuild? : build? = some build)
    (hbuild : build (q.tagCount + level.freeTags) source = .error (.countExceeded max partly)) :
    Added build? level q token
      ((q.charge (partly.getD {}).tagCount).pushGroup token.clause
        (.exceeded max (partly.getD {})))
  /-- A group past the limit of levels, dropped without a word. -/
  | cut {source : Text} (hgroup : token.group? = some source)
    (hmode : c.settings.processGroups = true) (hbuild? : build? = none)
    (hsilent : level.failOnDepth = false) :
    Added build? level q token (q.pushGroup token.clause (.parsed {}))

variable {c}

/-- **A token is added in one of these ways.** -/
theorem added_of_attempt {build? : Option Build} {level : Level} {q q' : Query} {token : Token}
    (h : c.attempt build? level q token = .ok q') : c.Added build? level q token q' := by
  unfold attempt at h
  split at h
  · next source hgroup =>
    unfold addGroup at h
    split at h
    · next hmode =>
      unfold countGroup at h
      split at h
      · next items hscan =>
        cases h
        exact .counted hgroup (by simpa using hmode) hscan
      · simp at h
    · next hmode =>
      have hmode : c.settings.processGroups = true := by simpa using hmode
      split at h
      · next build =>
        unfold buildGroup at h
        split at h
        · next inner hbuild =>
          cases h
          exact .built hgroup hmode rfl hbuild
        · next max partly hbuild =>
          cases h
          exact .overrun hgroup hmode rfl hbuild
        · simp at h
        · simp at h
      · split at h
        · simp at h
        · next hsilent =>
          cases h
          exact .cut hgroup hmode rfl (by simpa using hsilent)
  · next hleaf => exact .leaf hleaf h

theorem attempt_of_added {build? : Option Build} {level : Level} {q q' : Query} {token : Token}
    (h : c.Added build? level q token q') : c.attempt build? level q token = .ok q' := by
  unfold attempt
  cases h with
  | leaf hleaf hadd => simp only [hleaf, hadd]
  | counted hgroup hmode hscan =>
    simp only [hgroup, addGroup, hmode, countGroup, hscan, Bool.not_false, if_true]
  | built hgroup hmode hbuild? hbuild | overrun hgroup hmode hbuild? hbuild =>
    simp only [hgroup, addGroup, hmode, hbuild?, buildGroup, hbuild, Bool.not_true,
      Bool.false_eq_true, if_false]
  | cut hgroup hmode hbuild? hsilent =>
    simp only [hgroup, addGroup, hmode, hbuild?, hsilent, Bool.not_true, Bool.false_eq_true,
      if_false]

theorem checkCount_ok {level : Level} {q q' : Query} (h : c.checkCount level q = .ok q') :
    q' = q ∧ q.tagCount ≤ c.budget level := by
  unfold checkCount at h
  split at h
  · next hfits =>
    cases h
    exact ⟨rfl, hfits⟩
  · simp at h

/-- A token that is added and passes the check of the count. -/
theorem added_of_addNext {build? : Option Build} {level : Level} {q q' : Query} {token : Token}
    (h : c.addNext build? level q token = .ok q') :
    c.Added build? level q token q' ∧ q'.tagCount ≤ c.budget level := by
  rw [addNext_eq] at h
  obtain ⟨added, hadd, hcheck⟩ := exists_ok_of_bind h
  obtain ⟨rfl, hfits⟩ := checkCount_ok hcheck
  exact ⟨added_of_attempt hadd, hfits⟩

/-! ## Counts -/

/-- A token that is not a group is counted unless it is free; then it changes the fields, as the
metatag that it is an occurrence of, or adds tags. -/
theorem addToken_cases {q q' : Query} {token : Token} (h : c.addToken q token = .ok q') :
    (∃ m value changes, metatag? token = some (m, value)
        ∧ c.changes m token.clause value = .ok changes
        ∧ q' = (q.charge (if c.isUnlimited token.text then 0 else 1)).change changes)
      ∨ metatag? token = none
        ∧ q' = c.addTag (q.charge (if c.isUnlimited token.text then 0 else 1)) token.text := by
  have hcharge : (if c.isUnlimited token.text = true then q else q.charge 1)
      = q.charge (if c.isUnlimited token.text then 0 else 1) := by
    cases q
    cases c.isUnlimited token.text <;> rfl
  unfold addToken at h
  dsimp only at h
  rw [hcharge] at h
  split at h
  · next m value hm =>
    obtain ⟨changes, hchanges, h⟩ := exists_ok_of_bind h
    cases h
    exact Or.inl ⟨m, value, changes, hm, hchanges, rfl⟩
  · next hm =>
    cases h
    exact Or.inr ⟨hm, rfl⟩

theorem addToken_tagCount {q q' : Query} {token : Token} (h : c.addToken q token = .ok q') :
    q'.tagCount = q.tagCount + if c.isUnlimited token.text then 0 else 1 := by
  rcases addToken_cases h with ⟨m, value, changes, _, _, rfl⟩ | ⟨_, rfl⟩ <;> rfl

/-- Adding a token takes nothing off the count. -/
theorem Added.tagCount_le {build? : Option Build} {level : Level} {q q' : Query} {token : Token}
    (h : c.Added build? level q token q') : q.tagCount ≤ q'.tagCount := by
  cases h with
  | leaf _ hadd =>
    rw [addToken_tagCount hadd]
    exact Nat.le_add_right _ _
  | counted | built | overrun => exact Nat.le_add_right _ _
  | cut => exact Nat.le_refl _

@[simp] theorem finished_tagCount (level : Level) (q : Query) :
    (c.finished level q).tagCount = q.tagCount := by
  unfold finished
  split <;> rfl

/-! ## Errors -/

/-- Errors about the value of a metatag: neither too many tags nor groups nested too deep. -/
def IsValueError : QueryError → Prop
  | .invalidValue _ _ _ => True
  | .denied _ => True
  | _ => False

theorem coerced_error {α : Type} {m : Metatag} {value : Text} {result : Except Reason α}
    {e : QueryError} (h : coerced m value result = .error e) : IsValueError e := by
  unfold coerced at h
  split at h
  · simp at h
  · cases h
    trivial

theorem setId_error {value : Text} {e : QueryError} (h : c.setId value = .error e) :
    IsValueError e := by
  unfold setId at h
  split at h
  · simp at h
  · cases h
    trivial
  · simp at h

theorem favoritesId_error {value : Text} {e : QueryError} (h : c.favoritesId value = .error e) :
    IsValueError e := by
  unfold favoritesId at h
  split at h
  · simp at h
  · split at h
    · cases h
      trivial
    · simp at h

theorem gathered?_error {m : Metatag} {value : Text} {e : QueryError}
    (h : c.gathered? m value = some (.error e)) : IsValueError e := by
  unfold gathered? at h
  split at h
  all_goals simp only [Option.some.injEq, reduceCtorEq] at h
  all_goals first
    | exact coerced_error (error_of_map h)
    | exact setId_error (error_of_map h)
    | exact favoritesId_error (error_of_map h)

theorem settled_error {m : Metatag} {clause : Clause} {value : Text} {e : QueryError}
    (h : settled m clause value = .error e) : IsValueError e := by
  cases m with
  | randSeed | commentCount =>
    rcases error_of_bind h with h | ⟨_, _, h⟩
    · exact coerced_error h
    · simp [pure, Except.pure] at h
  | status =>
    simp only [settled] at h
    split at h <;> simp at h
  | _ => simp [settled] at h

theorem changes_error {m : Metatag} {clause : Clause} {value : Text} {e : QueryError}
    (h : c.changes m clause value = .error e) : IsValueError e := by
  unfold changes at h
  split at h
  · simp at h
  · split at h
    · next result hgathered =>
      rcases error_of_bind h with h | ⟨_, _, h⟩
      · rw [h] at hgathered
        exact gathered?_error hgathered
      · simp [pure, Except.pure] at h
    · exact settled_error h

theorem addToken_error {q : Query} {token : Token} {e : QueryError}
    (h : c.addToken q token = .error e) : IsValueError e := by
  unfold addToken at h
  dsimp only at h
  generalize (if c.isUnlimited token.text = true then q else q.charge 1) = charged at h
  split at h
  · rcases error_of_bind h with h | ⟨_, _, h⟩
    · exact changes_error h
    · simp [pure, Except.pure] at h
  · simp at h

/-- The ways in which the group that a token is can be nested too deep. -/
inductive TooDeep (c : Compiler) (build? : Option Build) (level : Level) (q : Query)
    (token : Token) : Prop
  /-- A group nested too deep for the scan that counts it. -/
  | counted {source : Text} {e : DepthExceeded} (hgroup : token.group? = some source)
    (hmode : c.settings.processGroups = false)
    (hscan : Scan.scan (c.countOptions level) id token.text = .error e) :
    TooDeep c build? level q token
  /-- A group that holds another one nested too deep. -/
  | deep {source : Text} {build : Build} {limit : Nat} {partly : Option Query}
    (hgroup : token.group? = some source) (hmode : c.settings.processGroups = true)
    (hbuild? : build? = some build)
    (hbuild : build (q.tagCount + level.freeTags) source = .error (.depthExceeded limit partly)) :
    TooDeep c build? level q token
  /-- A group past the limit of levels. -/
  | cut {source : Text} (hgroup : token.group? = some source)
    (hmode : c.settings.processGroups = true) (hbuild? : build? = none)
    (hloud : level.failOnDepth = true) :
    TooDeep c build? level q token

theorem TooDeep.isGroup {build? : Option Build} {level : Level} {q : Query} {token : Token}
    (h : c.TooDeep build? level q token) : ∃ source, token.group? = some source := by
  cases h with
  | counted hgroup | deep hgroup | cut hgroup => exact ⟨_, hgroup⟩

/-- The ways in which adding a token fails: its value is refused, a group is nested too deep, or a
group that is compiled fails for a reason of its own. -/
inductive Refused (c : Compiler) (build? : Option Build) (level : Level) (q : Query)
    (token : Token) : QueryError → Prop
  | value {e : QueryError} (hleaf : token.group? = none) (hadd : c.addToken q token = .error e) :
    Refused c build? level q token e
  | tooDeep (h : c.TooDeep build? level q token) :
    Refused c build? level q token (c.depthError level q)
  | inner {source : Text} {build : Build} {e : QueryError} (hgroup : token.group? = some source)
    (hmode : c.settings.processGroups = true) (hbuild? : build? = some build)
    (hbuild : build (q.tagCount + level.freeTags) source = .error e)
    (hcount : e.isCountExceeded = false) (hdepth : e.isDepthExceeded = false) :
    Refused c build? level q token e

/-- **A token is refused in one of these ways.** -/
theorem refused_of_attempt {build? : Option Build} {level : Level} {q : Query} {token : Token}
    {e : QueryError} (h : c.attempt build? level q token = .error e) :
    c.Refused build? level q token e := by
  unfold attempt at h
  split at h
  · next source hgroup =>
    unfold addGroup at h
    split at h
    · next hmode =>
      unfold countGroup at h
      split at h
      · simp at h
      · next hscan =>
        cases h
        exact .tooDeep (.counted hgroup (by simpa using hmode) hscan)
    · next hmode =>
      have hmode : c.settings.processGroups = true := by simpa using hmode
      split at h
      · next build =>
        unfold buildGroup at h
        split at h
        · simp at h
        · simp at h
        · next hbuild =>
          cases h
          exact .tooDeep (.deep hgroup hmode rfl hbuild)
        · next e' hcount hdepth hbuild =>
          cases h
          refine .inner hgroup hmode rfl hbuild ?_ ?_
          · cases e with
            | countExceeded max built => exact absurd rfl (hcount max built)
            | _ => rfl
          · cases e with
            | depthExceeded limit built => exact absurd rfl (hdepth limit built)
            | _ => rfl
      · split at h
        · next hloud =>
          cases h
          exact .tooDeep (.cut hgroup hmode rfl hloud)
        · simp at h
  · next hleaf => exact .value hleaf h

end Compiler

end TagSearch
