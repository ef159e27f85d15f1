import TagSearch.Config.Convert
import TagSearch.Proofs.Compiling

/-!
# The budget of tags

A level may count as many tags as the settings allow, less those that are counted elsewhere. The
inside of a group is compiled against what its level has left; if it goes over, what was built of it
becomes part of the level's query, and the level then fails by its own count.

* `compileLevel_overrun`: a count error names the limit and holds a query that is over the budget.
* `compileLevel_whole`: what compiles holds no group that went over.
* `compileLevel_answers`: a search that compiles under some limit compiles to the same query under
  any other limit that its tags fit, and fails by count under all the rest.
-/

namespace TagSearch

mutual

/-- Whether a group below a query went over the limit of tags. -/
def Query.holdsExceeded : Query → Bool
  | ⟨_, ⟨must, mustNot, should⟩, _, _⟩ =>
    GroupEntry.anyExceeded must || GroupEntry.anyExceeded mustNot || GroupEntry.anyExceeded should

/-- Whether a group, or one below it, went over the limit of tags. -/
def GroupEntry.holdsExceeded : GroupEntry → Bool
  | .unparsed _ => false
  | .parsed query => query.holdsExceeded
  | .exceeded _ _ => true

/-- Whether one of some groups, or one below them, went over the limit of tags. -/
def GroupEntry.anyExceeded : List GroupEntry → Bool
  | [] => false
  | group :: rest => group.holdsExceeded || GroupEntry.anyExceeded rest

end

theorem GroupEntry.anyExceeded_concat (groups : List GroupEntry) (group : GroupEntry) :
    GroupEntry.anyExceeded (groups ++ [group])
      = (GroupEntry.anyExceeded groups || group.holdsExceeded) := by
  induction groups with
  | nil => simp [GroupEntry.anyExceeded]
  | cons first rest ih =>
    rw [List.cons_append, GroupEntry.anyExceeded, ih, GroupEntry.anyExceeded, Bool.or_assoc]

namespace Query

@[simp] theorem holdsExceeded_empty : holdsExceeded {} = false := rfl

/-- Only the groups of a query decide whether one of them went over. -/
theorem holdsExceeded_congr {q q' : Query} (h : q.groups = q'.groups) :
    q.holdsExceeded = q'.holdsExceeded := by
  obtain ⟨_, ⟨_, _, _⟩, _, _⟩ := q
  obtain ⟨_, ⟨_, _, _⟩, _, _⟩ := q'
  cases h
  rfl

@[simp] theorem holdsExceeded_charge (q : Query) (tags : Nat) :
    (q.charge tags).holdsExceeded = q.holdsExceeded :=
  holdsExceeded_congr rfl

theorem holdsExceeded_pushGroup (q : Query) (clause : Clause) (group : GroupEntry) :
    (q.pushGroup clause group).holdsExceeded = (q.holdsExceeded || group.holdsExceeded) := by
  obtain ⟨tags, ⟨must, mustNot, should⟩, fields, count⟩ := q
  cases clause <;>
    simp [pushGroup, Clauses.push, Clauses.set, Clauses.get, holdsExceeded,
      GroupEntry.anyExceeded_concat, Bool.or_assoc, Bool.or_comm, Bool.or_left_comm]

end Query

/-- A level with other tags counted elsewhere, that may be asked for what it built. -/
def Level.budgeted (level : Level) (freeTags : Nat) (returnWithData : Bool) : Level :=
  { level with freeTags, returnWithData }

namespace Compiler

variable {c : Compiler}

theorem addToken_groups {q q' : Query} {token : Token} (h : c.addToken q token = .ok q') :
    q'.groups = q.groups := by
  rcases addToken_cases h with ⟨m, value, changes, _, _, rfl⟩ | ⟨_, rfl⟩ <;> rfl

theorem holdsExceeded_finished (level : Level) (q : Query) :
    (c.finished level q).holdsExceeded = q.holdsExceeded := by
  refine Query.holdsExceeded_congr ?_
  unfold finished
  split <;> rfl

/-! ## Going over -/

theorem checkCount_error {level : Level} {q : Query} {e : QueryError}
    (h : c.checkCount level q = .error e) :
    e = .countExceeded c.settings.maxTags (c.attached level q) ∧ c.budget level < q.tagCount := by
  unfold checkCount at h
  split at h
  · simp at h
  · next hover =>
    cases h
    exact ⟨rfl, by omega⟩

theorem Refused.not_count {build? : Option Build} {level : Level} {q : Query} {token : Token}
    {e : QueryError} (h : c.Refused build? level q token e) : e.isCountExceeded = false := by
  cases h with
  | value _ hadd =>
    have hvalue := addToken_error hadd
    cases e <;> first | rfl | exact hvalue.elim
  | inner _ _ _ _ hcount _ => exact hcount
  | tooDeep => rfl

/-- The query that a level attaches to an error is there if the level was asked for it. -/
theorem attached_isSome (level : Level) (q : Query) :
    (c.attached level q).isSome = level.returnWithData := by
  unfold attached
  split <;> simp_all

theorem attached_tagCount {level : Level} {q built : Query}
    (h : c.attached level q = some built) : built.tagCount = q.tagCount := by
  unfold attached at h
  split at h
  · cases h
    exact finished_tagCount level q
  · simp at h

/-- A count error that a level may answer: it names the limit, and the query that comes with it is
over the budget. -/
def IsOverrun (max budget : Nat) (withData : Bool) (e : QueryError) : Prop :=
  ∃ built, e = .countExceeded max built ∧ built.isSome = withData
    ∧ ∀ query ∈ built, budget < query.tagCount

theorem isOverrun_attached {level : Level} {q : Query} (h : c.budget level < q.tagCount) :
    IsOverrun c.settings.maxTags (c.budget level) level.returnWithData
      (.countExceeded c.settings.maxTags (c.attached level q)) := by
  refine ⟨_, rfl, attached_isSome level q, ?_⟩
  intro built hbuilt
  rwa [attached_tagCount hbuilt]

theorem addNext_overrun {build? : Option Build} {level : Level} {q : Query} {token : Token}
    {e : QueryError} (h : c.addNext build? level q token = .error e)
    (hcount : e.isCountExceeded = true) :
    IsOverrun c.settings.maxTags (c.budget level) level.returnWithData e := by
  rw [addNext_eq] at h
  rcases error_of_bind h with h | ⟨added, _, h⟩
  · rw [(refused_of_attempt h).not_count] at hcount
    simp at hcount
  · obtain ⟨rfl, hover⟩ := checkCount_error h
    exact isOverrun_attached hover

/-- **A count error names the limit, and what was built is over the budget.** -/
theorem compileLevel_overrun {level : Level} {text : Text} {e : QueryError}
    (h : c.compileLevel level text = .error e) (hcount : e.isCountExceeded = true) :
    IsOverrun c.settings.maxTags (c.budget level) level.returnWithData e := by
  cases hhoist : Hoist.hoist (c.hoistOptions level) text with
  | error _ =>
    rw [compileLevel_error c hhoist] at h
    cases h
    simp [depthError, QueryError.isCountExceeded] at hcount
  | ok result =>
    obtain ⟨tokens, unwrapped⟩ := result
    rw [compileLevel_ok c hhoist] at h
    obtain ⟨_, _, _, hnext⟩ := error_of_foldlM (error_of_map h)
    have hover := addNext_overrun hnext hcount
    exact hover

/-- A group that went over takes its level over, however the budget was cut. -/
theorem overrun_of_child {max free count inner : Nat} (h : max - (count + free) < inner) :
    max - free < count + inner := by
  omega

/-! ## Nothing is cut in silence -/

/-- A way to compile the inside of groups that never goes over in silence: what it hands on then
has more tags than were left for it. -/
def SaysOverrun (c : Compiler) (build : Build) : Prop :=
  ∀ (free max : Nat) (source : Text) (partly : Option Query),
    build free source = .error (.countExceeded max partly) →
      c.settings.maxTags - free < (partly.getD {}).tagCount

theorem inside_saysOverrun {level : Level} {build : Build} (h : build ∈ c.inside level) :
    c.SaysOverrun build := by
  intro free max source partly herror
  obtain ⟨_, rfl⟩ := c.of_mem_inside h
  obtain ⟨built, he, hsome, hover⟩ := compileLevel_overrun herror rfl
  obtain ⟨query, rfl⟩ := Option.isSome_iff_exists.mp (hsome.trans rfl)
  cases he
  exact hover query rfl

/-- A group over the limit does not get past the check of the count. -/
theorem Added.whole {build? : Option Build} {level : Level} {q q' : Query} {token : Token}
    (hover : ∀ build ∈ build?, c.SaysOverrun build)
    (hwhole : ∀ build ∈ build?, ∀ free source inner,
      build free source = .ok inner → inner.holdsExceeded = false)
    (h : c.Added build? level q token q') (hfits : q'.tagCount ≤ c.budget level)
    (hq : q.holdsExceeded = false) : q'.holdsExceeded = false := by
  cases h with
  | leaf _ hadd => rwa [Query.holdsExceeded_congr (addToken_groups hadd)]
  | counted | cut =>
    rw [Query.holdsExceeded_pushGroup]
    simpa [GroupEntry.holdsExceeded] using hq
  | built _ _ hbuild? hinner =>
    rw [Query.holdsExceeded_pushGroup, GroupEntry.holdsExceeded, hwhole _ hbuild? _ _ _ hinner,
      Query.holdsExceeded_charge, hq]
    rfl
  | overrun _ _ hbuild? hinner =>
    -- what the group counted was more than was left for it, so the level is over too
    exact absurd hfits (Nat.not_le_of_lt (overrun_of_child (hover _ hbuild? _ _ _ _ hinner)))

/-- **What compiles holds no group that went over the limit, at any depth.** -/
theorem compileLevel_whole (level : Level) : ∀ (text : Text) (q : Query),
    c.compileLevel level text = .ok q → q.holdsExceeded = false := by
  induction level using Level.descend with
  | step level ih =>
    intro text q h
    cases hhoist : Hoist.hoist (c.hoistOptions level) text with
    | error _ =>
      rw [compileLevel_error c hhoist] at h
      simp at h
    | ok result =>
      obtain ⟨tokens, unwrapped⟩ := result
      rw [compileLevel_ok c hhoist] at h
      obtain ⟨reached, hfold, h⟩ := exists_ok_of_bind h
      cases h
      rw [holdsExceeded_finished]
      refine invariant_of_foldlM (P := fun q => q.holdsExceeded = false) ?_
        Query.holdsExceeded_empty hfold
      intro q token q' hq hnext
      obtain ⟨hadded, hfits⟩ := added_of_addNext hnext
      refine hadded.whole (fun build hbuild => inside_saysOverrun hbuild) ?_ hfits hq
      intro build hbuild free source inner hinner
      obtain ⟨hroom, rfl⟩ := c.of_mem_inside hbuild
      exact ih unwrapped free hroom source inner hinner

/-! ## Other budgets -/

/-- The same compiler with another limit of tags and another part of it reserved. -/
def withBudget (c : Compiler) (maxTags freeTags : Nat) : Compiler :=
  { c with settings := { c.settings with maxTags, freeTags } }

theorem addToken_withBudget {w : Nat} (hw : c.settings.wildcardLimit = some w) (max free : Nat)
    (q : Query) (token : Token) :
    (c.withBudget max free).addToken q token = c.addToken q token := by
  have hexpand : (c.withBudget max free).expand = c.expand := by
    funext wildcard
    have hlimit : (c.withBudget max free).settings.wildcards = c.settings.wildcards := by
      show c.settings.wildcardLimit.getD _ = c.settings.wildcardLimit.getD _
      rw [hw]
      rfl
    unfold expand
    rw [hlimit]
    rfl
  have htag : ∀ q, (c.withBudget max free).addTag q token.text = c.addTag q token.text := by
    intro q
    unfold addTag plainTags
    rw [hexpand]
  unfold addToken
  simp only [htag]
  rfl

/-- What is answered under a budget, for a search that comes to `q` without one: `q` if its tags
fit, and a count error if they do not. -/
def Answers (max budget : Nat) (withData : Bool) (q : Query) (result : Except QueryError Query) :
    Prop :=
  if q.tagCount ≤ budget then result = .ok q
  else ∃ e, result = .error e ∧ IsOverrun max budget withData e

/-- Two ways to compile the inside of groups, of which the second answers under a budget what the
first comes to. -/
def BuildsAlike (max : Nat) (build build' : Build) : Prop :=
  ∀ (free : Nat) (source : Text) (inner : Query), build free source = .ok inner →
    ∀ free', Answers max (max - free') true inner (build' free' source)

section Rebudget

variable {w : Nat} (hw : c.settings.wildcardLimit = some w) {fullMax fullFree : Nat}
  {build? build'? : Option Build} {level : Level} (max free freeTags : Nat) (withData : Bool)

include hw

/-- A step that succeeds under one budget is made under another one as well: with the same outcome
if that fits, and otherwise with one that is over the budget too. -/
theorem Added.rebudget {q q' : Query} {token : Token} (hnone : build? = none → build'? = none)
    (hover : ∀ build ∈ build?, (c.withBudget fullMax fullFree).SaysOverrun build)
    (halike : ∀ build ∈ build?, ∃ build' ∈ build'?, BuildsAlike max build build')
    (h : (c.withBudget fullMax fullFree).Added build? level q token q')
    (hfits : q'.tagCount ≤ (c.withBudget fullMax fullFree).budget level)
    (hq : q.tagCount ≤ max - freeTags) :
    ∃ other, (c.withBudget max free).Added build'? (level.budgeted freeTags withData) q token other
      ∧ (q'.tagCount ≤ max - freeTags → other = q')
      ∧ (max - freeTags < q'.tagCount → max - freeTags < other.tagCount) := by
  cases h with
  | leaf hleaf hadd =>
    rw [addToken_withBudget hw] at hadd
    exact ⟨q', .leaf hleaf (by rwa [addToken_withBudget hw]), fun _ => rfl, id⟩
  | counted hgroup hmode hscan => exact ⟨_, .counted hgroup hmode hscan, fun _ => rfl, id⟩
  | cut hgroup hmode hbuild? hsilent =>
    exact ⟨_, .cut hgroup hmode (hnone hbuild?) hsilent, fun _ => rfl, id⟩
  | overrun _ _ hbuild? hinner =>
    exact absurd hfits (Nat.not_le_of_lt (overrun_of_child (hover _ hbuild? _ _ _ _ hinner)))
  | @built source build inner hgroup hmode hbuild? hinner =>
    obtain ⟨build', hbuild'?, hanswers⟩ := halike build hbuild?
    have hanswer := hanswers _ source inner hinner (q.tagCount + freeTags)
    unfold Answers at hanswer
    split at hanswer
    · exact ⟨_, .built hgroup hmode hbuild'? hanswer, fun _ => rfl, id⟩
    · next hinnerOver =>
      -- the group goes over under the other budget, and what it hands on is over by itself
      obtain ⟨e, herror, partly, rfl, hsome, hpartly⟩ := hanswer
      obtain ⟨query, rfl⟩ := Option.isSome_iff_exists.mp hsome
      have hquery : max - (q.tagCount + freeTags) < query.tagCount := hpartly query rfl
      refine ⟨_, .overrun hgroup hmode hbuild'? herror, fun hq' => ?_, fun _ => ?_⟩
      · have hcount : q.tagCount + inner.tagCount ≤ max - freeTags := hq'
        omega
      · show max - freeTags < q.tagCount + query.tagCount
        omega

/-- **Adding tokens one by one answers under a budget what it comes to without one.** -/
theorem foldlM_answers {tokens : List Token} {q q' : Query} (hnone : build? = none → build'? = none)
    (hover : ∀ build ∈ build?, (c.withBudget fullMax fullFree).SaysOverrun build)
    (halike : ∀ build ∈ build?, ∃ build' ∈ build'?, BuildsAlike max build build')
    (hq : q.tagCount ≤ max - freeTags)
    (h : tokens.foldlM ((c.withBudget fullMax fullFree).addNext build? level) q = .ok q') :
    Answers max (max - freeTags) withData q'
      (tokens.foldlM
        ((c.withBudget max free).addNext build'? (level.budgeted freeTags withData)) q) := by
  induction tokens generalizing q with
  | nil =>
    cases h
    rw [Answers, if_pos hq]
    rfl
  | cons token rest ih =>
    rw [List.foldlM_cons] at h ⊢
    obtain ⟨next, hnext, h⟩ := exists_ok_of_bind h
    obtain ⟨hadded, hfits⟩ := added_of_addNext hnext
    -- the same step under the other budget: alike if it fits, and over as well if it does not
    obtain ⟨other, hother, hsame, hboth⟩ :=
      hadded.rebudget hw max free freeTags withData hnone hover halike hfits hq
    rw [addNext_eq, attempt_of_added hother]
    by_cases hroom : next.tagCount ≤ max - freeTags
    · have hcheck : (c.withBudget max free).checkCount (level.budgeted freeTags withData) next
          = .ok next := if_pos hroom
      rw [hsame hroom]
      show Answers _ _ _ _ ((c.withBudget max free).checkCount _ next >>= _)
      rw [hcheck]
      exact ih hroom h
    · -- the count is over here already, and it never falls
      have hgrows : next.tagCount ≤ q'.tagCount :=
        invariant_of_foldlM (P := fun q => next.tagCount ≤ q.tagCount)
          (fun hle hstep => Nat.le_trans hle (added_of_addNext hstep).1.tagCount_le)
          (Nat.le_refl _) h
      have hotherOver : max - freeTags < other.tagCount := hboth (by omega)
      have hcheck : (c.withBudget max free).checkCount (level.budgeted freeTags withData) other
          = .error (.countExceeded max
              ((c.withBudget max free).attached (level.budgeted freeTags withData) other)) :=
        if_neg (Nat.not_le_of_lt hotherOver)
      rw [Answers, if_neg (by omega)]
      have hbudget : (c.withBudget max free).budget (level.budgeted freeTags withData)
          < other.tagCount := hotherOver
      refine ⟨_, ?_, isOverrun_attached hbudget⟩
      show ((c.withBudget max free).checkCount _ other >>= _) = _
      rw [hcheck]
      rfl

end Rebudget

theorem Answers.finished {max budget : Nat} {withData : Bool} {q : Query}
    {result : Except QueryError Query} (h : Answers max budget withData q result) (level : Level) :
    Answers max budget withData (c.finished level q) (c.finished level <$> result) := by
  unfold Answers at h ⊢
  rw [finished_tagCount]
  split at h
  · next hfits =>
    rw [if_pos hfits, h]
    rfl
  · next hover =>
    obtain ⟨e, rfl, he⟩ := h
    rw [if_neg hover]
    exact ⟨e, rfl, he⟩

/-- Whether a level looks into its groups does not depend on the budget. -/
theorem inside_none_rebudget {fullMax fullFree : Nat} {level : Level} (max free : Nat)
    {freeTags : Nat} {withData : Bool} (h : (c.withBudget fullMax fullFree).inside level = none) :
    (c.withBudget max free).inside (level.budgeted freeTags withData) = none := by
  unfold inside at h ⊢
  split at h
  · next hdeep => exact if_pos hdeep
  · simp at h

theorem inside_alike {fullMax fullFree max free : Nat} {level : Level} {freeTags : Nat}
    {withData : Bool} {build : Build}
    (ih : ∀ free', level.exceeds = false → ∀ (text : Text) (q : Query),
      (c.withBudget fullMax fullFree).compileLevel (level.child free') text = .ok q →
      ∀ (freeTags : Nat) (withData : Bool), Answers max (max - freeTags) withData q
        ((c.withBudget max free).compileLevel
          ((level.child free').budgeted freeTags withData) text))
    (h : build ∈ (c.withBudget fullMax fullFree).inside level) :
    ∃ build' ∈ (c.withBudget max free).inside (level.budgeted freeTags withData),
      BuildsAlike max build build' := by
  obtain ⟨hroom, rfl⟩ := of_mem_inside _ h
  have hroom' : (level.budgeted freeTags withData).exceeds = false := hroom
  refine ⟨_, if_neg (by simp [hroom']), ?_⟩
  intro inner source q hq free'
  exact ih inner hroom source q hq free' true

/-- **Under any budget a level answers what it comes to without one.** -/
theorem compileLevel_answers {w : Nat} (hw : c.settings.wildcardLimit = some w)
    {fullMax fullFree : Nat} (max free : Nat) (level : Level) : ∀ (text : Text) (q : Query),
    (c.withBudget fullMax fullFree).compileLevel level text = .ok q →
    ∀ (freeTags : Nat) (withData : Bool), Answers max (max - freeTags) withData q
      ((c.withBudget max free).compileLevel (level.budgeted freeTags withData) text) := by
  induction level using Level.descend with
  | step level ih =>
    intro text q h freeTags withData
    cases hhoist : Hoist.hoist ((c.withBudget fullMax fullFree).hoistOptions level) text with
    | error _ =>
      rw [compileLevel_error _ hhoist] at h
      simp at h
    | ok result =>
      obtain ⟨tokens, unwrapped⟩ := result
      rw [compileLevel_ok _ hhoist] at h
      obtain ⟨reached, hfold, h⟩ := exists_ok_of_bind h
      cases h
      have hhoist' : Hoist.hoist
          ((c.withBudget max free).hoistOptions (level.budgeted freeTags withData)) text
            = .ok (tokens, unwrapped) := hhoist
      rw [compileLevel_ok _ hhoist']
      exact (foldlM_answers hw max free freeTags withData (inside_none_rebudget max free)
        (fun build hbuild => inside_saysOverrun hbuild)
        (fun build hbuild => inside_alike (ih unwrapped) hbuild) (Nat.zero_le _) hfold).finished _

/-- **The budget of tags is exact, and nothing is cut in silence.** A search that compiles to `q`
with all the tags there can be compiles to `q` under every limit that leaves room for the tags of
`q`, and fails by count under all the others, with what was built being over the limit as well. What
compiles holds no group that went over. -/
theorem compile_budget_exact (c : Compiler) (text : Text) :
    (∀ w q, c.settings.wildcardLimit = some w →
      (c.withBudget Config.maxNat64 0).compile text = .ok q →
      ∀ max free, if q.tagCount ≤ max - free then (c.withBudget max free).compile text = .ok q
        else ∃ built, (c.withBudget max free).compile text = .error (.countExceeded max built)
          ∧ built.isSome = c.settings.returnWithData
          ∧ ∀ part ∈ built, max - free < part.tagCount)
      ∧ ∀ q, c.compile text = .ok q → q.holdsExceeded = false := by
  refine ⟨?_, fun q h => compileLevel_whole _ text q h⟩
  intro w q hw h max free
  have hanswer := compileLevel_answers hw max free _ text q h free c.settings.returnWithData
  unfold Answers at hanswer
  split at hanswer
  · next hfits =>
    rw [if_pos hfits]
    exact hanswer
  · next hover =>
    obtain ⟨_, herror, built, rfl, hbuilt⟩ := hanswer
    rw [if_neg hover]
    exact ⟨built, herror, hbuilt⟩

/-- A compiler of groups that says how many tags a wildcard stands for. -/
def groupCompiler : Compiler where
  settings := { processGroups := true, returnWithData := true, wildcardLimit := some 3 }
  now := ⟨0⟩

/-- With two tags reserved, a search of three tags fits a limit of five and not one of four. -/
theorem compile_budget_exact_threeTags :
    ∃ q : Query, q.tagCount = 3
      ∧ (groupCompiler.withBudget 5 2).compile "aaa ( bbb ~ccc )".toList = .ok q
      ∧ ∃ built, (groupCompiler.withBudget 4 2).compile "aaa ( bbb ~ccc )".toList
          = .error (.countExceeded 4 built)
        ∧ built.isSome = true ∧ ∀ part ∈ built, 2 < part.tagCount := by
  have hcount : ((groupCompiler.withBudget Config.maxNat64 0).compile
      "aaa ( bbb ~ccc )".toList).toOption.map Query.tagCount = some 3 := by decide +kernel
  cases hfull : (groupCompiler.withBudget Config.maxNat64 0).compile "aaa ( bbb ~ccc )".toList with
  | error e =>
    rw [hfull] at hcount
    cases hcount
  | ok q =>
    rw [hfull] at hcount
    have hthree : q.tagCount = 3 := Option.some.inj hcount
    have hexact := (compile_budget_exact groupCompiler "aaa ( bbb ~ccc )".toList).1 3 q rfl hfull
    have hfits := hexact 5 2
    have hover := hexact 4 2
    rw [hthree, if_pos (by decide)] at hfits
    rw [hthree, if_neg (by decide)] at hover
    exact ⟨q, hthree, hfits, hover⟩

end Compiler

end TagSearch
