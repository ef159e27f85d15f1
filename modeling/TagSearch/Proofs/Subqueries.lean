import TagSearch.Proofs.Budget

/-!
# Queries inside queries

A compiled group is a query inside another one, and a query also leaves the compiler with an error,
as what was built up to there. `Query.Within` reaches all queries below one, `Handed` all queries
that a result hands on.

`compileLevel_handed` is the induction over levels, made once: what the tokens of a level keep and
finishing a level turns into the wanted property holds of every query that is handed on, at any
depth.
-/

namespace TagSearch

/-- The queries that a query is made of: itself, and those that were built for groups below it. -/
inductive Query.Within (inner : Query) : Query → Prop
  | self : Query.Within inner inner
  | group {outer between : Query} {clause : Clause} {entry : GroupEntry}
    (hentry : entry ∈ outer.groups.get clause) (hquery : entry.query? = some between)
    (hwithin : Query.Within inner between) : Query.Within inner outer

/-- What holds of a query and of all queries below it. -/
def Query.Everywhere (P : Query → Prop) (q : Query) : Prop :=
  ∀ inner, inner.Within q → P inner

/-- What holds of all queries below a query. -/
def Query.Below (P : Query → Prop) (q : Query) : Prop :=
  ∀ clause, ∀ entry ∈ q.groups.get clause, ∀ inner ∈ entry.query?, inner.Everywhere P

namespace Query

variable {P : Query → Prop} {q : Query}

theorem everywhere_iff : q.Everywhere P ↔ P q ∧ q.Below P := by
  constructor
  · intro h
    refine ⟨h q .self, ?_⟩
    intro clause entry hentry between hbetween inner hinner
    exact h inner (.group hentry hbetween hinner)
  · rintro ⟨hself, hbelow⟩ inner hwithin
    cases hwithin with
    | self => exact hself
    | group hentry hquery hinner => exact hbelow _ _ hentry _ hquery inner hinner

theorem below_congr {q' : Query} (hgroups : q'.groups = q.groups) (h : q.Below P) :
    q'.Below P := by
  intro clause entry hentry
  rw [hgroups] at hentry
  exact h clause entry hentry

theorem below_empty : Below P {} := by
  intro clause entry hentry
  cases clause <;> cases hentry

/-- A group adds the queries that it holds. -/
theorem Below.pushGroup (h : q.Below P) {entry : GroupEntry}
    (hentry : ∀ inner ∈ entry.query?, inner.Everywhere P) (clause : Clause) :
    (q.pushGroup clause entry).Below P := by
  intro other found hfound
  by_cases hother : other = clause
  · subst hother
    rw [Query.pushGroup, Clauses.push, Clauses.get_set_same, List.mem_append,
      List.mem_singleton] at hfound
    rcases hfound with hfound | rfl
    · exact h other found hfound
    · exact hentry
  · rw [Query.pushGroup, Clauses.push, Clauses.get_set_other _ _ hother] at hfound
    exact h other found hfound

end Query

namespace Compiler

/-- What holds of every query that a result hands on, with success or with an error. -/
def Handed (P : Query → Prop) : Except QueryError Query → Prop
  | .ok q => P q
  | .error e => ∀ q ∈ e.built?, P q

/-- Only errors of count and depth come with a query. -/
theorem built?_eq_none {e : QueryError} (hcount : e.isCountExceeded = false)
    (hdepth : e.isDepthExceeded = false) : e.built? = none := by
  cases e with
  | countExceeded => cases hcount
  | depthExceeded => cases hdepth
  | _ => rfl

theorem IsValueError.built? {e : QueryError} (h : IsValueError e) : e.built? = none := by
  cases e with
  | invalidValue | denied => rfl
  | _ => exact h.elim

/-- What holds of the query of a level while its tokens are added, and of the query that the level
hands on in the end. -/
structure Keeps (c : Compiler) (growing done : Query → Prop) : Prop where
  empty : growing {}
  token : ∀ {q q' : Query} {token : Token}, growing q → c.addToken q token = .ok q' → growing q'
  group : ∀ {q : Query} (tags : Nat) (clause : Clause) (entry : GroupEntry), growing q →
    growing ((q.charge tags).pushGroup clause entry)
  finished : ∀ {q : Query} (level : Level), growing q → done (c.finished level q)
  /-- A group past the limit of levels counts as an empty query. -/
  nothing : done {}

variable {c : Compiler} {growing done : Query → Prop}

@[simp] theorem finished_groups (level : Level) (q : Query) :
    (c.finished level q).groups = q.groups := by
  unfold finished
  split <;> rfl

section Keeps

variable (h : c.Keeps growing done)

include h

theorem Keeps.everywhere_finished {q : Query} (level : Level) (hq : growing q)
    (hbelow : q.Below done) : (c.finished level q).Everywhere done :=
  Query.everywhere_iff.mpr
    ⟨h.finished level hq, Query.below_congr (finished_groups level q) hbelow⟩

theorem Keeps.everywhere_nothing : Query.Everywhere done {} :=
  Query.everywhere_iff.mpr ⟨h.nothing, Query.below_empty⟩

theorem Keeps.everywhere_attached {level : Level} {q : Query} (hq : growing q)
    (hbelow : q.Below done) : ∀ built ∈ c.attached level q, built.Everywhere done := by
  intro built hbuilt
  unfold attached at hbuilt
  split at hbuilt
  · cases hbuilt
    exact h.everywhere_finished level hq hbelow
  · simp at hbuilt

theorem Keeps.added {build? : Option Build} {level : Level} {q q' : Query} {token : Token}
    (hbuild : ∀ build ∈ build?, ∀ free source, Handed (Query.Everywhere done) (build free source))
    (hadded : c.Added build? level q token q') (hq : growing q ∧ q.Below done) :
    growing q' ∧ q'.Below done := by
  obtain ⟨hgrowing, hbelow⟩ := hq
  cases hadded with
  | leaf _ hadd =>
    exact ⟨h.token hgrowing hadd, Query.below_congr (addToken_groups hadd) hbelow⟩
  | counted =>
    refine ⟨h.group _ _ _ hgrowing, Query.Below.pushGroup hbelow ?_ _⟩
    simp [GroupEntry.query?]
  | @built source _ _ _ _ hbuild? hinner =>
    refine ⟨h.group _ _ _ hgrowing, Query.Below.pushGroup hbelow ?_ _⟩
    have hhanded := hbuild _ hbuild? (q.tagCount + level.freeTags) source
    rw [hinner] at hhanded
    simpa [GroupEntry.query?, Handed] using hhanded
  | @overrun source _ _ partly _ _ hbuild? hinner =>
    refine ⟨h.group _ _ _ hgrowing, Query.Below.pushGroup hbelow ?_ _⟩
    have hhanded := hbuild _ hbuild? (q.tagCount + level.freeTags) source
    rw [hinner] at hhanded
    simp only [GroupEntry.query?, Option.mem_def, Option.some.injEq, forall_eq']
    cases partly with
    | none => exact h.everywhere_nothing
    | some built => exact hhanded built rfl
  | cut =>
    refine ⟨h.group 0 _ _ hgrowing, Query.Below.pushGroup hbelow ?_ _⟩
    simpa [GroupEntry.query?] using h.everywhere_nothing

/-- What comes with an error of a level was built by the level. -/
theorem Keeps.addNext_error {build? : Option Build} {level : Level} {q : Query} {token : Token}
    {e : QueryError}
    (hbuild : ∀ build ∈ build?, ∀ free source, Handed (Query.Everywhere done) (build free source))
    (hq : growing q ∧ q.Below done) (herror : c.addNext build? level q token = .error e) :
    ∀ built ∈ e.built?, built.Everywhere done := by
  rw [addNext_eq] at herror
  rcases error_of_bind herror with herror | ⟨added, hadd, herror⟩
  · cases refused_of_attempt herror with
    | value _ hadd => simp [(addToken_error hadd).built?]
    | inner _ _ _ _ hcount hdepth => simp [built?_eq_none hcount hdepth]
    | tooDeep => exact h.everywhere_attached hq.1 hq.2
  · obtain ⟨rfl, _⟩ := checkCount_error herror
    obtain ⟨hgrowing, hbelow⟩ := h.added hbuild (added_of_attempt hadd) hq
    exact h.everywhere_attached hgrowing hbelow

/-- **Every query that a level hands on, and every query below it, is as the tokens of its own level
left it.** -/
theorem compileLevel_handed (level : Level) : ∀ text,
    Handed (Query.Everywhere done) (c.compileLevel level text) := by
  induction level using Level.descend with
  | step level ih =>
    intro text
    cases hhoist : Hoist.hoist (c.hoistOptions level) text with
    | error _ =>
      rw [compileLevel_error c hhoist]
      exact h.everywhere_attached h.empty Query.below_empty
    | ok result =>
      obtain ⟨tokens, unwrapped⟩ := result
      have hbuild : ∀ build ∈ c.inside (level.deeper unwrapped), ∀ free source,
          Handed (Query.Everywhere done) (build free source) := by
        intro build hbuild free source
        obtain ⟨hroom, rfl⟩ := c.of_mem_inside hbuild
        exact ih unwrapped free hroom source
      have hstep : ∀ {q token q'}, growing q ∧ q.Below done →
          c.addNext (c.inside (level.deeper unwrapped)) (level.deeper unwrapped) q token = .ok q' →
          growing q' ∧ q'.Below done :=
        fun hq hnext => h.added hbuild (added_of_addNext hnext).1 hq
      rw [compileLevel_ok c hhoist]
      cases hfold : tokens.foldlM
          (c.addNext (c.inside (level.deeper unwrapped)) (level.deeper unwrapped)) {} with
      | ok reached =>
        obtain ⟨hgrowing, hbelow⟩ := invariant_of_foldlM hstep ⟨h.empty, Query.below_empty⟩ hfold
        exact h.everywhere_finished _ hgrowing hbelow
      | error e =>
        obtain ⟨reached, token, _, hreached, herror⟩ :=
          invariant_of_foldlM_error hstep ⟨h.empty, Query.below_empty⟩ hfold
        exact h.addNext_error hbuild hreached herror

end Keeps

/-- A query that compiling a search hands out: the query of the search, or what was built of it up to
an error. -/
def Returns (c : Compiler) (search : Text) (q : Query) : Prop :=
  c.compile search = .ok q ∨ ∃ e, c.compile search = .error e ∧ e.built? = some q

/-- What a compiler keeps holds of every query that it hands out. -/
theorem Keeps.of_returns (h : c.Keeps growing done) {search : Text} {q : Query}
    (hreturns : c.Returns search q) : q.Everywhere done := by
  have hhanded := compileLevel_handed h (Level.root c.settings) search
  rcases hreturns with hok | ⟨e, herror, hbuilt⟩
  · rw [show c.compileLevel _ search = .ok q from hok] at hhanded
    exact hhanded
  · rw [show c.compileLevel _ search = .error e from herror] at hhanded
    exact hhanded q hbuilt

end Compiler

end TagSearch
