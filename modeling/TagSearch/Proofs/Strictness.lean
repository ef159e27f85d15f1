import TagSearch.Proofs.Budget
import TagSearch.Proofs.Truncation

/-!
# Failing on depth, or dropping in silence

Hoisting, scanning and compiling each have a switch that says what to do about a group past the
limit: fail, or drop what it holds. The switch matters only if there is such a group. So a strict
run either fails for depth or does what every other run does, whichever way the switches stand.

* `hoist_sameUnless`: this holds of hoisting, also if the other run has more levels.
* `compileLevel_sameUnless`: this holds of compiling, for both of its switches at once.
* `compileLevel_silent`: with both switches off nothing fails for depth.
* `compileLevel_depthExceeded`: what fails for depth names the limit of the whole search.
-/

namespace TagSearch

/-! ## Hoisting -/

section Hoisting

variable {options other : Hoist.Options} {limit limit' remaining remaining' : Nat}

mutual

theorem liftTree_sameUnless (hstrict : options.failOnDepth = true)
    (hnames : other.names = options.names) (hroom : remaining ≤ remaining') :
    ∀ (tree : Tree) (nesting : Nat),
    SameUnless (fun _ => True) (Hoist.liftTree options limit remaining nesting tree)
      (Hoist.liftTree other limit' remaining' nesting tree)
  | .leaf token, nesting => by
    rw [Hoist.liftTree, Hoist.liftTree, hnames]
    exact SameUnless.refl _
  | .group token children, nesting => by
    rw [Hoist.liftTree, Hoist.liftTree, hnames]
    split
    · split
      · next hfits =>
        rw [if_pos (Nat.le_trans hfits hroom)]
        exact (liftTrees_sameUnless hstrict hnames hroom children (nesting + 1)).bind
          fun _ => SameUnless.refl _
      · exact Or.inl ⟨_, rfl, trivial⟩
    · exact SameUnless.refl _

theorem liftTrees_sameUnless (hstrict : options.failOnDepth = true)
    (hnames : other.names = options.names) (hroom : remaining ≤ remaining') :
    ∀ (trees : List Tree) (nesting : Nat),
    SameUnless (fun _ => True) (Hoist.liftTrees options limit remaining nesting trees)
      (Hoist.liftTrees other limit' remaining' nesting trees)
  | [], _ => SameUnless.refl _
  | tree :: rest, nesting => by
    rw [Hoist.liftTrees, Hoist.liftTrees]
    exact (liftTree_sameUnless hstrict hnames hroom tree nesting).bind fun _ =>
      (liftTrees_sameUnless hstrict hnames hroom rest nesting).bind fun _ => SameUnless.refl _

end

variable (hstrict : options.failOnDepth = true) (hnames : other.names = options.names)

include hstrict hnames

theorem hoistTree_sameUnless (hroom : remaining ≤ remaining') (tree : Tree) :
    SameUnless (fun _ => True) (Hoist.hoistTree options limit remaining tree)
      (Hoist.hoistTree other limit' remaining' tree) := by
  cases tree with
  | leaf token => exact SameUnless.refl _
  | group token children =>
    rw [Hoist.hoistTree, Hoist.hoistTree, hnames]
    split
    · exact (liftTree_sameUnless hstrict hnames hroom _ 0).bind fun _ => SameUnless.refl _
    · exact SameUnless.refl _

/-- The groups that are unwrapped are counted from the top, so what one hoisting has `more` levels
left than the other, its limit has `more` as well. -/
theorem hoistText_sameUnless (limit more remaining : Nat) (text : Text) :
    SameUnless (fun _ => True) (Hoist.hoistText options limit remaining text)
      (Hoist.hoistText other (limit + more) (remaining + more) text) := by
  cases stands text with
  | empty h =>
    rw [hoistText_empty _ _ _ h, hoistText_empty _ _ _ h, Nat.add_sub_add_right]
    exact SameUnless.refl _
  | wrapped h htokens =>
    match remaining with
    | 0 =>
      rw [hoistText_wrapped_zero _ _ h htokens, if_pos hstrict]
      exact Or.inl ⟨_, rfl, trivial⟩
    | remaining + 1 =>
      rw [hoistText_wrapped _ _ _ h htokens, Nat.add_right_comm, hoistText_wrapped _ _ _ h htokens]
      exact hoistText_sameUnless limit more remaining _
  | level h htokens =>
    rw [hoistText_level _ _ _ h htokens, hoistText_level _ _ _ h htokens, Nat.add_sub_add_right]
    exact (SameUnless.mapM (hoistTree_sameUnless hstrict hnames (Nat.le_add_right _ _)) _).bind
      fun _ => SameUnless.refl _

/-- **A strict hoisting fails, or does what any hoisting of the same names does** that has as many
levels. -/
theorem hoist_sameUnless (hroom : options.limit ≤ other.limit) (search : Text) :
    SameUnless (fun _ => True) (Hoist.hoist options search) (Hoist.hoist other search) := by
  obtain ⟨more, hmore⟩ := Nat.exists_eq_add_of_le hroom
  unfold Hoist.hoist
  rw [hmore]
  exact hoistText_sameUnless hstrict hnames options.limit more options.limit (cleanSearch search)

end Hoisting

/-! ## Scanning -/

namespace Scan

section SameUnless

variable {options : Options} (fails : Bool) (canonical : Text → Text)

mutual

theorem scanTree_sameUnless (hstrict : options.failOnDepth = true) :
    ∀ (tree : Tree) (nesting : Nat) (outer : List Modifier),
    SameUnless (fun _ => True) (scanTree options canonical nesting outer tree)
      (scanTree { options with failOnDepth := fails } canonical nesting outer tree)
  | .leaf token, _, _ => SameUnless.refl _
  | .group token children, nesting, outer => by
    by_cases hfit : options.baseDepth + (nesting + 1) ≤ options.limit
    · rw [scanTree_within hfit]
      have hother := @scanTree_within { options with failOnDepth := fails } canonical nesting hfit
      rw [hother]
      exact (scanTrees_sameUnless hstrict children (nesting + 1) _).map _
    · rw [scanTree_past hfit, if_pos hstrict]
      exact Or.inl ⟨_, rfl, trivial⟩

theorem scanTrees_sameUnless (hstrict : options.failOnDepth = true) :
    ∀ (trees : List Tree) (nesting : Nat) (outer : List Modifier),
    SameUnless (fun _ => True) (scanTrees options canonical nesting outer trees)
      (scanTrees { options with failOnDepth := fails } canonical nesting outer trees)
  | [], _, _ => SameUnless.refl _
  | tree :: rest, nesting, outer => by
    rw [scanTrees, scanTrees]
    exact (scanTree_sameUnless hstrict tree nesting outer).bind fun _ =>
      (scanTrees_sameUnless hstrict rest nesting outer).bind fun _ => SameUnless.refl _

end

/-- **A strict scan fails, or does what any scan does.** -/
theorem scan_sameUnless (hstrict : options.failOnDepth = true) (search : Text) :
    SameUnless (fun _ => True) (scan options canonical search)
      (scan { options with failOnDepth := fails } canonical search) := by
  unfold scan
  split
  · exact (scanTree_sameUnless fails canonical hstrict _ 0 []).map _
  · exact (scanTrees_sameUnless fails canonical hstrict _ 0 []).map (arrange options)

end SameUnless

variable (options : Options) (canonical : Text → Text)

/-- Within the limit, or in silence, a scan does not fail. -/
theorem scanTree_succeeds (tree : Tree) (nesting : Nat) (outer : List Modifier)
    (h : options.baseDepth + (nesting + tree.depth) ≤ options.limit
      ∨ options.failOnDepth = false) :
    ∃ entry, scanTree options canonical nesting outer tree = .ok entry := by
  have hfits : ¬ Overruns options nesting tree.depth := by
    rintro ⟨hstrict, -, hpast⟩
    rcases h with hfit | hsilent
    · omega
    · simp [hstrict] at hsilent
  rw [scanTree_eq, if_neg hfits]
  exact ⟨_, rfl⟩

/-- A strict scan reaches every group. -/
theorem scanTree_reach (hstrict : options.failOnDepth = true) (tree : Tree) (nesting : Nat)
    (outer : List Modifier) {entry : Entry}
    (h : scanTree options canonical nesting outer tree = .ok entry) :
    tree.depth = 0 ∨ options.baseDepth + (nesting + tree.depth) ≤ options.limit := by
  rw [scanTree_eq] at h
  by_cases hover : Overruns options nesting tree.depth
  · rw [if_pos hover] at h
    simp at h
  · by_contra hpast
    exact hover ⟨hstrict, by omega, by omega⟩

/-- A scan that is silent about groups past the limit does not fail. -/
theorem scan_silent (hsilent : options.failOnDepth = false) (search : Text) :
    ∃ items, scan options canonical search = .ok items := by
  rw [scan_eq, scanTrees_lenient canonical hsilent]
  exact ⟨_, rfl⟩

end Scan

/-! ## Compiling -/

/-- A level with its switch set. -/
def Level.failing (level : Level) (failOnDepth : Bool) : Level :=
  { level with failOnDepth }

namespace Compiler

/-- The same compiler with its two switches set: the one for groups that are compiled, and the one
for groups that are counted. -/
def withDepthFlags (c : Compiler) (failOnDepth failOnCountDepth : Bool) : Compiler :=
  { c with settings := { c.settings with failOnDepth, failOnCountDepth } }

/-- Errors about groups nested too deep. -/
def IsDepthError (e : QueryError) : Prop :=
  e.isDepthExceeded = true

section SameUnless

variable {c : Compiler} {level : Level} (fails failsCount : Bool)

theorem countGroup_sameUnless (hcount : c.settings.failOnCountDepth = true) (q : Query)
    (token : Token) (source : Text) :
    SameUnless IsDepthError (c.countGroup level q token source)
      ((c.withDepthFlags fails failsCount).countGroup (level.failing fails) q token source) := by
  unfold countGroup
  cases hscan : Scan.scan (c.countOptions level) id token.text with
  | error e => exact Or.inl ⟨_, rfl, rfl⟩
  | ok items =>
    have hother : Scan.scan
        ((c.withDepthFlags fails failsCount).countOptions (level.failing fails)) id token.text
          = .ok items :=
      (Scan.scan_sameUnless failsCount id hcount token.text).ok_of_ok hscan
    rw [hother]
    exact SameUnless.refl _

theorem buildGroup_sameUnless {build build' : Build}
    (hbuild : ∀ free source, SameUnless IsDepthError (build free source) (build' free source))
    (q : Query) (token : Token) (source : Text) :
    SameUnless IsDepthError (c.buildGroup build level q token source)
      ((c.withDepthFlags fails failsCount).buildGroup build' (level.failing fails) q token
        source) := by
  unfold buildGroup
  rcases hbuild (q.tagCount + level.freeTags) source with ⟨e, he, hdepth⟩ | hsame
  · -- a depth error of the inside becomes one of the level
    rw [he]
    cases e with
    | depthExceeded limit partly => exact Or.inl ⟨_, rfl, rfl⟩
    | _ => simp [IsDepthError, QueryError.isDepthExceeded] at hdepth
  · have hsame : build' (q.tagCount + (level.failing fails).freeTags) source
        = build (q.tagCount + level.freeTags) source := hsame
    rw [hsame]
    exact SameUnless.refl _

theorem addNext_sameUnless (hcount : c.settings.failOnCountDepth = true)
    (hstrict : level.failOnDepth = true) {build? build'? : Option Build}
    (hbuild? : Option.Rel (fun build build' => ∀ free source,
      SameUnless IsDepthError (build free source) (build' free source)) build? build'?)
    (q : Query) (token : Token) :
    SameUnless IsDepthError (c.addNext build? level q token)
      ((c.withDepthFlags fails failsCount).addNext build'? (level.failing fails) q token) := by
  rw [addNext_eq, addNext_eq]
  refine SameUnless.bind ?_ fun _ => SameUnless.refl _
  unfold attempt
  cases token.group? with
  | none => exact SameUnless.refl _
  | some source =>
    show SameUnless _ (c.addGroup build? level q token source)
      ((c.withDepthFlags fails failsCount).addGroup build'? (level.failing fails) q token source)
    unfold addGroup
    by_cases hmode : c.settings.processGroups = true
    · have hmode' : (c.withDepthFlags fails failsCount).settings.processGroups = true := hmode
      rw [hmode, hmode']
      cases hbuild? with
      | none =>
        -- past the limit the strict run fails, whatever the other one drops
        exact Or.inl ⟨_, if_pos hstrict, rfl⟩
      | some hbuild => exact buildGroup_sameUnless fails failsCount hbuild q token source
    · have hmode' : (c.withDepthFlags fails failsCount).settings.processGroups ≠ true := hmode
      rw [if_pos (by simpa using hmode), if_pos (by simpa using hmode')]
      exact countGroup_sameUnless fails failsCount hcount q token source

/-- Both compilings look into the same groups. -/
theorem inside_sameUnless {c' : Compiler}
    (h : ∀ free, level.exceeds = false → ∀ source, SameUnless IsDepthError
      (c.compileLevel (level.child free) source)
      (c'.compileLevel ((level.failing fails).child free) source)) :
    Option.Rel (fun build build' => ∀ free source,
      SameUnless IsDepthError (build free source) (build' free source))
      (c.inside level) (c'.inside (level.failing fails)) := by
  have hexceeds : (level.failing fails).exceeds = level.exceeds := rfl
  unfold inside
  rw [hexceeds]
  split
  · exact .none
  · next hroom => exact .some fun free source => h free (by simpa using hroom) source

/-- **A strict compiling fails for depth, or does what any compiling does.** -/
theorem compileLevel_sameUnless (hcount : c.settings.failOnCountDepth = true) (level : Level) :
    level.failOnDepth = true → ∀ text, SameUnless IsDepthError (c.compileLevel level text)
      ((c.withDepthFlags fails failsCount).compileLevel (level.failing fails) text) := by
  induction level using Level.descend with
  | step level ih =>
    intro hstrict text
    cases hhoist : Hoist.hoist (c.hoistOptions level) text with
    | error e =>
      rw [compileLevel_error c hhoist]
      exact Or.inl ⟨_, rfl, rfl⟩
    | ok result =>
      obtain ⟨tokens, unwrapped⟩ := result
      have hother : Hoist.hoist
          ((c.withDepthFlags fails failsCount).hoistOptions (level.failing fails)) text
            = .ok (tokens, unwrapped) :=
        (@hoist_sameUnless (c.hoistOptions level)
          ((c.withDepthFlags fails failsCount).hoistOptions (level.failing fails))
          hstrict rfl (Nat.le_refl _) text).ok_of_ok hhoist
      rw [compileLevel_ok c hhoist, compileLevel_ok _ hother]
      refine SameUnless.map _ (SameUnless.foldlM ?_ tokens _)
      intro q token
      have hstrict' : (level.deeper unwrapped).failOnDepth = true := hstrict
      exact addNext_sameUnless fails failsCount hcount hstrict'
        (inside_sameUnless fails fun free hroom => ih unwrapped free hroom hstrict) q token

end SameUnless

variable {c : Compiler}

/-! ## Depth errors -/

/-- A depth error is about a group: neither the value of a metatag nor the count of tags causes
one. -/
theorem addNext_depthExceeded {build? : Option Build} {level : Level} {q : Query} {token : Token}
    {e : QueryError} (h : c.addNext build? level q token = .error e) (hdepth : IsDepthError e) :
    e = c.depthError level q ∧ c.TooDeep build? level q token := by
  rw [addNext_eq] at h
  rcases error_of_bind h with h | ⟨added, _, h⟩
  · cases refused_of_attempt h with
    | value _ hadd =>
      have hvalue := addToken_error hadd
      cases e with
      | depthExceeded => exact hvalue.elim
      | _ => simp [IsDepthError, QueryError.isDepthExceeded] at hdepth
    | inner _ _ _ _ _ hother => simp [IsDepthError, hother] at hdepth
    | tooDeep hdeep => exact ⟨rfl, hdeep⟩
  · obtain ⟨rfl, _⟩ := checkCount_error h
    simp [IsDepthError, QueryError.isDepthExceeded] at hdepth

/-- **A depth error names the limit of the level.** -/
theorem compileLevel_depthExceeded {level : Level} {text : Text} {limit : Nat}
    {partly : Option Query}
    (h : c.compileLevel level text = .error (.depthExceeded limit partly)) :
    limit = level.depthLimit := by
  cases hhoist : Hoist.hoist (c.hoistOptions level) text with
  | error _ =>
    rw [compileLevel_error c hhoist] at h
    cases h
    rfl
  | ok result =>
    obtain ⟨tokens, unwrapped⟩ := result
    rw [compileLevel_ok c hhoist] at h
    obtain ⟨_, _, _, hnext⟩ := error_of_foldlM (error_of_map h)
    obtain ⟨he, _⟩ := addNext_depthExceeded hnext rfl
    cases he
    rfl

/-- **With both switches off nothing fails for depth.** -/
theorem compileLevel_silent (hcount : c.settings.failOnCountDepth = false) (level : Level) :
    level.failOnDepth = false → ∀ (text : Text) (e : QueryError),
      c.compileLevel level text = .error e → ¬ IsDepthError e := by
  induction level using Level.descend with
  | step level ih =>
    intro hsilent text e h hdepth
    obtain ⟨⟨tokens, unwrapped⟩, hhoist⟩ :
        ∃ result, Hoist.hoist (c.hoistOptions level) text = .ok result :=
      hoistText_silent hsilent _ _ _
    rw [compileLevel_ok c hhoist] at h
    obtain ⟨q, token, _, hnext⟩ := error_of_foldlM (error_of_map h)
    cases (addNext_depthExceeded hnext hdepth).2 with
    | counted _ _ hscan =>
      obtain ⟨items, hitems⟩ := Scan.scan_silent (c.countOptions (level.deeper unwrapped)) id hcount
        token.text
      rw [hitems] at hscan
      simp at hscan
    | deep _ _ hbuild? hbuild =>
      obtain ⟨hroom, rfl⟩ := c.of_mem_inside hbuild?
      exact ih unwrapped _ hroom hsilent _ _ hbuild rfl
    | cut _ _ _ hloud =>
      have hloud : level.failOnDepth = true := hloud
      rw [hsilent] at hloud
      simp at hloud

end Compiler

end TagSearch
