import TagSearch.Config.Convert
import TagSearch.Proofs.Weights

/-!
# Counters of the levels

Compiling counts the groups around a level, the tags of the level and the tags that are reserved for
what is around it. The settings are any numbers, and still no counter leaves its bounds.

* `Visits`: the levels that compiling a search comes to. Nothing else matters for the answer
  (`compile_of_answers`).
* `Level.InBounds`: what is kept of the counters from a level to the levels inside its groups
  (`Visits.inBounds`).
* `Visits.tagCount_le`: the tags that are counted are bounded by the search itself.

Main statement: `compile_counters`.
-/

namespace TagSearch

/-! ## Bounds -/

/-- The counters of a level are within the bounds that the settings give. -/
structure Level.InBounds (s : Settings) (level : Level) : Prop where
  depthLimit_eq : level.depthLimit = s.depth
  depth_pos : 1 ≤ level.depth
  depth_le : level.depth ≤ s.depth + 1
  /-- More tags may be reserved than a search may hold, but then none is added to them. -/
  freeTags_le : level.freeTags ≤ max s.maxTags s.freeTags

namespace Level.InBounds

variable {s : Settings} {level : Level}

theorem root (s : Settings) : (Level.root s).InBounds s where
  depthLimit_eq := rfl
  depth_pos := Nat.le_refl 1
  depth_le := Nat.le_add_left 1 _
  freeTags_le := Nat.le_max_right _ _

theorem isReached (h : level.InBounds s) : level.IsReached where
  depth_pos := h.depth_pos
  limit_le := by
    rw [h.depthLimit_eq]
    exact Nat.min_le_right _ _

/-- As many groups may be unwrapped as there are levels left. -/
theorem deeper (h : level.InBounds s) {unwrapped : Nat} (hle : unwrapped ≤ level.remaining) :
    (level.deeper unwrapped).InBounds s where
  depthLimit_eq := h.depthLimit_eq
  depth_pos := Nat.le_trans h.depth_pos (Nat.le_add_right _ _)
  depth_le := by
    have hdepth := h.depth_le
    have hlimit := h.depthLimit_eq
    simp only [Level.remaining] at hle
    show level.depth + unwrapped ≤ s.depth + 1
    omega
  freeTags_le := h.freeTags_le

/-- A group that is not past the limit leads one level down. -/
theorem child (h : level.InBounds s) {free : Nat} (hroom : level.exceeds = false)
    (hfree : free ≤ max s.maxTags s.freeTags) : (level.child free).InBounds s where
  depthLimit_eq := h.depthLimit_eq
  depth_pos := Nat.le_add_left 1 _
  depth_le := by
    have hlimit := h.depthLimit_eq
    simp only [Level.exceeds, decide_eq_false_iff_not] at hroom
    show level.depth + 1 ≤ s.depth + 1
    omega
  freeTags_le := hfree

/-- Tags within the budget of a level may be added to those that are reserved. If those are past the
limit already, the budget is empty. -/
theorem sum_le (h : level.InBounds s) {tags : Nat} (hfits : tags ≤ s.maxTags - level.freeTags) :
    tags + level.freeTags ≤ max s.maxTags s.freeTags := by
  have hfree := h.freeTags_le
  by_cases hover : s.maxTags ≤ level.freeTags
  · have hnone : tags = 0 := by omega
    rwa [hnone, Nat.zero_add]
  · have hsum : tags + level.freeTags ≤ s.maxTags := by omega
    exact Nat.le_trans hsum (Nat.le_max_left _ _)

end Level.InBounds

namespace Compiler

open Text

variable {c : Compiler} {search : Text} {level : Level} {text : Text} {unwrapped : Nat}
  {q : Query} {rest : List Token}

/-! ## Levels that are visited -/

/-- A level on its way through its tokens: `unwrapped` groups around it were unwrapped, `q` is built
of the tokens so far, and the others are left. -/
def Midway (c : Compiler) (level : Level) (text : Text) (unwrapped : Nat) (q : Query)
    (rest : List Token) : Prop :=
  ∃ before, Hoist.hoist (c.hoistOptions level) text = .ok (before ++ rest, unwrapped)
    ∧ before.foldlM (c.addNext (c.inside (level.deeper unwrapped)) (level.deeper unwrapped)) {}
      = .ok q

/-- The levels that compiling a search comes to, each with its text. -/
inductive Visits (c : Compiler) (search : Text) : Level → Text → Prop
  | root : Visits c search (Level.root c.settings) search
  /-- A group that is compiled, when its turn comes. What was counted before it is reserved. -/
  | group {level : Level} {text source : Text} {unwrapped : Nat} {q : Query} {token : Token}
    {rest : List Token} (hlevel : Visits c search level text)
    (hmidway : c.Midway level text unwrapped q (token :: rest))
    (hgroup : token.group? = some source) (hmode : c.settings.processGroups = true)
    (hroom : (level.deeper unwrapped).exceeds = false) :
    Visits c search ((level.deeper unwrapped).child (q.tagCount + level.freeTags)) source

/-! ## What levels keep -/

theorem hoist_unwrapped_le (h : level.IsReached) {tokens : List Token}
    (hhoist : Hoist.hoist (c.hoistOptions level) text = .ok (tokens, unwrapped)) :
    unwrapped ≤ level.remaining := by
  rw [Hoist.hoist, hoistOptions_limit h] at hhoist
  obtain ⟨groups, inside, -, hle, hunwrapped, -⟩ := hoistText_unwraps _ _ _ _ hhoist
  omega

theorem Midway.unwrapped_le (h : level.IsReached) (hmidway : c.Midway level text unwrapped q rest) :
    unwrapped ≤ level.remaining := by
  obtain ⟨before, hhoist, -⟩ := hmidway
  exact hoist_unwrapped_le h hhoist

/-- The check after the last token is what keeps the sum within bounds. -/
theorem Midway.sum_le (h : level.InBounds c.settings)
    (hmidway : c.Midway level text unwrapped q rest) :
    q.tagCount + level.freeTags ≤ max c.settings.maxTags c.settings.freeTags := by
  have hdeeper := h.deeper (hmidway.unwrapped_le h.isReached)
  obtain ⟨before, -, hbefore⟩ := hmidway
  exact hdeeper.sum_le (fits_of_foldlM hbefore)

/-- **Every level that is visited has its counters within bounds.** -/
theorem Visits.inBounds (h : c.Visits search level text) : level.InBounds c.settings := by
  induction h with
  | root => exact .root c.settings
  | group _ hmidway _ _ hroom ih =>
    exact (ih.deeper (hmidway.unwrapped_le ih.isReached)).child hroom (hmidway.sum_le ih)

/-! ## Counts along the tokens -/

/-- There is room for the next token in what the text weighs. -/
theorem Midway.room {token : Token} (hmidway : c.Midway level text unwrapped q (token :: rest)) :
    token.IsRead ∧ IsStable token.text
      ∧ q.tagCount + weight token.text ≤ weight (cleanSearch text) := by
  obtain ⟨before, hhoist, hbefore⟩ := hmidway
  have hreached : c.Reaches (level.deeper unwrapped) before q := by
    simpa using Reaches.nil.foldlM hbefore
  obtain ⟨hbefores, htokens⟩ := List.forall_mem_append.mp (of_mem_hoist hhoist)
  obtain ⟨hread, hstable⟩ := htokens token List.mem_cons_self
  have hcount := hreached.tagCount_le_weight (insideBounded _) hbefores
  have hweight := (hoist_madeOf hhoist).weight_le
  simp only [List.map_append, List.map_cons, weightOf_append, weightOf_cons, weightOf_nil]
    at hweight
  exact ⟨hread, hstable, by omega⟩

/-- What is visited weighs no more than the search. -/
theorem Visits.weight_le (h : c.Visits search level text) :
    weight (cleanSearch text) ≤ weight (cleanSearch search) := by
  induction h with
  | root => exact Nat.le_refl _
  | group _ hmidway hgroup _ _ ih =>
    obtain ⟨hread, hstable, hroom⟩ := hmidway.room
    have hinside := weight_inside hread hstable hgroup
    omega

/-- The search is longer than the count of tags, before the next token is added and after. -/
theorem Visits.tagCount_le (h : c.Visits search level text) {token : Token}
    (hmidway : c.Midway level text unwrapped q (token :: rest)) :
    q.tagCount + 1 ≤ (cleanSearch search).length
      ∧ ∀ q', c.attempt (c.inside (level.deeper unwrapped)) (level.deeper unwrapped) q token
          = .ok q' → q'.tagCount ≤ (cleanSearch search).length := by
  obtain ⟨hread, hstable, hroom⟩ := hmidway.room
  have hpos := hread.weight_pos
  have hweight := h.weight_le
  have hlength := weight_le_length (cleanSearch search)
  refine ⟨by omega, fun q' hadd => ?_⟩
  have hadded := (added_of_attempt hadd).tagCount_le_weight (insideBounded _) hread hstable
  omega

/-! ## What the answer depends on -/

/-- How a level answers if `other` answers for the insides of its groups. -/
def answer (c : Compiler) (other : Level → Text → Except QueryError Query) (level : Level)
    (text : Text) : Except QueryError Query :=
  match Hoist.hoist (c.hoistOptions level) text with
  | .error _ => .error (c.depthError level {})
  | .ok (tokens, unwrapped) =>
    let build? : Option Build :=
      if (level.deeper unwrapped).exceeds then none
      else some fun free source => other ((level.deeper unwrapped).child free) source
    c.finished (level.deeper unwrapped)
      <$> tokens.foldlM (c.addNext build? (level.deeper unwrapped)) {}

/-- Only the inside of the group that a token is matters for adding the token. -/
theorem addNext_congr {build build' : Build} {token : Token}
    (h : ∀ source, token.group? = some source → c.settings.processGroups = true →
      build' (q.tagCount + level.freeTags) source = build (q.tagCount + level.freeTags) source) :
    c.addNext (some build') level q token = c.addNext (some build) level q token := by
  have hgroup : ∀ source, token.group? = some source →
      c.addGroup (some build') level q token source
        = c.addGroup (some build) level q token source := by
    intro source hsource
    unfold addGroup
    split
    · rfl
    · next hmode => simp only [buildGroup, h source hsource (by simpa using hmode)]
  unfold addNext
  cases hsource : token.group? with
  | none => rfl
  | some source => simp only [hgroup source hsource]

theorem answer_eq_compileLevel {other : Level → Text → Except QueryError Query}
    (h : ∀ unwrapped q token rest source, c.Midway level text unwrapped q (token :: rest) →
      token.group? = some source → c.settings.processGroups = true →
      (level.deeper unwrapped).exceeds = false →
      other ((level.deeper unwrapped).child (q.tagCount + level.freeTags)) source
        = c.compileLevel ((level.deeper unwrapped).child (q.tagCount + level.freeTags)) source) :
    c.answer other level text = c.compileLevel level text := by
  unfold answer
  cases hhoist : Hoist.hoist (c.hoistOptions level) text with
  | error e => rw [compileLevel_error c hhoist]
  | ok result =>
    obtain ⟨tokens, unwrapped⟩ := result
    rw [compileLevel_ok c hhoist]
    dsimp only
    congr 1
    refine foldlM_congr fun before token rest q htokens hbefore => ?_
    subst htokens
    cases hroom : (level.deeper unwrapped).exceeds with
    | true => simp [inside, hroom]
    | false =>
      simp only [inside, hroom, Bool.false_eq_true, if_false]
      exact addNext_congr fun source hgroup hmode =>
        h unwrapped q token rest source ⟨before, hhoist, hbefore⟩ hgroup hmode hroom

/-- **Compiling comes to the visited levels only:** any answers that fit together at these are the
answers of compiling. -/
theorem compile_of_answers {other : Level → Text → Except QueryError Query}
    (h : ∀ level text, c.Visits search level text → other level text = c.answer other level text) :
    other (Level.root c.settings) search = c.compile search := by
  have hlevel : ∀ (level : Level) (text : Text), c.Visits search level text →
      other level text = c.compileLevel level text := by
    intro level
    induction level using Level.descend with
    | step level ih =>
      intro text hvisits
      rw [h level text hvisits]
      exact answer_eq_compileLevel fun unwrapped q token rest source hmidway hgroup hmode hroom =>
        ih unwrapped _ hroom source (.group hvisits hmidway hgroup hmode hroom)
  exact hlevel _ _ .root

/-! ## The counters -/

/-- **No counter of compiling leaves its bounds.** At every level that a search comes to, the depth
is between one and one past the limit, no more groups are unwrapped than there are levels left, and
that leaves the depth within its bounds. Wherever the level is in its tokens, the tags that it has
counted and those that are reserved are no more than a search may hold, or no more than the settings
reserve, and the next token does not count past the characters of the search. -/
theorem compile_counters (c : Compiler) (search : Text) :
    (∀ level text, c.Visits search level text → level.InBounds c.settings
      ∧ ∀ unwrapped q rest, c.Midway level text unwrapped q rest →
        unwrapped ≤ level.remaining
          ∧ (level.deeper unwrapped).InBounds c.settings
          ∧ q.tagCount + level.freeTags ≤ max c.settings.maxTags c.settings.freeTags
          ∧ (c.settings.maxTags ≤ Config.maxNat64 → c.settings.freeTags ≤ Config.maxNat64 →
            q.tagCount + level.freeTags ≤ Config.maxNat64)
          ∧ ∀ token others, rest = token :: others →
            q.tagCount + 1 ≤ (cleanSearch search).length
              ∧ ∀ q', c.attempt (c.inside (level.deeper unwrapped)) (level.deeper unwrapped) q token
                  = .ok q' → q'.tagCount ≤ (cleanSearch search).length)
      ∧ ∀ other : Level → Text → Except QueryError Query,
        (∀ level text, c.Visits search level text → other level text = c.answer other level text) →
          other (Level.root c.settings) search = c.compile search := by
  refine ⟨fun level text hvisits => ⟨hvisits.inBounds, ?_⟩, fun _ => compile_of_answers⟩
  intro unwrapped q rest hmidway
  have hlevel := hvisits.inBounds
  have hunwrapped := hmidway.unwrapped_le hlevel.isReached
  have hsum := hmidway.sum_le hlevel
  refine ⟨hunwrapped, hlevel.deeper hunwrapped, hsum, fun hmax hfree => ?_, ?_⟩
  · exact Nat.le_trans hsum (Nat.max_le.mpr ⟨hmax, hfree⟩)
  · rintro token others rfl
    exact hvisits.tagCount_le hmidway

/-- A compiler of groups that has one tag left, below the largest number there is. -/
def brimfulCompiler : Compiler where
  settings :=
    { maxTags := Config.maxNat64, freeTags := Config.maxNat64 - 1, processGroups := true }
  now := ⟨0⟩

/-- The last tag is counted before the group. The inside of the group has all tags reserved, and the
sum is just within bounds. -/
theorem compile_counters_brimful :
    ∃ q level, brimfulCompiler.Midway (Level.root brimfulCompiler.settings) "a ( b )".toList 0 q
        [⟨none, .group "b".toList, "( b )".toList, 2⟩]
      ∧ q.tagCount + 1 ≤ 7
      ∧ q.tagCount + (Level.root brimfulCompiler.settings).freeTags = Config.maxNat64
      ∧ brimfulCompiler.Visits "a ( b )".toList level "b".toList
      ∧ level.freeTags = Config.maxNat64 ∧ level.InBounds brimfulCompiler.settings := by
  obtain ⟨hlevels, -⟩ := compile_counters brimfulCompiler "a ( b )".toList
  have hhoist : Hoist.hoist (brimfulCompiler.hoistOptions (Level.root brimfulCompiler.settings))
      "a ( b )".toList
        = .ok ([⟨none, .tag "a".toList, "a".toList, 0⟩]
            ++ [⟨none, .group "b".toList, "( b )".toList, 2⟩], 0) := by decide +kernel
  have hcount : ([(⟨none, .tag "a".toList, "a".toList, 0⟩ : Token)].foldlM
      (brimfulCompiler.addNext
        (brimfulCompiler.inside ((Level.root brimfulCompiler.settings).deeper 0))
        ((Level.root brimfulCompiler.settings).deeper 0)) {}).toOption.map Query.tagCount
        = some 1 := by decide +kernel
  obtain ⟨q, hq, hone⟩ := Option.map_eq_some_iff.mp hcount
  have hmidway : brimfulCompiler.Midway (Level.root brimfulCompiler.settings) "a ( b )".toList 0 q
      [⟨none, .group "b".toList, "( b )".toList, 2⟩] := ⟨_, hhoist, ok_of_toOption hq⟩
  have hvisits := Visits.group .root hmidway rfl rfl (by decide +kernel)
  obtain ⟨-, -, -, -, hcounts⟩ := (hlevels _ _ .root).2 _ _ _ hmidway
  have hsum : q.tagCount + (Level.root brimfulCompiler.settings).freeTags = Config.maxNat64 := by
    rw [hone]
    rfl
  exact ⟨q, _, hmidway, (hcounts _ _ rfl).1, hsum, hvisits, hsum, (hlevels _ _ hvisits).1⟩

end Compiler

end TagSearch
