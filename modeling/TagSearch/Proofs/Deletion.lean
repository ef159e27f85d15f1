import TagSearch.Proofs.Depth
import TagSearch.Proofs.Naming

/-!
# Deleted posts

Whether deleted posts are hidden is decided in two ways: from the text of a search, where metatags
are matched as they are written, and from the query that it compiles to, where they have become
fields. The two decisions are meant to be one. They are not for every search
(`compile_hidesDeleted_fails`): compiling takes a name in any case, and it cleans and reads the
inside of each group anew.

`compile_hidesDeleted` says that this is all there is to it. Where every group reads alike as part
of the search and on its own, a query asks for what the leaves of its search ask for, whatever was
hoisted and unwrapped (`compileLevel_concernsDeletion`), and so does the lookup.
-/

namespace TagSearch

open Text Lexer

namespace Compiler

variable {c : Compiler}

/-! ## Levels -/

/-- The inside of a group is known to ask for posts by their deletion, or not to, whether it is
compiled or only looked up. -/
structure GroupAsks (build? : Option Build) (source : Text) (asks : Bool) : Prop where
  opens : build? ≠ none
  counted : Lookup.hidesDeleted source false = !asks
  built : ∀ build ∈ build?, ∀ free inner, build free source = .ok inner →
    inner.concernsDeletion = asks

/-- **One more token adds to what a query asks for what the leaves of the token do.** -/
theorem Added.concernsDeletion {build? : Option Build} {level : Level} {q q' : Query}
    {token : Token} (hover : ∀ build ∈ build?, c.SaysOverrun build)
    (hgroup : ∀ source, token.group? = some source →
      GroupAsks build? source ((leavesIn [token]).any Token.asksDeletion))
    (h : c.Added build? level q token q') (hfits : q'.tagCount ≤ c.budget level)
    (hq : q.fields.StatusRecognized) : q'.fields.StatusRecognized
      ∧ q'.concernsDeletion
          = (q.concernsDeletion || (leavesIn [token]).any Token.asksDeletion) := by
  cases h with
  | leaf hleaf hadd =>
    have hbody : ∀ source, token.body ≠ .group source := by
      intro source hbody
      simp [Token.group?, hbody] at hleaf
    rw [leavesIn_leaf hbody, List.any_cons, List.any_nil, Bool.or_false]
    exact addToken_concernsDeletion hq hadd
  | counted hsource =>
    refine ⟨hq, ?_⟩
    rw [Query.concernsDeletion_pushGroup, GroupEntry.concernsDeletion, (hgroup _ hsource).counted,
      Bool.not_not, Query.concernsDeletion_charge]
  | built hsource _ hbuild? hinner =>
    refine ⟨hq, ?_⟩
    rw [Query.concernsDeletion_pushGroup, GroupEntry.concernsDeletion,
      (hgroup _ hsource).built _ hbuild? _ _ hinner, Query.concernsDeletion_charge]
  | overrun _ _ hbuild? hinner =>
    exact absurd hfits (Nat.not_le_of_lt (overrun_of_child (hover _ hbuild? _ _ _ _ hinner)))
  | cut hsource _ hbuild? => exact absurd hbuild? (hgroup _ hsource).opens

/-- **A level asks for what its leaves ask for.** -/
theorem foldlM_concernsDeletion {build? : Option Build} {level : Level} {tokens : List Token}
    {q q' : Query} (hover : ∀ build ∈ build?, c.SaysOverrun build)
    (hgroup : ∀ token ∈ tokens, ∀ source, token.group? = some source →
      GroupAsks build? source ((leavesIn [token]).any Token.asksDeletion))
    (hq : q.fields.StatusRecognized) (h : tokens.foldlM (c.addNext build? level) q = .ok q') :
    q'.concernsDeletion = (q.concernsDeletion || (leavesIn tokens).any Token.asksDeletion) := by
  induction tokens generalizing q with
  | nil =>
    cases h
    exact (Bool.or_false _).symm
  | cons token rest ih =>
    rw [List.forall_mem_cons] at hgroup
    rw [List.foldlM_cons] at h
    obtain ⟨next, hnext, h⟩ := exists_ok_of_bind h
    obtain ⟨hadded, hfits⟩ := added_of_addNext hnext
    obtain ⟨hrecognized, hasks⟩ := hadded.concernsDeletion hover hgroup.1 hfits hq
    rw [ih hgroup.2 hrecognized h, hasks, leavesIn_cons token rest, List.any_append, Bool.or_assoc]

/-- What a level must be given for the two decisions to agree on it: a clean text whose groups fit,
stay what they are when they are written anew, and have the metatags about deletion in lowercase. -/
structure ReadsAlike (remaining : Nat) (t : Text) : Prop where
  clean : IsClean t
  solid : StartsSolid t ∧ EndsSolid t
  apart : LiftsApart Hoist.defaultNames (tokenize t)
  depth : depthIn (tokenize t) ≤ remaining
  lower : ∀ leaf ∈ leavesIn (tokenize t), leaf.inLowercase = true

/-- A group of what is hoisted is such a level again. -/
theorem ReadsAlike.group {remaining groups : Nat} {t inside source : Text} {result : List Token}
    {token : Token} (h : ReadsAlike remaining t) (hunwraps : Unwraps groups t inside)
    (hhoisted : HoistedFrom Hoist.defaultNames (remaining - groups) (tokenize inside) result)
    (htoken : token ∈ result) (hbody : token.body = .group source) :
    ReadsAlike (remaining - groups - 1) source ∧ 1 ≤ remaining - groups := by
  have hgroup : token.isGroup = true := Token.isGroup_iff.mpr ⟨source, hbody⟩
  have hstands := hhoisted.stands_group (fun _ => stands_group_of_mem) token htoken hgroup
  have hread := hstands.reads startsBlank_nil (by simp)
  have hdepth : depthIn (tokenize source) + 1 ≤ remaining - groups := by
    have h1 := h.depth
    have h2 := hunwraps.depthIn_eq
    have h3 := hhoisted.depthIn_le
    have h4 := depthIn_le htoken
    rw [depthIn_group hbody] at h4
    omega
  refine ⟨⟨?_, hstands.solid_source hbody, ?_, by omega, ?_⟩, by omega⟩
  · refine h.clean.of_pieces fun hP hPt => hP.source hread hstands.text_ne_nil hbody ?_
    have hinside := hunwraps.pieces hP hPt
    exact hhoisted.pieces hP (fun _ => hP.of_mem_tokensFrom hinside) token htoken
  · intro inner hinner _ hsome
    obtain ⟨leaf, hleaf, hishoisted⟩ := List.any_eq_true.mp hsome
    have hnone := hhoisted.holds_none token htoken hgroup
    rw [leavesIn_group hbody, List.any_eq_false] at hnone
    exact absurd hishoisted (hnone leaf (mem_leavesIn.mpr ⟨inner, hinner, hleaf⟩))
  · intro leaf hleaf
    rw [← leavesIn_group hbody] at hleaf
    refine h.lower leaf ?_
    rw [hunwraps.leavesIn_eq]
    exact hhoisted.mem_of_mem leaf (mem_leavesIn.mpr ⟨token, htoken, hleaf⟩)

/-- Both ways to decide about a group of a level come to what its leaves ask for. -/
theorem groupAsks_inside {level : Level} {source : Text} (hreached : level.IsReached)
    (hroom : 1 ≤ level.remaining) (hsource : ReadsAlike (level.remaining - 1) source)
    (ih : ∀ free q, c.compileLevel (level.child free) source = .ok q →
      q.concernsDeletion = (leavesIn (tokenize source)).any Token.asksDeletion) :
    GroupAsks (c.inside level) source ((leavesIn (tokenize source)).any Token.asksDeletion) where
  opens := by simp [inside, Level.exceeds_of_remaining hroom]
  counted := by
    have hclean := cleanSearch_eq_self hsource.clean hsource.solid.1 hsource.solid.2
    have hdepth : depthIn (tokenize (cleanSearch source)) ≤ maxDepth := by
      have hdepth := hsource.depth
      have hlimit := hreached.remaining_le
      rw [hclean]
      omega
    rw [Lookup.hidesDeleted_eq hdepth, hclean, any_namesDeletion hsource.lower, Bool.not_false,
      Bool.true_and]
  built build hbuild free inner hinner := by
    obtain ⟨-, rfl⟩ := c.of_mem_inside hbuild
    exact ih free inner hinner

/-- **A compiled level asks for posts by their deletion if one of its leaves does.** -/
theorem compileLevel_concernsDeletion (hnames : c.settings.hoistedNames = Hoist.defaultNames)
    (level : Level) : level.IsReached → ∀ t : Text, ReadsAlike level.remaining (cleanSearch t) →
      ∀ q, c.compileLevel level t = .ok q →
        q.concernsDeletion = (leavesIn (tokenize (cleanSearch t))).any Token.asksDeletion := by
  induction level using Level.descend with
  | step level ih =>
    intro hreached t ht q h
    obtain ⟨result, unwrapped, reached, hhoist, hfold, rfl⟩ := c.exists_of_compileLevel h
    rw [Hoist.hoist, hoistOptions_limit hreached] at hhoist
    obtain ⟨groups, inside, hunwraps, hle, hcount, hends⟩ := hoistText_unwraps _ _ _ _ hhoist
    have hunwrapped : unwrapped = groups := by omega
    subst hunwrapped
    have hdepth := hunwraps.depthIn_eq
    have hfit := ht.depth
    rw [finished_concernsDeletion, hunwraps.leavesIn_eq]
    cases hends with
    | nothing hnothing =>
      cases hfold
      rw [leavesIn_holdsNothing hnothing]
      rfl
    | tooDeep hlast htokens =>
      rw [htokens, depthIn_group rfl] at hdepth
      omega
    | @level found hsome _ hfound =>
      have hoptions : (c.hoistOptions level).names = Hoist.defaultNames := hnames
      have hhoisted := hoistedFrom_of_mapM (hoptions ▸ hunwraps.liftsApart ht.apart) hfound
      rw [hoptions] at hhoisted
      rw [foldlM_concernsDeletion (fun build hbuild => inside_saysOverrun hbuild) ?_ ?_ hfold,
        hhoisted.any_leavesIn (by omega) fun leaf => Token.asksDeletion_of_isHoisted]
      · rfl
      · intro token htoken source hsource
        have hbody := Token.group?_eq_some.mp hsource
        obtain ⟨halike, hroom⟩ := ht.group hunwraps hhoisted htoken hbody
        rw [← Level.remaining_deeper] at halike hroom
        rw [leavesIn_group hbody]
        have hreached := hreached.deeper unwrapped
        refine groupAsks_inside hreached hroom halike fun free q hq => ?_
        have hclean := cleanSearch_eq_self halike.clean halike.solid.1 halike.solid.2
        rw [← Level.remaining_child _ free, ← hclean] at halike
        have hinner := ih unwrapped free (Level.exceeds_of_remaining hroom) (hreached.child free)
          source halike q hq
        rwa [hclean] at hinner
      · simp [Fields.StatusRecognized, Fields.get?, Fields.lookup]

/-- **The compiled query and the text of the search agree about deleted posts**, whether groups are
compiled or only counted. That is so if the groups fit the limit, there is no NUL that reading a
group on its own could uncover, no token that starts with `)` stands in a group that something is
hoisted from, and the metatags about deletion are written in lowercase. -/
theorem compile_hidesDeleted (c : Compiler) (q : Text)
    (hnames : c.settings.hoistedNames = Hoist.defaultNames)
    (hdepth : Tree.depthOf (Tree.ofText (cleanSearch q)) ≤ c.settings.depth)
    (hnul : '\x00' ∉ cleanSearch q)
    (hapart : ∀ token ∈ tokenize (cleanSearch q),
      token.held.any (Hoist.isHoisted Hoist.defaultNames) = true →
        ∀ inner ∈ token.held, inner.text.head? ≠ some ')')
    (hlower : ∀ token ∈ Tree.tokensOf (Tree.ofText (cleanSearch q)), token.inLowercase = true)
    {built : Query} (h : c.compile q = .ok built) (alwaysShow : Bool) :
    built.hidesDeleted alwaysShow = Lookup.hidesDeleted q alwaysShow := by
  rw [Tree.ofText_eq] at hdepth hlower
  have hreached := Level.isReached_root c.settings
  have halike : ReadsAlike (Level.root c.settings).remaining (cleanSearch q) :=
    { clean := ⟨compose_cleanSearch q, fun c hc he => hnul (he ▸ hc)⟩
      solid := solid_cleanSearch q
      apart := by
        intro token htoken hgroup hsome leaf hleaf
        rw [Token.leavesIn_held hgroup] at hsome hleaf
        obtain ⟨inner, hinner, rfl⟩ := List.mem_map.mp hleaf
        rw [List.any_map] at hsome
        exact hapart token htoken hsome inner hinner
      depth := hdepth
      lower := by
        intro leaf hleaf
        obtain ⟨token, htoken, rfl⟩ := List.mem_map.mp hleaf
        exact hlower token htoken }
  have hmax : depthIn (tokenize (cleanSearch q)) ≤ maxDepth :=
    Nat.le_trans halike.depth hreached.remaining_le
  rw [Query.hidesDeleted, Lookup.hidesDeleted_eq hmax, any_namesDeletion halike.lower,
    compileLevel_concernsDeletion hnames _ hreached q halike built h]

/-- A reason for a deletion, two groups deep, next to a metatag that is hoisted. -/
theorem compile_hidesDeleted_nested :
    ∃ built, groupCompiler.compile "aaa -( order:score ( delreason:\"b c\" ) )".toList = .ok built
      ∧ built.hidesDeleted false = false := by
  have hlower : (Tree.tokensOf (Tree.ofText (cleanSearch
      "aaa -( order:score ( delreason:\"b c\" ) )".toList))).all Token.inLowercase = true := by
    decide +kernel
  have hapart : (tokenize (cleanSearch "aaa -( order:score ( delreason:\"b c\" ) )".toList)).all
      (fun token => decide (token.held.any (Hoist.isHoisted Hoist.defaultNames) = true →
        ∀ inner ∈ token.held, inner.text.head? ≠ some ')')) = true := by
    decide +kernel
  cases hbuilt : groupCompiler.compile "aaa -( order:score ( delreason:\"b c\" ) )".toList with
  | error e =>
    have hok : (groupCompiler.compile
        "aaa -( order:score ( delreason:\"b c\" ) )".toList).toBool = true := by decide +kernel
    rw [hbuilt] at hok
    cases hok
  | ok built =>
    refine ⟨built, rfl, ?_⟩
    rw [compile_hidesDeleted groupCompiler _ rfl (by decide +kernel) (by decide +kernel)
      (fun token htoken => of_decide_eq_true (List.all_eq_true.mp hapart token htoken))
      (List.all_eq_true.mp hlower) hbuilt false]
    decide +kernel

/-- **The two decisions do not agree for every search**: a name in capitals is found when the search
is compiled, and is not when it is looked up. -/
theorem compile_hidesDeleted_fails :
    ¬ ∀ (c : Compiler) (q : Text) (built : Query),
      c.settings.hoistedNames = Hoist.defaultNames →
      Tree.depthOf (Tree.ofText (cleanSearch q)) ≤ c.settings.depth →
      c.compile q = .ok built →
      ∀ alwaysShow, built.hidesDeleted alwaysShow = Lookup.hidesDeleted q alwaysShow := by
  intro h
  have hcompiled : ((({ now := ⟨0⟩ } : Compiler).compile "STATUS:deleted".toList).toOption.map
      fun built => built.hidesDeleted false) = some false := by
    decide +kernel
  cases hbuilt : ({ now := ⟨0⟩ } : Compiler).compile "STATUS:deleted".toList with
  | error e =>
    rw [hbuilt] at hcompiled
    cases hcompiled
  | ok built =>
    have hlookup : Lookup.hidesDeleted "STATUS:deleted".toList false = true := by decide +kernel
    have hagree := h _ _ built rfl (by decide +kernel) hbuilt false
    rw [hbuilt] at hcompiled
    exact Bool.false_ne_true ((Option.some.inj hcompiled).symm.trans (hagree.trans hlookup))

-- A NUL in front of a name is part of it, and is trimmed away once the group is read on its own.
example : ((groupCompiler.compile "z ( \x00status:deleted )".toList).toOption.map
      fun built => built.hidesDeleted false) = some false
    ∧ Lookup.hidesDeleted "z ( \x00status:deleted )".toList false = true := by
  decide +kernel

-- Hoisting `order:x` writes a space in front of the `)` that closed nothing before.
example : ((groupCompiler.compile "z ( order:x a:\"q\")status:deleted b )".toList).toOption.map
      fun built => built.hidesDeleted false) = some false
    ∧ Lookup.hidesDeleted "z ( order:x a:\"q\")status:deleted b )".toList false = true := by
  decide +kernel

end Compiler

end TagSearch
