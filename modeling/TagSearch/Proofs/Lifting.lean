import TagSearch.Proofs.Cleaning

/-!
# Hoisting from any text

On forests hoisting is a rewrite. On other texts, with parentheses that close nothing and quotes
that are left open, it still is one as far as the tokens inside groups stand, and those that the
lexer has found there do. What lifting leaves of a level is a list of tokens again:

* `Remains`: the tokens that are left, which stand side by side, and whose leaves are the leaves of
  the level that are not hoisted. `liftTrees_remains` says that there always are such tokens.
* `HoistedFrom`: what hoisting makes of a level. It keeps every leaf that it does not hoist, and no
  group of the result holds anything to be hoisted.
-/

namespace TagSearch

open Text Lexer

/-! ## Leaves and depth of a level -/

/-- The tokens of a level that are not groups, at any depth, wherever they start. -/
def leavesIn (tokens : List Token) : List Token :=
  (Tree.tokensOf (tokens.map Tree.ofToken)).map Token.atStart

/-- The number of groups in the deepest nest of a level. -/
def depthIn (tokens : List Token) : Nat :=
  Tree.depthOf (tokens.map Tree.ofToken)

@[simp] theorem leavesIn_nil : leavesIn [] = [] := rfl

@[simp] theorem depthIn_nil : depthIn [] = 0 := rfl

@[simp] theorem Token.atStart_text (token : Token) : token.atStart.text = token.text := rfl

theorem Tree.ofToken_leaf {token : Token} (h : ∀ source, token.body ≠ .group source) :
    Tree.ofToken token = .leaf token := by
  unfold Tree.ofToken
  split
  · next source hbody => exact absurd hbody (h source)
  · rfl

theorem Tree.ofToken_group {token : Token} {source : Text} (h : token.body = .group source) :
    Tree.ofToken token = .group token ((tokenize source).map Tree.ofToken) := by
  rw [← Tree.ofText_eq, Tree.ofToken, h]

/-- The tree of a token tells the token, and of a group what it holds. -/
theorem Tree.ofToken_eq_leaf {token leaf : Token} (h : Tree.ofToken token = .leaf leaf) :
    token = leaf ∧ ∀ source, token.body ≠ .group source := by
  have hbody : ∀ source, token.body ≠ .group source := by
    intro source hbody
    rw [Tree.ofToken_group hbody] at h
    cases h
  rw [Tree.ofToken_leaf hbody] at h
  cases h
  exact ⟨rfl, hbody⟩

theorem Tree.ofToken_eq_group {token group : Token} {children : List Tree}
    (h : Tree.ofToken token = .group group children) :
    token = group ∧ ∃ source, token.body = .group source
      ∧ children = (tokenize source).map Tree.ofToken := by
  obtain ⟨source, hbody⟩ : ∃ source, token.body = .group source := by
    by_contra hbody
    rw [Tree.ofToken_leaf (not_exists.mp hbody)] at h
    cases h
  rw [Tree.ofToken_group hbody] at h
  cases h
  exact ⟨rfl, source, hbody, rfl⟩

theorem leavesIn_cons (token : Token) (rest : List Token) :
    leavesIn (token :: rest) = leavesIn [token] ++ leavesIn rest := by
  simp [leavesIn, Tree.tokensOf]

theorem leavesIn_append (first second : List Token) :
    leavesIn (first ++ second) = leavesIn first ++ leavesIn second := by
  induction first with
  | nil => rfl
  | cons token rest ih =>
    rw [List.cons_append, leavesIn_cons, ih, leavesIn_cons token rest, List.append_assoc]

theorem leavesIn_leaf {token : Token} (h : ∀ source, token.body ≠ .group source) :
    leavesIn [token] = [token.atStart] := by
  simp [leavesIn, Tree.ofToken_leaf h, Tree.tokensOf, Tree.tokens]

theorem leavesIn_group {token : Token} {source : Text} (h : token.body = .group source) :
    leavesIn [token] = leavesIn (tokenize source) := by
  simp [leavesIn, Tree.ofToken_group h, Tree.tokensOf, Tree.tokens]

theorem leavesIn_atStart (token : Token) : leavesIn [token.atStart] = leavesIn [token] := by
  by_cases h : ∀ source, token.body ≠ .group source
  · rw [leavesIn_leaf h, @leavesIn_leaf token.atStart h]
    rfl
  · obtain ⟨source, hbody⟩ := not_forall_not.mp h
    rw [leavesIn_group hbody, @leavesIn_group token.atStart source hbody]

theorem leavesIn_map_atStart (tokens : List Token) :
    leavesIn (tokens.map Token.atStart) = leavesIn tokens := by
  induction tokens with
  | nil => rfl
  | cons token rest ih => rw [List.map_cons, leavesIn_cons, leavesIn_atStart, ih, ← leavesIn_cons]

theorem mem_leavesIn {tokens : List Token} {leaf : Token} :
    leaf ∈ leavesIn tokens ↔ ∃ token ∈ tokens, leaf ∈ leavesIn [token] := by
  induction tokens with
  | nil => simp
  | cons token rest ih => rw [leavesIn_cons, List.mem_append, ih]; simp

theorem depthIn_cons (token : Token) (rest : List Token) :
    depthIn (token :: rest) = max (depthIn [token]) (depthIn rest) := by
  simp [depthIn, Tree.depthOf]

theorem depthIn_append (first second : List Token) :
    depthIn (first ++ second) = max (depthIn first) (depthIn second) := by
  induction first with
  | nil => simp
  | cons token rest ih =>
    rw [List.cons_append, depthIn_cons, ih, depthIn_cons token rest, max_assoc]

theorem depthIn_le {tokens : List Token} {token : Token} (h : token ∈ tokens) :
    depthIn [token] ≤ depthIn tokens := by
  obtain ⟨before, after, rfl⟩ := List.append_of_mem h
  rw [depthIn_append, depthIn_cons token after]
  omega

theorem depthIn_leaf {token : Token} (h : ∀ source, token.body ≠ .group source) :
    depthIn [token] = 0 := by
  simp [depthIn, Tree.ofToken_leaf h, Tree.depthOf, Tree.depth]

theorem depthIn_leaves {tokens : List Token}
    (h : ∀ token ∈ tokens, ∀ source, token.body ≠ .group source) : depthIn tokens = 0 := by
  induction tokens with
  | nil => rfl
  | cons token rest ih =>
    rw [List.forall_mem_cons] at h
    rw [depthIn_cons, depthIn_leaf h.1, ih h.2]
    rfl

theorem depthIn_group {token : Token} {source : Text} (h : token.body = .group source) :
    depthIn [token] = depthIn (tokenize source) + 1 := by
  simp [depthIn, Tree.ofToken_group h, Tree.depthOf, Tree.depth]

theorem depthIn_atStart (token : Token) : depthIn [token.atStart] = depthIn [token] := by
  by_cases h : ∀ source, token.body ≠ .group source
  · rw [depthIn_leaf h, @depthIn_leaf token.atStart h]
  · obtain ⟨source, hbody⟩ := not_forall_not.mp h
    rw [depthIn_group hbody, @depthIn_group token.atStart source hbody]

theorem depthIn_map_atStart (tokens : List Token) :
    depthIn (tokens.map Token.atStart) = depthIn tokens := by
  induction tokens with
  | nil => rfl
  | cons token rest ih => rw [List.map_cons, depthIn_cons, depthIn_atStart, ih, ← depthIn_cons]

/-- What holds of the tokens of a level, and passes from a group to the tokens in it, holds of the
leaves. These are no groups. -/
theorem forall_leavesIn {Q : Token → Prop} (hstart : ∀ token, Q token → Q token.atStart)
    (hgroup : ∀ {token source}, Q token → token.body = .group source →
      ∀ inner ∈ tokenize source, Q inner) {tokens : List Token} (h : ∀ token ∈ tokens, Q token) :
    ∀ leaf ∈ leavesIn tokens, Q leaf ∧ ∀ source, leaf.body ≠ .group source := by
  intro leaf hleaf
  obtain ⟨token, htoken, hleaf⟩ := mem_leavesIn.mp hleaf
  by_cases hbody : ∀ source, token.body ≠ .group source
  · rw [leavesIn_leaf hbody, List.mem_singleton] at hleaf
    exact hleaf ▸ ⟨hstart token (h token htoken), hbody⟩
  · obtain ⟨source, hbody⟩ := not_forall_not.mp hbody
    have hlt : depthIn (tokenize source) < depthIn tokens := by
      have hle := depthIn_le htoken
      rw [depthIn_group hbody] at hle
      omega
    rw [leavesIn_group hbody] at hleaf
    exact forall_leavesIn hstart hgroup (hgroup (h token htoken) hbody) leaf hleaf
termination_by depthIn tokens

theorem body_ne_group_of_mem_leavesIn {tokens : List Token} {leaf : Token}
    (h : leaf ∈ leavesIn tokens) : ∀ source, leaf.body ≠ .group source :=
  (forall_leavesIn (Q := fun _ => True) (fun _ _ => trivial) (fun _ _ _ _ => trivial)
    (fun _ _ => trivial) leaf h).2

theorem Token.stands_atStart {token : Token} {loud : Prop} :
    token.atStart.Stands loud ↔ token.Stands loud :=
  ⟨fun h => ⟨h.text_ne_nil, h.startsSolid, fun hblank hq => h.reads hblank hq⟩,
    fun h => ⟨h.text_ne_nil, h.startsSolid, fun hblank hq => h.reads hblank hq⟩⟩

/-- The leaves of tokens that stand do so as well, and have what passes from the text of a group to
the tokens in it. -/
theorem forall_stands_leavesIn {R : Text → Prop}
    (hgroup : ∀ {token : Token} {source}, token.Stands False → token.body = .group source →
      R token.text → ∀ inner ∈ tokenize source, R inner.text) {tokens : List Token}
    (h : ∀ token ∈ tokens, token.Stands False ∧ R token.text) :
    ∀ leaf ∈ leavesIn tokens, leaf.Stands False ∧ R leaf.text := by
  intro leaf hleaf
  refine (forall_leavesIn (fun token h => ⟨Token.stands_atStart.mpr h.1, h.2⟩) ?_ h leaf hleaf).1
  rintro token source ⟨hstands, hR⟩ hbody inner hinner
  exact ⟨(hstands.settled hbody 0).stands hinner, hgroup hstands hbody hR inner hinner⟩

theorem Token.Stands.leaf {token leaf : Token} {loud : Prop} (h : token.Stands loud)
    (hleaf : leaf ∈ leavesIn [token]) : leaf.Stands False :=
  (forall_stands_leavesIn (R := fun _ => True) (fun _ _ _ _ _ => trivial)
    (by simpa using h.imp False.elim) leaf hleaf).1

theorem Piecewise.leaf {P : Text → Prop} (hP : Piecewise P) {token leaf : Token} {loud : Prop}
    (h : token.Stands loud) (htext : P token.text) (hleaf : leaf ∈ leavesIn [token]) :
    P leaf.text := by
  refine (forall_stands_leavesIn ?_
    (by simpa using ⟨h.imp False.elim, htext⟩) leaf hleaf).2
  intro token source hstands hbody htext inner hinner
  have hread := hstands.reads startsBlank_nil (by simp)
  exact hP.of_mem_tokensFrom (hP.source hread hstands.text_ne_nil hbody htext) hinner

/-! ## What is to be hoisted -/

mutual

theorem holdsHoisted_eq (names : List Text) : ∀ tree : Tree,
    Hoist.holdsHoisted names tree = tree.tokens.any (Hoist.isHoisted names)
  | .leaf token => by simp [Hoist.holdsHoisted, Tree.tokens]
  | .group token children => by
    rw [Hoist.holdsHoisted, Tree.tokens, anyHoisted_eq names children]

theorem anyHoisted_eq (names : List Text) : ∀ trees : List Tree,
    Hoist.anyHoisted names trees = (Tree.tokensOf trees).any (Hoist.isHoisted names)
  | [] => rfl
  | tree :: rest => by
    rw [Hoist.anyHoisted, Tree.tokensOf, List.any_append, holdsHoisted_eq names tree,
      anyHoisted_eq names rest]

end

/-- Whether there is anything to be hoisted shows in the leaves. -/
theorem anyHoisted_ofToken (names : List Text) (tokens : List Token) :
    Hoist.anyHoisted names (tokens.map Tree.ofToken)
      = (leavesIn tokens).any (Hoist.isHoisted names) := by
  rw [anyHoisted_eq, leavesIn, List.any_map]
  rfl

/-! ## Groups written anew -/

theorem Settled.laid {loud : Prop} : ∀ {tokens : List Token}, Settled loud tokens → Laid tokens
  | [], _ => trivial
  | _ :: _, h => ⟨Or.inl (h.1.imp Or.inr), h.2.laid⟩

theorem Settled.append {loud loud' : Prop} {second : List Token} (hsecond : Settled loud second)
    (hloud : (loud ∨ ∃ other ∈ second, '"' ∈ other.text) → loud') :
    ∀ {first : List Token}, Settled loud' first → Settled loud (first ++ second)
  | [], _ => hsecond
  | token :: rest, h => by
    refine ⟨h.1.imp ?_, hsecond.append hloud h.2⟩
    rintro (hq | ⟨other, hother, hq⟩)
    · exact Or.inl (hloud (Or.inl hq))
    · rcases List.mem_append.mp hother with hother | hother
      · exact Or.inr ⟨other, hother, hq⟩
      · exact Or.inl (hloud (Or.inr ⟨other, hother, hq⟩))

theorem settled_singleton {loud : Prop} {token : Token} :
    Settled loud [token] ↔ token.Stands loud := by
  simp [Settled]

/-- A group that is written around tokens has their leaves. -/
theorem leavesIn_ofGroup {tokens : List Token} (h : Laid tokens) (modifier : Option Modifier) :
    leavesIn [Token.ofGroup modifier tokens] = leavesIn tokens := by
  rw [leavesIn_group rfl, ← leavesIn_map_atStart, tokenize_unwords h, leavesIn_map_atStart]

theorem depthIn_ofGroup {tokens : List Token} (h : Laid tokens) (modifier : Option Modifier) :
    depthIn [Token.ofGroup modifier tokens] = depthIn tokens + 1 := by
  rw [depthIn_group rfl, ← depthIn_map_atStart, tokenize_unwords h, depthIn_map_atStart]

theorem quote_mem_ofGroup {modifier : Option Modifier} {tokens : List Token}
    (hne : ∀ token ∈ tokens, token.text ≠ [])
    (h : '"' ∈ (Token.ofGroup modifier tokens).text) : ∃ token ∈ tokens, '"' ∈ token.text := by
  have htexts : ∀ text ∈ tokens.map Token.text, text ≠ [] := by simpa using hne
  have hmodifier : '"' ∉ Modifier.text modifier := by
    rcases modifier with _ | _ | _ <;> decide
  rw [Token.ofGroup, renderGroup_eq htexts] at h
  simpa [hmodifier] using h

/-- The characters inside a group are characters of the group. -/
theorem Token.Stands.mem_of_mem_source {token : Token} {loud : Prop} (h : token.Stands loud)
    {source : Text} (hbody : token.body = .group source) {c : Char} (hc : c ∈ source) :
    c ∈ token.text := by
  obtain ⟨inside, htext, rfl, -⟩ :=
    (h.reads startsBlank_nil (by simp)).exists_group h.text_ne_nil hbody
  have hinside : c ∈ inside := mem_of_mem_trimBy hc
  simp [htext, hinside]

/-- A token starts with `)` only if it is a leaf that does. -/
theorem Token.Stands.head_ne_closing {token : Token} {loud : Prop} (h : token.Stands loud)
    (hclosing : ∀ leaf ∈ leavesIn [token], leaf.text.head? ≠ some ')') :
    token.text.head? ≠ some ')' := by
  by_cases hbody : ∀ source, token.body ≠ .group source
  · rw [leavesIn_leaf hbody] at hclosing
    exact hclosing token.atStart (by simp)
  · obtain ⟨source, hbody⟩ := not_forall_not.mp hbody
    obtain ⟨inside, htext, -, -⟩ :=
      (h.reads startsBlank_nil (by simp)).exists_group h.text_ne_nil hbody
    rw [htext]
    rcases token.modifier with _ | _ | _ <;> simp [Modifier.text, Modifier.toChar]

/-! ## Lifting -/

/-- Lifting from the tokens of a level, in a group `nesting` groups deep, has left some tokens: they
stand side by side, and their leaves are those of the level that are not hoisted, all of them if no
group is past the limit. -/
structure Remains (names : List Text) (remaining nesting : Nat) (loud : Prop) (tokens : List Token)
    (lifted : Hoist.Lifted) (left : List Token) : Prop where
  texts : lifted.left = left.map Token.text
  origin : ∀ token ∈ left, token ∈ tokens
    ∨ ∃ group ∈ tokens, group.isGroup = true ∧ ∃ inner, token = Token.ofGroup group.modifier inner
  settled : Settled loud left
  closing : ∀ token ∈ left, token.text.head? ≠ some ')'
  quotes : (∃ token ∈ left, '"' ∈ token.text) → ∃ token ∈ tokens, '"' ∈ token.text
  pieces : ∀ {P : Text → Prop}, Piecewise P → (∀ token ∈ tokens, P token.text) →
    ∀ token ∈ left, P token.text
  taken : ∀ token ∈ lifted.tokens, token.atStart ∈ leavesIn tokens
    ∧ Hoist.isHoisted names token = true
  kept : ∀ leaf ∈ leavesIn left, leaf ∈ leavesIn tokens ∧ Hoist.isHoisted names leaf = false
  complete : nesting + depthIn tokens ≤ remaining →
    ∀ leaf ∈ leavesIn tokens, Hoist.isHoisted names leaf = false → leaf ∈ leavesIn left
  depth : depthIn left ≤ depthIn tokens

namespace Remains

variable {names : List Text} {remaining nesting : Nat} {loud : Prop}

theorem nil : Remains names remaining nesting loud [] {} [] where
  texts := rfl
  origin := by simp
  settled := trivial
  closing := by simp
  quotes := by simp
  pieces := by simp
  taken := by simp
  kept := by simp
  complete := by simp
  depth := Nat.le_refl _

theorem cons {token : Token} {rest left lefts : List Token} {first others : Hoist.Lifted}
    {loud' : Prop} (hloud : (loud ∨ ∃ other ∈ rest, '"' ∈ other.text) → loud')
    (hfirst : Remains names remaining nesting loud' [token] first left)
    (hothers : Remains names remaining nesting loud rest others lefts) :
    Remains names remaining nesting loud (token :: rest)
      ⟨first.tokens ++ others.tokens, first.left ++ others.left⟩ (left ++ lefts) where
  texts := by rw [hfirst.texts, hothers.texts, List.map_append]
  origin := by
    rw [List.forall_mem_append]
    constructor
    · intro t ht
      exact (hfirst.origin t ht).imp (by simp +contextual) (by simp +contextual)
    · intro t ht
      refine (hothers.origin t ht).imp (List.mem_cons_of_mem _) ?_
      rintro ⟨group, hgroup, h⟩
      exact ⟨group, List.mem_cons_of_mem _ hgroup, h⟩
  settled := hothers.settled.append
    (fun h => hloud (h.imp_right fun hq => hothers.quotes hq)) hfirst.settled
  closing := List.forall_mem_append.mpr ⟨hfirst.closing, hothers.closing⟩
  quotes := by
    rintro ⟨t, ht, hq⟩
    rcases List.mem_append.mp ht with ht | ht
    · obtain ⟨other, hother, hq⟩ := hfirst.quotes ⟨t, ht, hq⟩
      exact ⟨other, by simp_all, hq⟩
    · obtain ⟨other, hother, hq⟩ := hothers.quotes ⟨t, ht, hq⟩
      exact ⟨other, List.mem_cons_of_mem _ hother, hq⟩
  pieces hP h := by
    rw [List.forall_mem_cons] at h
    exact List.forall_mem_append.mpr ⟨hfirst.pieces hP (by simpa using h.1), hothers.pieces hP h.2⟩
  taken := by
    rw [leavesIn_cons]
    refine List.forall_mem_append.mpr ⟨fun t ht => ?_, fun t ht => ?_⟩
    · exact (hfirst.taken t ht).imp_left (List.mem_append_left _)
    · exact (hothers.taken t ht).imp_left (List.mem_append_right _)
  kept := by
    rw [leavesIn_append, leavesIn_cons]
    refine List.forall_mem_append.mpr ⟨fun t ht => ?_, fun t ht => ?_⟩
    · exact (hfirst.kept t ht).imp_left (List.mem_append_left _)
    · exact (hothers.kept t ht).imp_left (List.mem_append_right _)
  complete hfit := by
    rw [depthIn_cons] at hfit
    rw [leavesIn_append, leavesIn_cons]
    refine List.forall_mem_append.mpr ⟨fun t ht hk => ?_, fun t ht hk => ?_⟩
    · exact List.mem_append_left _ (hfirst.complete (by omega) t ht hk)
    · exact List.mem_append_right _ (hothers.complete (by omega) t ht hk)
  depth := by
    have h1 := hfirst.depth
    have h2 := hothers.depth
    rw [depthIn_append, depthIn_cons token rest]
    omega

theorem leafTaken {token : Token} (hbody : ∀ source, token.body ≠ .group source)
    (h : Hoist.isHoisted names token = true) :
    Remains names remaining nesting loud [token] { tokens := [token] } [] where
  texts := rfl
  origin := by simp
  settled := trivial
  closing := by simp
  quotes := by simp
  pieces := by simp
  taken := by simp [leavesIn_leaf hbody, h]
  kept := by simp
  complete _ leaf hleaf hk := by
    rw [leavesIn_leaf hbody, List.mem_singleton] at hleaf
    rw [hleaf] at hk
    exact absurd h (by rw [show Hoist.isHoisted names token = false from hk]; simp)
  depth := Nat.zero_le _

/-- A token without anything to be hoisted is left as it is. -/
theorem unchanged {token : Token} (hstands : token.Stands loud)
    (hclosing : token.text.head? ≠ some ')')
    (h : (leavesIn [token]).any (Hoist.isHoisted names) = false) :
    Remains names remaining nesting loud [token] { left := [token.text] } [token] where
  texts := rfl
  origin := by simp
  settled := settled_singleton.mpr hstands
  closing := by simpa using hclosing
  quotes := id
  pieces _ h := h
  taken := by simp
  kept leaf hleaf := ⟨hleaf, by simpa using List.any_eq_false.mp h leaf hleaf⟩
  complete _ leaf hleaf _ := hleaf
  depth := Nat.le_refl _

variable {token : Token} {source : Text} (hstands : token.Stands loud)
  (hbody : token.body = .group source)

include hstands hbody

/-- A group that loses metatags is written around what is left in it. -/
theorem groupRewritten {inner : Hoist.Lifted} {left : List Token}
    (h : Remains names remaining (nesting + 1) loud (tokenize source) inner left) :
    Remains names remaining nesting loud [token]
      ⟨inner.tokens, [renderGroup (Modifier.text token.modifier) inner.left]⟩
      [Token.ofGroup token.modifier left] where
  texts := by
    rw [h.texts]
    rfl
  origin := by simp [Token.isGroup, Token.group?, hbody]
  settled := settled_singleton.mpr (Token.stands_ofGroup h.settled h.closing _)
  closing := by simpa using Token.ofGroup_head token.modifier left
  quotes hq := by
    have hq : '"' ∈ (Token.ofGroup token.modifier left).text := by simpa using hq
    have hne : ∀ t ∈ left, t.text ≠ [] := fun t ht => (h.settled.stands ht).text_ne_nil
    obtain ⟨t, ht, hq⟩ := h.quotes (quote_mem_ofGroup hne hq)
    exact ⟨token, by simp, hstands.mem_of_mem_source hbody (mem_of_mem_tokensFrom ht hq)⟩
  pieces hP hall := by
    have hread := hstands.reads startsBlank_nil (by simp)
    have hsource := hP.source hread hstands.text_ne_nil hbody (by simpa using hall)
    have hleft := h.pieces hP fun t ht => hP.of_mem_tokensFrom hsource ht
    simpa using hP.ofGroup hleft token.modifier
  taken := by
    rw [leavesIn_group hbody]
    exact h.taken
  kept := by
    rw [leavesIn_ofGroup h.settled.laid, leavesIn_group hbody]
    exact h.kept
  complete hfit := by
    rw [depthIn_group hbody] at hfit
    rw [leavesIn_ofGroup h.settled.laid, leavesIn_group hbody]
    exact h.complete (by omega)
  depth := by
    rw [depthIn_ofGroup h.settled.laid, depthIn_group hbody]
    exact Nat.succ_le_succ h.depth

omit hstands in
/-- A group past the limit is written empty. -/
theorem groupCut (hdeep : ¬ nesting + 1 ≤ remaining) :
    Remains names remaining nesting loud [token]
      { left := [renderGroup (Modifier.text token.modifier) []] }
      [Token.ofGroup token.modifier []] where
  texts := rfl
  origin := by simp [Token.isGroup, Token.group?, hbody]
  settled := by
    have hnothing : Settled loud [] := trivial
    exact settled_singleton.mpr (Token.stands_ofGroup hnothing (by simp) _)
  closing := by simpa using Token.ofGroup_head token.modifier []
  quotes hq := by
    have hq : '"' ∈ (Token.ofGroup token.modifier []).text := by simpa using hq
    simpa using quote_mem_ofGroup (by simp) hq
  pieces hP _ := by simpa using @Piecewise.ofGroup _ hP [] (by simp) token.modifier
  taken := by simp
  kept := by
    rw [leavesIn_ofGroup (show Laid [] from trivial)]
    simp
  complete hfit := by
    rw [depthIn_group hbody] at hfit
    omega
  depth := by
    rw [depthIn_ofGroup (show Laid [] from trivial), depthIn_group hbody]
    simp

end Remains

variable (options : Hoist.Options) (limit remaining : Nat)

mutual

theorem liftTree_remains : ∀ (tree : Tree) (nesting : Nat) {loud : Prop} {token : Token}
    {lifted : Hoist.Lifted}, tree = Tree.ofToken token → token.Stands loud →
    token.text.head? ≠ some ')' → (∀ leaf ∈ leavesIn [token], leaf.text.head? ≠ some ')') →
    Hoist.liftTree options limit remaining nesting tree = .ok lifted →
    ∃ left, Remains options.names remaining nesting loud [token] lifted left
  | .leaf _, nesting, loud, token, lifted, htree, hstands, hhead, hclosing, h => by
    obtain ⟨rfl, hbody⟩ := Tree.ofToken_eq_leaf htree.symm
    rw [Hoist.liftTree] at h
    split at h
    · next hl =>
      cases h
      exact ⟨[], .leafTaken hbody hl⟩
    · next hl =>
      cases h
      refine ⟨_, .unchanged hstands hhead ?_⟩
      rw [leavesIn_leaf hbody, List.any_cons, List.any_nil, Bool.or_false]
      exact Bool.eq_false_iff.mpr hl
  | .group _ children, nesting, loud, token, lifted, htree, hstands, hhead, hclosing, h => by
    obtain ⟨rfl, source, hbody, hchildren⟩ := Tree.ofToken_eq_group htree.symm
    have hany : Hoist.anyHoisted options.names children
        = (leavesIn [token]).any (Hoist.isHoisted options.names) := by
      rw [hchildren, anyHoisted_ofToken, leavesIn_group hbody]
    rw [Hoist.liftTree, hany] at h
    split at h
    · split at h
      · obtain ⟨inner, hinner, h⟩ := exists_ok_of_bind h
        cases h
        rw [leavesIn_group hbody] at hclosing
        obtain ⟨left, hleft⟩ := liftTrees_remains children (nesting + 1) hchildren
          (hstands.settled hbody 0) hclosing hinner
        exact ⟨_, hleft.groupRewritten hstands hbody⟩
      · next hdeep =>
        split at h
        · cases h
        · cases h
          exact ⟨_, .groupCut hbody hdeep⟩
    · next hnone =>
      cases h
      exact ⟨_, .unchanged hstands hhead (Bool.eq_false_iff.mpr hnone)⟩

/-- **What lifting leaves of tokens that stand is tokens that stand.** -/
theorem liftTrees_remains : ∀ (trees : List Tree) (nesting : Nat) {loud : Prop}
    {tokens : List Token} {lifted : Hoist.Lifted}, trees = tokens.map Tree.ofToken →
    Settled loud tokens → (∀ leaf ∈ leavesIn tokens, leaf.text.head? ≠ some ')') →
    Hoist.liftTrees options limit remaining nesting trees = .ok lifted →
    ∃ left, Remains options.names remaining nesting loud tokens lifted left
  | [], nesting, loud, tokens, lifted, htrees, _, _, h => by
    rw [List.map_eq_nil_iff.mp htrees.symm]
    cases h
    exact ⟨[], .nil⟩
  | tree :: rest, nesting, loud, tokens, lifted, htrees, hsettled, hclosing, h => by
    obtain ⟨token, tokens, rfl, htree, hrest⟩ := List.map_eq_cons_iff.mp htrees.symm
    replace htree := htree.symm
    replace hrest := hrest.symm
    rw [Hoist.liftTrees] at h
    obtain ⟨first, hfirst, h⟩ := exists_ok_of_bind h
    obtain ⟨others, hothers, h⟩ := exists_ok_of_bind h
    cases h
    rw [leavesIn_cons, List.forall_mem_append] at hclosing
    obtain ⟨left, hleft⟩ := liftTree_remains tree nesting htree hsettled.1
      (hsettled.1.head_ne_closing hclosing.1) hclosing.1 hfirst
    obtain ⟨lefts, hlefts⟩ := liftTrees_remains rest nesting hrest hsettled.2 hclosing.2 hothers
    exact ⟨_, .cons id hleft hlefts⟩

end

/-! ## The tokens of a text -/

/-- Tokens as they are read from a text: each stands before those behind it, or is a lone `(`. -/
def Strung : List Token → Prop
  | [] => True
  | token :: rest =>
    (token.Stands (∃ other ∈ rest, '"' ∈ other.text) ∨ token.IsOpening) ∧ Strung rest

theorem Token.Reads.isOpening {token : Token} {rest : Text} (h : token.Reads rest)
    (hne : token.text ≠ []) (hbody : token.body = .tag ['(']) : token.IsOpening := by
  obtain ⟨body, -, htext, -, hread⟩ := (Token.reads_iff hne).mp h
  rw [Token.Reads.body_opening hread hbody] at htext
  exact ⟨hbody, htext⟩

/-- **The tokens of any text are strung.** -/
theorem strung_tokensFrom (offset : Nat) (t : Text) : Strung (tokensFrom offset t) := by
  fun_induction tokensFrom offset t with
  | case1 => trivial
  | case2 offset t c rest hd start read ih =>
    have hread := reads_readToken start (c :: rest)
    have hne := readToken_text_ne_nil (t := c :: rest) (by simp) start
    have hsolid : StartsSolid (readToken start (c :: rest)).1.text := by
      have hs := startsSolid_dropWhile t
      rw [hd, ← readToken_eq start (c :: rest)] at hs
      exact hs.of_append hne
    refine ⟨?_, ih⟩
    by_cases hopen : (readToken start (c :: rest)).1.body = .tag ['(']
    · exact Or.inr (hread.isOpening hne hopen)
    · refine Or.inl ((hread.stands hne hsolid hopen).imp ?_)
      rintro ⟨other, hother, hq⟩
      exact mem_of_mem_tokensFrom hother hq

theorem Strung.stands_or_opening : ∀ {tokens : List Token}, Strung tokens → ∀ token ∈ tokens,
    token.Stands False ∨ token.IsOpening
  | [], _ => by simp
  | _ :: _, h => List.forall_mem_cons.mpr
      ⟨h.1.imp_left fun hstands => hstands.imp False.elim, h.2.stands_or_opening⟩

theorem Strung.laid : ∀ {tokens : List Token}, Strung tokens →
    tokens.Pairwise (fun first second =>
      first.body = .tag ['('] → second.text.head? ≠ some ')') → Laid tokens
  | [], _, _ => trivial
  | _ :: _, h, hpairs => by
    rw [List.pairwise_cons] at hpairs
    refine ⟨h.1.imp_right fun hopening => ⟨hopening, fun other hother => ?_⟩, h.2.laid hpairs.2⟩
    exact hpairs.1 other hother hopening.body

/-! ## Levels -/

theorem Token.group?_eq_some {token : Token} {source : Text} :
    token.group? = some source ↔ token.body = .group source := by
  unfold Token.group?
  split
  · next hbody => simp [hbody]
  · next hbody => simpa using hbody source

theorem Token.isGroup_iff {token : Token} :
    token.isGroup = true ↔ ∃ source, token.body = .group source := by
  rw [Token.isGroup, Option.isSome_iff_exists]
  exact exists_congr fun _ => Token.group?_eq_some

/-- The groups of a text stand. -/
theorem stands_group_of_mem {t : Text} {token : Token} (h : token ∈ tokenize t)
    (hgroup : token.isGroup = true) : token.Stands False := by
  obtain ⟨source, hbody⟩ := Token.isGroup_iff.mp hgroup
  refine ((strung_tokensFrom 0 t).stands_or_opening token h).resolve_right fun hopening => ?_
  simp [hopening.body] at hbody

/-- The leaves inside the groups of a level satisfy `Q`. -/
def HoldsInside (Q : Token → Prop) (tokens : List Token) : Prop :=
  ∀ token ∈ tokens, token.isGroup = true → ∀ leaf ∈ leavesIn [token], Q leaf

/-- No token starts with `)` inside the groups of a level that something is hoisted from. Such a
token follows another one without a blank, and closes its group when blanks are put between them. -/
def LiftsApart (names : List Text) (tokens : List Token) : Prop :=
  ∀ token ∈ tokens, token.isGroup = true →
    (leavesIn [token]).any (Hoist.isHoisted names) = true →
      ∀ leaf ∈ leavesIn [token], leaf.text.head? ≠ some ')'

theorem Token.leavesIn_held {token : Token} (h : token.isGroup = true) :
    leavesIn [token] = token.held.map Token.atStart := by
  obtain ⟨source, hbody⟩ := Token.isGroup_iff.mp h
  have hheld : token.held = Tree.tokensOf (Tree.ofText source) := by
    simp only [Token.held, Token.group?, hbody]
  rw [leavesIn_group hbody, hheld, Tree.ofText_eq]
  rfl

theorem holdsInside_iff {Q : Token → Prop} (hQ : ∀ token, Q token.atStart ↔ Q token)
    {tokens : List Token} :
    HoldsInside Q tokens ↔ ∀ inner ∈ tokens.flatMap Token.held, Q inner := by
  rw [List.forall_mem_flatMap]
  refine forall₂_congr fun token _ => ?_
  by_cases hgroup : token.isGroup = true
  · rw [Token.leavesIn_held hgroup]
    simp [hgroup, hQ]
  · have hheld : token.held = [] := by
      rw [Token.held]
      cases hsource : token.group? with
      | none => rfl
      | some source => simp [Token.isGroup, hsource] at hgroup
    simp [hgroup, hheld]

/-- What hoisting replaces a token of the top level by: the token itself, or what is lifted out of
it and what is left of it. -/
inductive Replaced (names : List Text) (remaining : Nat) (loud : Prop) (token : Token) :
    List Token → Prop where
  | same (h : token.isGroup = true → (leavesIn [token]).any (Hoist.isHoisted names) = false) :
    Replaced names remaining loud token [token]
  | lifted {lifted : Hoist.Lifted} {left : Token} (hgroup : token.isGroup = true)
    (hstands : token.Stands loud) (h : Remains names remaining 0 loud [token] lifted [left]) :
    Replaced names remaining loud token (lifted.tokens ++ [left.atStart])

/-- What hoisting makes of the tokens of a level, one after the other. -/
inductive HoistedFrom (names : List Text) (remaining : Nat) : List Token → List Token → Prop where
  | nil : HoistedFrom names remaining [] []
  | cons {token : Token} {rest result others : List Token}
    (h : Replaced names remaining (∃ other ∈ rest, '"' ∈ other.text) token result)
    (hrest : HoistedFrom names remaining rest others) :
    HoistedFrom names remaining (token :: rest) (result ++ others)

theorem length_left_of_liftTree {token : Token} {children : List Tree} {nesting : Nat}
    {lifted : Hoist.Lifted}
    (h : Hoist.liftTree options limit remaining nesting (.group token children) = .ok lifted) :
    lifted.left.length = 1 := by
  rw [Hoist.liftTree] at h
  split at h
  · split at h
    · obtain ⟨inner, -, h⟩ := exists_ok_of_bind h
      cases h
      rfl
    · split at h
      · cases h
      · cases h
        rfl
  · cases h
    rfl

theorem hoistTree_replaced {token : Token} {loud : Prop} {result : List Token}
    (hstands : token.Stands loud ∨ token.IsOpening)
    (hclosing : token.isGroup = true →
      (leavesIn [token]).any (Hoist.isHoisted options.names) = true →
        ∀ leaf ∈ leavesIn [token], leaf.text.head? ≠ some ')')
    (h : Hoist.hoistTree options limit remaining (Tree.ofToken token) = .ok result) :
    Replaced options.names remaining loud token result := by
  by_cases hgroup : token.isGroup = true
  · obtain ⟨source, hbody⟩ := Token.isGroup_iff.mp hgroup
    have hstands : token.Stands loud :=
      hstands.resolve_right fun hopening => by simp [hopening.body] at hbody
    have hany : Hoist.holdsHoisted options.names (Tree.ofToken token)
        = (leavesIn [token]).any (Hoist.isHoisted options.names) := by
      rw [Tree.ofToken_group hbody, Hoist.holdsHoisted, anyHoisted_ofToken, leavesIn_group hbody]
    rw [Tree.ofToken_group hbody] at h hany
    rw [Hoist.hoistTree, hany] at h
    split at h
    · next hsome =>
      have hinside := hclosing hgroup hsome
      obtain ⟨lifted, hlift, h⟩ := exists_ok_of_bind h
      cases h
      have hlength := length_left_of_liftTree options limit remaining hlift
      obtain ⟨left, hleft⟩ := liftTree_remains options limit remaining _ 0
        (Tree.ofToken_group hbody).symm hstands (hstands.head_ne_closing hinside) hinside hlift
      rw [hleft.texts, List.length_map] at hlength
      obtain ⟨left, rfl⟩ := List.length_eq_one_iff.mp hlength
      have htokenize : lifted.left.flatMap tokenize = [left.atStart] := by
        rw [hleft.texts]
        simpa using (settled_singleton.mp hleft.settled).tokenize
      rw [htokenize]
      exact .lifted hgroup hstands hleft
    · next hnone =>
      cases h
      exact .same fun _ => Bool.eq_false_iff.mpr hnone
  · have hbody : ∀ source, token.body ≠ .group source :=
      fun source hbody => hgroup (Token.isGroup_iff.mpr ⟨source, hbody⟩)
    rw [Tree.ofToken_leaf hbody] at h
    cases h
    exact .same fun h => absurd h hgroup

theorem mapM_hoistTree_hoisted : ∀ {tokens : List Token} {found : List (List Token)},
    Strung tokens → LiftsApart options.names tokens →
    (tokens.map Tree.ofToken).mapM (Hoist.hoistTree options limit remaining) = .ok found →
    HoistedFrom options.names remaining tokens found.flatten
  | [], _, _, _, h => by
    cases h
    exact .nil
  | token :: rest, _, hstrung, hclosing, h => by
    rw [List.map_cons, List.mapM_cons] at h
    obtain ⟨first, hfirst, h⟩ := exists_ok_of_bind h
    obtain ⟨others, hothers, h⟩ := exists_ok_of_bind h
    cases h
    rw [LiftsApart, List.forall_mem_cons] at hclosing
    exact .cons (hoistTree_replaced options limit remaining hstrung.1 hclosing.1 hfirst)
      (mapM_hoistTree_hoisted hstrung.2 hclosing.2 hothers)

variable {names : List Text} {remaining : Nat}

/-- What is lifted out of a level is no group. -/
theorem Remains.body_ne_group {nesting : Nat} {loud : Prop} {tokens left : List Token}
    {lifted : Hoist.Lifted} (h : Remains names remaining nesting loud tokens lifted left)
    {token : Token} (ht : token ∈ lifted.tokens) : ∀ source, token.body ≠ .group source := by
  have hleaf := body_ne_group_of_mem_leavesIn (h.taken token ht).1
  exact hleaf

/-- What is lifted out of a level is leaves of it. -/
theorem Remains.leavesIn_tokens {nesting : Nat} {loud : Prop} {tokens left : List Token}
    {lifted : Hoist.Lifted} (h : Remains names remaining nesting loud tokens lifted left)
    {leaf : Token} (hleaf : leaf ∈ leavesIn lifted.tokens) :
    leaf ∈ leavesIn tokens ∧ Hoist.isHoisted names leaf = true := by
  obtain ⟨token, htoken, hleaf⟩ := mem_leavesIn.mp hleaf
  obtain ⟨hmem, hhoisted⟩ := h.taken token htoken
  have hbody : ∀ source, token.body ≠ .group source := h.body_ne_group htoken
  rw [leavesIn_leaf hbody, List.mem_singleton] at hleaf
  exact hleaf ▸ ⟨hmem, hhoisted⟩

namespace HoistedFrom

/-- **Hoisting brings in no leaf.** -/
theorem mem_of_mem {tokens result : List Token} (h : HoistedFrom names remaining tokens result) :
    ∀ leaf ∈ leavesIn result, leaf ∈ leavesIn tokens := by
  induction h with
  | nil => simp
  | @cons token rest result others h hrest ih =>
    rw [leavesIn_append, leavesIn_cons]
    refine List.forall_mem_append.mpr ⟨fun leaf hleaf => List.mem_append_left _ ?_,
      fun leaf hleaf => List.mem_append_right _ (ih leaf hleaf)⟩
    cases h with
    | same h => exact hleaf
    | lifted hgroup hstands h =>
      rw [leavesIn_append, leavesIn_atStart] at hleaf
      rcases List.mem_append.mp hleaf with hleaf | hleaf
      · exact (h.leavesIn_tokens hleaf).1
      · exact (h.kept leaf hleaf).1

/-- **Hoisting loses no leaf** from groups that are within the limit, but those it hoists. -/
theorem mem_of_not_hoisted {tokens result : List Token}
    (h : HoistedFrom names remaining tokens result) (hfit : depthIn tokens ≤ remaining) :
    ∀ leaf ∈ leavesIn tokens, Hoist.isHoisted names leaf = false → leaf ∈ leavesIn result := by
  induction h with
  | nil => simp
  | @cons token rest result others h hrest ih =>
    rw [depthIn_cons] at hfit
    rw [leavesIn_append, leavesIn_cons]
    refine List.forall_mem_append.mpr ⟨fun leaf hleaf hkept => List.mem_append_left _ ?_,
      fun leaf hleaf hkept => List.mem_append_right _ (ih (by omega) leaf hleaf hkept)⟩
    cases h with
    | same h => exact hleaf
    | lifted hgroup hstands h =>
      rw [leavesIn_append, leavesIn_atStart]
      exact List.mem_append_right _ (h.complete (by omega) leaf hleaf hkept)

theorem depthIn_le {tokens result : List Token} (h : HoistedFrom names remaining tokens result) :
    depthIn result ≤ depthIn tokens := by
  induction h with
  | nil => exact Nat.le_refl _
  | @cons token rest result others h hrest ih =>
    have hfirst : depthIn result ≤ depthIn [token] := by
      cases h with
      | same h => exact Nat.le_refl _
      | @lifted lifted left hgroup hstands h =>
        have hleaves : depthIn lifted.tokens = 0 := depthIn_leaves fun t => h.body_ne_group
        have hleft := h.depth
        rw [depthIn_append, depthIn_atStart, hleaves]
        omega
    rw [depthIn_append, depthIn_cons]
    omega

/-- What holds piece by piece of the tokens of a level holds of what hoisting makes of them. -/
theorem pieces {P : Text → Prop} (hP : Piecewise P) {tokens result : List Token}
    (h : HoistedFrom names remaining tokens result) (hall : ∀ token ∈ tokens, P token.text) :
    ∀ token ∈ result, P token.text := by
  induction h with
  | nil => simp
  | @cons token rest result others h hrest ih =>
    rw [List.forall_mem_cons] at hall
    refine List.forall_mem_append.mpr ⟨?_, ih hall.2⟩
    cases h with
    | same h => simpa using hall.1
    | @lifted lifted left hgroup hstands h =>
      refine List.forall_mem_append.mpr ⟨fun t ht => ?_, ?_⟩
      · have hleaf := hP.leaf hstands hall.1 (h.taken t ht).1
        exact hleaf
      · simpa using h.pieces hP (by simpa using hall.1)

/-- **What hoisting makes of a level holds nothing more to be hoisted** from its groups. -/
theorem holds_none {tokens result : List Token} (h : HoistedFrom names remaining tokens result) :
    ∀ token ∈ result, token.isGroup = true →
      (leavesIn [token]).any (Hoist.isHoisted names) = false := by
  induction h with
  | nil => simp
  | @cons token rest result others h hrest ih =>
    refine List.forall_mem_append.mpr ⟨?_, ih⟩
    cases h with
    | same h => simpa using h
    | @lifted lifted left hgroup hstands h =>
      refine List.forall_mem_append.mpr ⟨fun t ht hisGroup => ?_, ?_⟩
      · obtain ⟨source, hbody⟩ := Token.isGroup_iff.mp hisGroup
        exact absurd hbody (h.body_ne_group ht source)
      · simp only [List.mem_singleton, forall_eq, leavesIn_atStart]
        intro _
        rw [List.any_eq_false]
        intro leaf hleaf
        simp [(h.kept leaf hleaf).2]

/-- The leaves that are not hoisted decide the same before and after. -/
theorem any_leavesIn {tokens result : List Token}
    (h : HoistedFrom names remaining tokens result) (hfit : depthIn tokens ≤ remaining)
    {p : Token → Bool}
    (hp : ∀ leaf, Hoist.isHoisted names leaf = true → p leaf = false) :
    (leavesIn result).any p = (leavesIn tokens).any p := by
  rw [Bool.eq_iff_iff, List.any_eq_true, List.any_eq_true]
  constructor
  · rintro ⟨leaf, hleaf, hpleaf⟩
    exact ⟨leaf, h.mem_of_mem leaf hleaf, hpleaf⟩
  · rintro ⟨leaf, hleaf, hpleaf⟩
    refine ⟨leaf, h.mem_of_not_hoisted hfit leaf hleaf ?_, hpleaf⟩
    by_contra hhoisted
    rw [hp leaf (by simpa using hhoisted)] at hpleaf
    exact Bool.false_ne_true hpleaf

/-- The groups of the result stand, if those before do. -/
theorem stands_group {tokens result : List Token}
    (h : HoistedFrom names remaining tokens result)
    (htokens : ∀ token ∈ tokens, token.isGroup = true → token.Stands False) :
    ∀ token ∈ result, token.isGroup = true → token.Stands False := by
  induction h with
  | nil => simp
  | @cons token rest result others h hrest ih =>
    rw [List.forall_mem_cons] at htokens
    refine List.forall_mem_append.mpr ⟨?_, ih htokens.2⟩
    cases h with
    | same h => simpa using htokens.1
    | @lifted lifted left hgroup hstands h =>
      refine List.forall_mem_append.mpr ⟨fun t ht hisGroup => ?_, ?_⟩
      · obtain ⟨source, hbody⟩ := Token.isGroup_iff.mp hisGroup
        exact absurd hbody (h.body_ne_group ht source)
      · have hleft := (settled_singleton.mp h.settled).imp False.elim
        simpa using fun _ => Token.stands_atStart.mpr hleft

end HoistedFrom

end TagSearch
