import Mathlib.Algebra.BigOperators.Group.List.Basic
import Mathlib.Algebra.GroupWithZero.Nat
import TagSearch.Proofs.Depth

/-!
# Counting groups and compiling them

A group is compiled into a query of its own, or only counted. The two ways agree on all but the
count: counting charges every token inside the group, compiling only those that no pattern frees.

* `compileLevel_alike`: both ways yield the same tags, the same fields and as many groups, of any
  text.
* `compileLevel_tagCount`: what is compiled counts the leaves of the forest that are not free,
  however hoisting moved them and whatever groups were unwrapped.
* `compile_counted_built`: the two counts differ by the free tokens inside groups.
-/

namespace TagSearch

open Text Lexer

/-! ## The leaves of a forest as tokens -/

mutual

theorem Node.texts_tokens : ∀ (node : Node) (offset : Nat),
    (node.tree offset).tokens.map Token.text = (Forest.leaves [node]).map Leaf.text
  | .leaf l, offset => rfl
  | .group modifier children, offset => by
    rw [Node.tree, Tree.tokens, Forest.leaves_group, Forest.texts_tokensOf children]

/-- The tokens of a written forest are its leaves. -/
theorem Forest.texts_tokensOf : ∀ (forest : Forest) (offset : Nat),
    (Tree.tokensOf (Forest.trees offset forest)).map Token.text
      = (Forest.leaves forest).map Leaf.text
  | [], _ => rfl
  | node :: rest, offset => by
    rw [Forest.trees, Tree.tokensOf, List.map_append, Node.texts_tokens node,
      Forest.texts_tokensOf rest, Forest.leaves_cons node rest, List.map_append]

end

theorem Token.held_of_group {token : Token} {modifier : Option Modifier} {children : Forest}
    (hat : token.atStart = (Node.group modifier children).token 0) :
    token.held.map Token.text = (Forest.leaves children).map Leaf.text := by
  rw [Token.held, group?_of_atStart hat]
  dsimp only
  rw [Tree.ofText_render, Forest.texts_tokensOf]

theorem Token.held_of_leaf {token : Token} {l : Leaf}
    (hat : token.atStart = (Node.leaf l).token 0) : token.held = [] := by
  have hgroup : token.group? = l.token.group? := by
    rw [← Node.token_leaf l, ← hat]
    rfl
  have hnone : l.token.group? = none := by
    unfold Token.group?
    split
    · next source hbody => exact absurd hbody (l.body_ne_group source)
    · rfl
  rw [Token.held, hgroup, hnone]

/-! ## Leaves of a hoisted forest -/

theorem Forest.leaves_append (first second : Forest) :
    Forest.leaves (first ++ second) = Forest.leaves first ++ Forest.leaves second := by
  rw [Forest.leaves, Forest.placed_append, List.map_append]
  rfl

theorem Forest.leaves_map_leaf (leaves : List Leaf) :
    Forest.leaves (leaves.map Node.leaf) = leaves := by
  induction leaves with
  | nil => rfl
  | cons l rest ih => rw [List.map_cons, Forest.leaves_cons, ih]; rfl

theorem Forest.leaves_stripped (names : List Text) (forest : Forest) :
    Forest.leaves (Forest.stripped names forest)
      = (Forest.leaves forest).filter (!·.isHoisted names) := by
  rw [Forest.leaves, Forest.placed_stripped, Forest.leaves, List.filter_map]
  rfl

theorem Forest.leaves_unwrapped (forest : Forest) :
    Forest.leaves (Forest.unwrapped forest) = Forest.leaves forest := by
  rw [Forest.leaves, Forest.leaves, Forest.placed_unwrapped forest, List.map_map]
  rfl

/-- Hoisting from a node reorders its leaves. -/
theorem Node.leaves_hoist_perm (names : List Text) (node : Node) :
    (Forest.leaves (node.hoist names)).Perm (Forest.leaves [node]) := by
  cases node with
  | leaf l => exact List.Perm.refl _
  | group modifier children =>
    rw [Node.hoist]
    split
    · exact List.Perm.refl _
    · rw [Forest.leaves_append, Forest.leaves_map_leaf, Forest.leaves_group, Forest.leaves_group,
        Forest.leaves_stripped, Forest.hoisted]
      exact List.filter_append_perm (·.isHoisted names) (Forest.leaves children)

/-- **Hoisting reorders the leaves of a forest**, and neither drops nor repeats any. -/
theorem Forest.leaves_hoist_perm (names : List Text) (forest : Forest) :
    (Forest.leaves (Forest.hoist names forest)).Perm (Forest.leaves forest) := by
  rw [← Forest.leaves_unwrapped forest]
  unfold Forest.hoist
  split
  · next h =>
    rw [h, Forest.leaves_group]
  · generalize Forest.unwrapped forest = nodes
    induction nodes with
    | nil => exact List.Perm.refl _
    | cons node rest ih =>
      rw [List.flatMap_cons, Forest.leaves_append, Forest.leaves_cons node rest]
      exact (Node.leaves_hoist_perm names node).append ih

namespace Compiler

variable {c : Compiler}

/-- The same compiler, that compiles its groups or only counts them. -/
def withGroups (c : Compiler) (processGroups : Bool) : Compiler :=
  { c with settings := { c.settings with processGroups } }

/-! ## The count of a scan -/

section Scan

variable {level : Level}

mutual

theorem length_scanTree : ∀ (tree : Tree) (nesting : Nat) (outer : List Modifier)
    {entry : Scan.Entry}, Scan.scanTree (c.countOptions level) id nesting outer tree = .ok entry →
    entry.items.length ≤ tree.tokens.length
      ∧ (c.settings.failOnCountDepth = true → entry.items.length = tree.tokens.length)
  | .leaf token, _, _, _, h => by
    cases h
    exact ⟨Nat.le_refl _, fun _ => rfl⟩
  | .group token children, nesting, outer, entry, h => by
    by_cases hfit : (c.countOptions level).baseDepth + (nesting + 1) ≤ (c.countOptions level).limit
    · rw [Scan.scanTree_within hfit] at h
      obtain ⟨entries, hentries, h⟩ := exists_ok_of_bind h
      cases h
      exact length_scanTrees children (nesting + 1) _ hentries
    · rw [Scan.scanTree_past hfit] at h
      split at h
      · simp at h
      · next hlenient =>
        cases h
        exact ⟨Nat.zero_le _, fun hcount => absurd hcount hlenient⟩

/-- A scan lists no token twice, and every token if it fails on groups past the limit. -/
theorem length_scanTrees : ∀ (trees : List Tree) (nesting : Nat) (outer : List Modifier)
    {entries : List Scan.Entry},
    Scan.scanTrees (c.countOptions level) id nesting outer trees = .ok entries →
    (entries.flatMap Scan.Entry.items).length ≤ (Tree.tokensOf trees).length
      ∧ (c.settings.failOnCountDepth = true →
        (entries.flatMap Scan.Entry.items).length = (Tree.tokensOf trees).length)
  | [], _, _, _, h => by
    cases h
    exact ⟨Nat.le_refl _, fun _ => rfl⟩
  | tree :: rest, nesting, outer, entries, h => by
    rw [Scan.scanTrees] at h
    obtain ⟨entry, hentry, h⟩ := exists_ok_of_bind h
    obtain ⟨others, hothers, h⟩ := exists_ok_of_bind h
    cases h
    obtain ⟨hle, heq⟩ := length_scanTree tree nesting outer hentry
    obtain ⟨hles, heqs⟩ := length_scanTrees rest nesting outer hothers
    rw [List.flatMap_cons, List.length_append, Tree.tokensOf, List.length_append]
    exact ⟨Nat.add_le_add hle hles, fun hcount => by rw [heq hcount, heqs hcount]⟩

end

/-- The scan that counts a group finds all leaves inside it. -/
theorem length_scan_group (hcount : c.settings.failOnCountDepth = true) {token : Token}
    {modifier : Option Modifier} {children : Forest}
    (hclean : Forest.IsClean [.group modifier children])
    (hat : token.atStart = (Node.group modifier children).token 0) {items : List Scan.Item}
    (h : Scan.scan (c.countOptions level) id token.text = .ok items) :
    items.length = (Forest.leaves children).length := by
  rw [text_of_atStart hat, Scan.scan_group hclean] at h
  obtain ⟨entry, hentry, h⟩ := exists_ok_of_bind h
  cases h
  have htexts := congrArg List.length (Node.texts_tokens (.group modifier children) 0)
  rw [List.length_map, List.length_map, Forest.leaves_group] at htexts
  rw [(length_scanTree _ _ _ hentry).2 hcount, htexts]

end Scan

/-! ## Tags, fields and groups -/

/-- Two queries with the same tags, the same fields and as many groups in each clause. -/
structure Alike (first second : Query) : Prop where
  tags : first.tags = second.tags
  fields : first.fields = second.fields
  groups : ∀ clause, (first.groups.get clause).length = (second.groups.get clause).length

theorem Alike.refl (q : Query) : Alike q q := ⟨rfl, rfl, fun _ => rfl⟩

theorem Alike.charge {first second : Query} (h : Alike first second) (n m : Nat) :
    Alike (first.charge n) (second.charge m) :=
  ⟨h.tags, h.fields, h.groups⟩

theorem Alike.pushGroup {first second : Query} (h : Alike first second) (clause : Clause)
    (group other : GroupEntry) :
    Alike (first.pushGroup clause group) (second.pushGroup clause other) where
  tags := h.tags
  fields := h.fields
  groups asked := by
    have hlen := h.groups asked
    rcases first with ⟨_, ⟨_, _, _⟩, _, _⟩
    rcases second with ⟨_, ⟨_, _, _⟩, _, _⟩
    cases clause <;> cases asked <;>
      simpa [Query.pushGroup, Clauses.push, Clauses.get, Clauses.set] using hlen

theorem Alike.addToken {first second first' second' : Query} (h : Alike first second)
    {token : Token} (hfirst : c.addToken first token = .ok first')
    (hsecond : c.addToken second token = .ok second') : Alike first' second' := by
  have hcharge := h.charge (if c.isUnlimited token.text then 0 else 1)
    (if c.isUnlimited token.text then 0 else 1)
  rcases addToken_cases hfirst with ⟨m, value, changes, hm, hchanges, rfl⟩ | ⟨hm, rfl⟩
  · rcases addToken_cases hsecond with ⟨m', value', changes', hm', hchanges', rfl⟩ | ⟨hm', rfl⟩
    · rw [hm] at hm'
      cases hm'
      rw [hchanges] at hchanges'
      cases hchanges'
      exact ⟨hcharge.tags, by simp only [Query.change, hcharge.fields], hcharge.groups⟩
    · rw [hm] at hm'
      cases hm'
  · rcases addToken_cases hsecond with ⟨m', value', changes', hm', _, rfl⟩ | ⟨_, rfl⟩
    · rw [hm] at hm'
      cases hm'
    · exact ⟨by simp only [addTag, Query.pushTags, hcharge.tags], hcharge.fields, hcharge.groups⟩

theorem Alike.finished {first second : Query} (h : Alike first second) (level : Level) :
    Alike (c.finished level first) (c.finished level second) := by
  unfold Compiler.finished
  split
  · exact ⟨by simp only [Query.canonicalize, h.tags], h.fields, h.groups⟩
  · exact h

/-- A group is one more group of its clause, however it is added. -/
theorem Added.exists_pushGroup {build? : Option Build} {level : Level} {q q' : Query}
    {token : Token} (h : c.Added build? level q token q') {source : Text}
    (hgroup : token.group? = some source) :
    ∃ n entry, q' = (q.charge n).pushGroup token.clause entry := by
  cases h with
  | leaf hleaf => simp [hgroup] at hleaf
  | counted | built | overrun => exact ⟨_, _, rfl⟩
  | cut => exact ⟨0, _, rfl⟩

/-- **Compiling a group or counting it leaves the rest of the level alike.** -/
theorem Added.alike {build? build'? : Option Build} {level : Level}
    {first second first' second' : Query} {token : Token} {groups groups' : Bool}
    (h : Alike first second)
    (hfirst : (c.withGroups groups).Added build? level first token first')
    (hsecond : (c.withGroups groups').Added build'? level second token second') :
    Alike first' second' := by
  cases hgroup : token.group? with
  | some source =>
    obtain ⟨n, entry, rfl⟩ := hfirst.exists_pushGroup hgroup
    obtain ⟨m, entry', rfl⟩ := hsecond.exists_pushGroup hgroup
    exact (h.charge n m).pushGroup _ _ _
  | none =>
    have hadd : ∀ {groups : Bool} {build? : Option Build} {q q' : Query},
        (c.withGroups groups).Added build? level q token q' → c.addToken q token = .ok q' := by
      intro groups build? q q' h
      cases h with
      | leaf _ hadd => exact hadd
      | counted hsome | built hsome | overrun hsome | cut hsome => simp [hgroup] at hsome
    exact h.addToken (hadd hfirst) (hadd hsecond)

theorem foldlM_alike {build? build'? : Option Build} {level : Level} {groups groups' : Bool}
    {tokens : List Token} {first second first' second' : Query} (h : Alike first second)
    (hfirst : tokens.foldlM ((c.withGroups groups).addNext build? level) first = .ok first')
    (hsecond : tokens.foldlM ((c.withGroups groups').addNext build'? level) second = .ok second') :
    Alike first' second' := by
  induction tokens generalizing first second with
  | nil =>
    cases hfirst
    cases hsecond
    exact h
  | cons token rest ih =>
    rw [List.foldlM_cons] at hfirst hsecond
    obtain ⟨next, hnext, hfirst⟩ := exists_ok_of_bind hfirst
    obtain ⟨next', hnext', hsecond⟩ := exists_ok_of_bind hsecond
    exact ih (Added.alike h (added_of_addNext hnext).1 (added_of_addNext hnext').1) hfirst hsecond

/-! ## Counts -/

/-- The leaves of a forest that are counted where they stand on their own. -/
def limited (c : Compiler) (forest : Forest) : Nat :=
  (Forest.leaves forest).countP (!c.isUnlimited ·.text)

/-- The leaves of a forest that a pattern frees. -/
def spared (c : Compiler) (forest : Forest) : Nat :=
  (Forest.leaves forest).countP (c.isUnlimited ·.text)

theorem length_leaves (c : Compiler) (forest : Forest) :
    (Forest.leaves forest).length = c.limited forest + c.spared forest := by
  rw [limited, spared, Nat.add_comm, List.length_eq_countP_add_countP (c.isUnlimited ·.text)]
  simp

theorem limited_cons (c : Compiler) (node : Node) (rest : Forest) :
    c.limited (node :: rest) = c.limited [node] + c.limited rest := by
  rw [limited, Forest.leaves_cons, List.countP_append]
  rfl

/-- What a leaf is charged. -/
theorem limited_leaf (c : Compiler) (l : Leaf) :
    c.limited [.leaf l] = if c.isUnlimited l.text then 0 else 1 := by
  rw [limited, Forest.leaves_leaf, List.countP_singleton]
  cases c.isUnlimited l.text <;> rfl

/-- What a node holds in groups, at the top, that a pattern frees. -/
def sparedInside (c : Compiler) : Node → Nat
  | .leaf _ => 0
  | .group _ children => c.spared children

/-- If each token of a level is charged what its node costs, the level is charged the sum. -/
theorem foldlM_tagCount {build? : Option Build} {level : Level} {cost : Node → Nat}
    {nodes : Forest} {tokens : List Token} {q q' : Query} (htokens : AreTokensOf nodes tokens)
    (hstep : ∀ node ∈ nodes, ∀ token q q', token.atStart = node.token 0 →
      c.addNext build? level q token = .ok q' → q'.tagCount = q.tagCount + cost node)
    (h : tokens.foldlM (c.addNext build? level) q = .ok q') :
    q'.tagCount = q.tagCount + (nodes.map cost).sum := by
  induction nodes generalizing tokens q with
  | nil =>
    rw [AreTokensOf, List.map_nil, List.map_eq_nil_iff] at htokens
    subst htokens
    cases h
    rfl
  | cons node rest ih =>
    obtain ⟨token, others, rfl⟩ : ∃ token others, tokens = token :: others := by
      refine List.exists_cons_of_ne_nil fun he => ?_
      simp [AreTokensOf, he] at htokens
    rw [AreTokensOf, List.map_cons, List.map_cons, List.cons.injEq] at htokens
    rw [List.foldlM_cons] at h
    obtain ⟨next, hnext, h⟩ := exists_ok_of_bind h
    have hfirst := hstep node List.mem_cons_self token q next htokens.1 hnext
    have hrest := ih htokens.2 (fun node hnode => hstep node (List.mem_cons_of_mem _ hnode)) h
    rw [List.map_cons, List.sum_cons]
    omega

/-- A tag or a metatag is charged unless it is free. -/
theorem Added.tagCount_leaf {build? : Option Build} {level : Level} {q q' : Query} {token : Token}
    {l : Leaf} (hat : token.atStart = (Node.leaf l).token 0)
    (h : c.Added build? level q token q') : q'.tagCount = q.tagCount + c.limited [.leaf l] := by
  cases h with
  | leaf _ hadd => rw [addToken_tagCount hadd, limited_leaf, text_of_atStart hat]; rfl
  | counted hgroup | built hgroup | overrun hgroup | cut hgroup =>
    obtain ⟨_, _, hnode, _⟩ := group_of_atStart hat hgroup
    simp at hnode

theorem sum_limited (c : Compiler) (forest : Forest) :
    (forest.map fun node => c.limited [node]).sum = c.limited forest := by
  induction forest with
  | nil => rfl
  | cons node rest ih => rw [List.map_cons, List.sum_cons, ih, limited_cons c node rest]

/-- Hoisting does not change what a forest costs. -/
theorem limited_hoist (c : Compiler) (names : List Text) (forest : Forest) :
    c.limited (Forest.hoist names forest) = c.limited forest :=
  (Forest.leaves_hoist_perm names forest).countP_eq _

/-- A token that a strict level compiles is charged for its leaves that are not free. -/
theorem addNext_tagCount_built (hmode : c.settings.processGroups = true) {level : Level}
    (hstrict : level.failOnDepth = true) {node : Node}
    (hinside : ∀ modifier children, node = .group modifier children → ∀ build ∈ c.inside level,
      ∀ free inner, build free (Forest.render children) = .ok inner →
        inner.tagCount = c.limited children)
    (token : Token) (q q' : Query) (hat : token.atStart = node.token 0)
    (h : c.addNext (c.inside level) level q token = .ok q') :
    q'.tagCount = q.tagCount + c.limited [node] := by
  obtain ⟨hadded, hfits⟩ := added_of_addNext h
  cases node with
  | leaf l => exact hadded.tagCount_leaf hat
  | group modifier children =>
    have hgroup := group?_of_atStart hat
    have hleaves : c.limited [.group modifier children] = c.limited children := by
      rw [limited, Forest.leaves_group]
      rfl
    cases hadded with
    | leaf hleaf => simp [hgroup] at hleaf
    | counted _ hflat => simp [hmode] at hflat
    | built hgroup' _ hbuild? hbuild =>
      rw [hgroup] at hgroup'
      cases hgroup'
      rw [hleaves, ← hinside modifier children rfl _ hbuild? _ _ hbuild]
      rfl
    | overrun _ _ hbuild? hbuild =>
      -- a group over the limit takes its level over
      have hover := inside_saysOverrun hbuild? _ _ _ _ hbuild
      exact absurd hfits (Nat.not_le_of_lt (overrun_of_child hover))
    | cut _ _ _ hsilent => simp [hstrict] at hsilent

/-- A token that a strict level only counts is charged for the free leaves inside it as well. -/
theorem addNext_tagCount_counted (hmode : c.settings.processGroups = false)
    (hcount : c.settings.failOnCountDepth = true) {build? : Option Build} {level : Level}
    {node : Node} (hclean : Forest.IsClean [node]) (token : Token) (q q' : Query)
    (hat : token.atStart = node.token 0) (h : c.addNext build? level q token = .ok q') :
    q'.tagCount = q.tagCount + (c.limited [node] + c.sparedInside node) := by
  obtain ⟨hadded, -⟩ := added_of_addNext h
  cases node with
  | leaf l => exact hadded.tagCount_leaf hat
  | group modifier children =>
    have hgroup := group?_of_atStart hat
    cases hadded with
    | leaf hleaf => simp [hgroup] at hleaf
    | counted _ _ hscan =>
      have hlen := length_scan_group hcount hclean hat hscan
      rw [length_leaves c] at hlen
      rw [limited, Forest.leaves_group]
      exact congrArg (q.tagCount + ·) hlen
    | built _ hbuilds | overrun _ hbuilds | cut _ hbuilds => simp [hmode] at hbuilds

/-- **What is compiled counts the leaves that are not free**, wherever they stand. -/
theorem compileLevel_tagCount (hmode : c.settings.processGroups = true) (level : Level) :
    level.IsReached → level.failOnDepth = true → ∀ forest : Forest, Forest.IsClean forest →
      ∀ q, c.compileLevel level (Forest.render forest) = .ok q → q.tagCount = c.limited forest := by
  induction level using Level.descend with
  | step level ih =>
    intro hreached hstrict forest hclean q h
    obtain ⟨tokens, unwrapped, reached, hhoist, hfold, rfl⟩ := c.exists_of_compileLevel h
    rw [hoist_render hreached hclean] at hhoist
    have htokens := hoistText_forest level.remaining forest (Or.inr hstrict) hhoist
    rw [finished_tagCount, foldlM_tagCount htokens ?_ hfold, sum_limited, limited_hoist]
    · exact Nat.zero_add _
    · intro node hnode
      have hstrict : (level.deeper unwrapped).failOnDepth = true := hstrict
      refine addNext_tagCount_built hmode hstrict ?_
      rintro modifier children rfl build hbuild free inner hinner
      have hclean' : Forest.IsClean [.group modifier children] :=
        hclean.of_leaves (Forest.leaves_hoist hnode)
      obtain ⟨hroom, rfl⟩ := c.of_mem_inside hbuild
      exact ih unwrapped free hroom ((hreached.deeper _).child _) hstrict children
        hclean'.children inner hinner

/-! ## The two ways -/

theorem countP_held (c : Compiler) {nodes : Forest} {tokens : List Token}
    (h : AreTokensOf nodes tokens) :
    (tokens.flatMap Token.held).countP (c.isUnlimited ·.text)
      = (nodes.map c.sparedInside).sum := by
  induction nodes generalizing tokens with
  | nil =>
    rw [AreTokensOf, List.map_nil, List.map_eq_nil_iff] at h
    subst h
    rfl
  | cons node rest ih =>
    obtain ⟨token, others, rfl⟩ : ∃ token others, tokens = token :: others := by
      refine List.exists_cons_of_ne_nil fun he => ?_
      simp [AreTokensOf, he] at h
    rw [AreTokensOf, List.map_cons, List.map_cons, List.cons.injEq] at h
    have hfirst : token.held.countP (c.isUnlimited ·.text) = c.sparedInside node := by
      cases node with
      | leaf l => rw [Token.held_of_leaf h.1]; rfl
      | group modifier children =>
        have htexts := congrArg (List.countP c.isUnlimited) (Token.held_of_group h.1)
        rwa [List.countP_map, List.countP_map] at htexts
    rw [List.flatMap_cons, List.countP_append, hfirst, ih h.2, List.map_cons, List.sum_cons]

/-- **Counting groups and compiling them cost the same but for free tokens.** If a search that is a
written forest compiles both ways and groups past the limit of depth are errors, the two queries
have the same tags, the same fields and as many groups in each clause. Counting charges, besides
what compiling does, the tokens inside the groups of the hoisted search, at any depth, that a
pattern frees. -/
theorem compile_counted_built (c : Compiler) (forest : Forest)
    (hcompose : (Forest.render forest).compose = Forest.render forest)
    (hnul : '\x00' ∉ Forest.render forest) (hstrict : c.settings.failOnDepth = true)
    (hcount : c.settings.failOnCountDepth = true) {counted built : Query}
    (hcounted : (c.withGroups false).compile (Forest.render forest) = .ok counted)
    (hbuilt : (c.withGroups true).compile (Forest.render forest) = .ok built) :
    counted.tags = built.tags ∧ counted.fields = built.fields
      ∧ (∀ clause, (counted.groups.get clause).length = (built.groups.get clause).length)
      ∧ ∃ tokens unwrapped,
          Hoist.hoist (c.hoistOptions (Level.root c.settings)) (Forest.render forest)
              = .ok (tokens, unwrapped)
            ∧ counted.tagCount = built.tagCount
                + (tokens.flatMap Token.held).countP (c.isUnlimited ·.text) := by
  have hclean : Forest.IsClean forest := ⟨hcompose, hnul⟩
  have hreached := Level.isReached_root c.settings
  have hcost := compileLevel_tagCount (c := c.withGroups true) rfl _ hreached hstrict forest hclean
    built hbuilt
  obtain ⟨tokens, unwrapped, reached, hhoist, hfold, rfl⟩ :=
    (c.withGroups true).exists_of_compileLevel hbuilt
  obtain ⟨tokens', unwrapped', reached', hhoist', hfold', rfl⟩ :=
    (c.withGroups false).exists_of_compileLevel hcounted
  -- both ways hoist alike, and then add the same tokens
  cases hhoist.symm.trans hhoist'
  have hlevel := (hoist_render hreached hclean).symm.trans hhoist
  have htokens : AreTokensOf (Forest.hoist c.settings.hoistedNames forest) tokens :=
    hoistText_forest _ forest (Or.inr hstrict) hlevel
  have halike := (foldlM_alike (Alike.refl {}) hfold' hfold).finished (c := c)
    ((Level.root c.settings).deeper unwrapped)
  refine ⟨halike.tags, halike.fields, halike.groups, tokens, unwrapped, hhoist, ?_⟩
  have hsum := foldlM_tagCount htokens
    (fun node hnode => addNext_tagCount_counted (c := c.withGroups false) rfl hcount
      (hclean.of_leaves (Forest.leaves_hoist hnode))) hfold'
  have hlimited : (c.withGroups true).limited forest
      = ((Forest.hoist c.settings.hoistedNames forest).map fun node => c.limited [node]).sum := by
    rw [sum_limited, limited_hoist]
    rfl
  rw [finished_tagCount, hsum, hcost, hlimited, countP_held c htokens]
  exact (Nat.zero_add _).trans List.sum_map_add

/-- A compiler that fails on groups past the limit and does not count tokens with a `d`. -/
def sparingCompiler : Compiler where
  settings := { failOnDepth := true }
  unlimited := [Pattern.literal 'd']
  now := ⟨0⟩

/-- Of `aaa -( order:score source:"b ) c" ( limit:5 ddd ) )`, counting charges `ddd` and compiling
does not. -/
theorem compile_counted_built_mixedForest :
    ∃ counted built : Query,
      (sparingCompiler.withGroups false).compile (Forest.render mixedForest) = .ok counted
        ∧ (sparingCompiler.withGroups true).compile (Forest.render mixedForest) = .ok built
        ∧ counted.fields = built.fields ∧ counted.tagCount = 4 ∧ built.tagCount = 3 := by
  have hcounted : ((sparingCompiler.withGroups false).compile
      (Forest.render mixedForest)).toOption.map Query.tagCount = some 4 := by decide +kernel
  have hbuilt : ((sparingCompiler.withGroups true).compile
      (Forest.render mixedForest)).toOption.map Query.tagCount = some 3 := by decide +kernel
  cases hfirst : (sparingCompiler.withGroups false).compile (Forest.render mixedForest) with
  | error e => simp [hfirst, Except.toOption] at hcounted
  | ok counted =>
    cases hsecond : (sparingCompiler.withGroups true).compile (Forest.render mixedForest) with
    | error e => simp [hsecond, Except.toOption] at hbuilt
    | ok built =>
      rw [hfirst] at hcounted
      rw [hsecond] at hbuilt
      have hsame := compile_counted_built sparingCompiler mixedForest (by decide +kernel)
        (by decide +kernel) rfl rfl hfirst hsecond
      exact ⟨counted, built, rfl, rfl, hsame.2.1, Option.some.inj hcounted,
        Option.some.inj hbuilt⟩

end Compiler

end TagSearch
