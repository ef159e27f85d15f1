import TagSearch.Hoist
import TagSearch.Proofs.Roundtrip
import TagSearch.Proofs.Runs

/-!
# Hoisting as a rewrite of forests

Hoisting works on text: it writes every group that loses a metatag anew and lexes the result once
more. On forests it is a plain rewrite, `Forest.hoist`:

* a forest that is one plain group is replaced by what the group holds, again and again;
* each top-level group that holds leaves to be hoisted is replaced by these leaves, followed by the
  group without them;
* all else stays.

`hoistTexts_render` says that the two agree on every forest that nests no deeper than the limit.
-/

namespace TagSearch

open Text Lexer

/-! ## The rewrite -/

mutual

/-- What a node that stands alone is replaced by. -/
def Node.unwrapped : Node → List Node
  | .leaf l => [.leaf l]
  | .group none children => Forest.unwrapped children
  | .group (some m) children => [.group (some m) children]

/-- A forest without the plain groups around all of it. -/
def Forest.unwrapped : List Node → List Node
  | [] => []
  | [node] => node.unwrapped
  | forest => forest

end

variable (names : List Text)

/-- Whether a leaf is a metatag to be hoisted. -/
def Leaf.isHoisted (l : Leaf) : Bool :=
  Hoist.isHoisted names l.token

/-- The leaves of a level that are hoisted, in document order. -/
def Forest.hoisted (forest : Forest) : List Leaf :=
  (Forest.leaves forest).filter (·.isHoisted names)

mutual

/-- A node without the leaves that are hoisted: one node, or none if it is such a leaf. -/
def Node.stripped : Node → List Node
  | .leaf l => if l.isHoisted names then [] else [.leaf l]
  | .group modifier children => [.group modifier (Forest.stripped children)]

/-- A level without the leaves that are hoisted. -/
def Forest.stripped : List Node → List Node
  | [] => []
  | node :: rest => node.stripped ++ Forest.stripped rest

end

/-- What hoisting replaces a top-level node by. -/
def Node.hoist : Node → List Node
  | .leaf l => [.leaf l]
  | .group modifier children =>
    if (Forest.hoisted names children).isEmpty then [.group modifier children]
    else (Forest.hoisted names children).map .leaf
      ++ [.group modifier (Forest.stripped names children)]

/-- What hoisting makes of a forest. -/
def Forest.hoist (forest : Forest) : Forest :=
  match Forest.unwrapped forest with
  | [.group _ []] => []
  | nodes => nodes.flatMap (Node.hoist names)

/-! ## What is hoisted -/

theorem Forest.hoisted_cons (node : Node) (rest : Forest) :
    Forest.hoisted names (node :: rest)
      = Forest.hoisted names [node] ++ Forest.hoisted names rest := by
  rw [Forest.hoisted, Forest.leaves_cons, List.filter_append]
  rfl

theorem Forest.hoisted_leaf (l : Leaf) :
    Forest.hoisted names [.leaf l] = if l.isHoisted names then [l] else [] := by
  rw [Forest.hoisted, Forest.leaves_leaf, List.filter_cons, List.filter_nil]

theorem Forest.hoisted_group (modifier : Option Modifier) (children : Forest) :
    Forest.hoisted names [.group modifier children] = Forest.hoisted names children := by
  rw [Forest.hoisted, Forest.leaves_group]
  rfl

mutual

/-- Trees hold a metatag to be hoisted if their nodes do. -/
theorem holdsHoisted_tree : ∀ (node : Node) (offset : Nat),
    Hoist.holdsHoisted names (node.tree offset) = !(Forest.hoisted names [node]).isEmpty
  | .leaf l, offset => by
    rw [Node.tree, Hoist.holdsHoisted, Forest.hoisted_leaf]
    show l.isHoisted names = _
    cases l.isHoisted names <;> rfl
  | .group modifier children, offset => by
    rw [Node.tree, Hoist.holdsHoisted, Forest.hoisted_group]
    exact anyHoisted_trees children 0

theorem anyHoisted_trees : ∀ (forest : Forest) (offset : Nat),
    Hoist.anyHoisted names (Forest.trees offset forest) = !(Forest.hoisted names forest).isEmpty
  | [], _ => rfl
  | node :: rest, offset => by
    rw [Forest.trees, Hoist.anyHoisted, holdsHoisted_tree node offset, anyHoisted_trees rest,
      Forest.hoisted_cons names node rest]
    cases Forest.hoisted names [node] <;> simp

end

mutual

theorem Node.stripped_eq_self : ∀ node : Node,
    Forest.hoisted names [node] = [] → node.stripped names = [node]
  | .leaf l, h => by
    rw [Forest.hoisted_leaf] at h
    rw [Node.stripped]
    split
    · next hl => simp [hl] at h
    · rfl
  | .group modifier children, h => by
    rw [Forest.hoisted_group] at h
    rw [Node.stripped, Forest.stripped_eq_self children h]

/-- Where nothing is hoisted nothing is taken away. -/
theorem Forest.stripped_eq_self : ∀ forest : Forest,
    Forest.hoisted names forest = [] → Forest.stripped names forest = forest
  | [], _ => rfl
  | node :: rest, h => by
    rw [Forest.hoisted_cons, List.append_eq_nil_iff] at h
    rw [Forest.stripped, Node.stripped_eq_self node h.1, Forest.stripped_eq_self rest h.2]
    rfl

end

/-! ## Lifting -/

/-- A token as it stands at the start of a text. -/
def Token.atStart (token : Token) : Token :=
  { token with offset := 0 }

theorem Leaf.token_atStart (l : Leaf) (offset : Nat) :
    Token.atStart { l.token with offset } = l.token := by
  rw [l.token_eq]
  rfl

theorem Node.token_atStart (node : Node) (offset : Nat) :
    (node.token offset).atStart = node.token 0 := by
  cases node <;> rfl

theorem Node.token_leaf (l : Leaf) : (Node.leaf l).token 0 = l.token :=
  l.token_atStart 0

/-- Lifting has taken the hoisted leaves out of some nodes and left the rest of them. -/
structure LiftedFrom (nodes : List Node) (lifted : Hoist.Lifted) : Prop where
  tokens : lifted.tokens.map Token.atStart = (Forest.hoisted names nodes).map Leaf.token
  left : lifted.left = Forest.texts (Forest.stripped names nodes)

theorem LiftedFrom.nil : LiftedFrom names [] {} := ⟨rfl, rfl⟩

theorem Forest.texts_append (first second : Forest) :
    Forest.texts (first ++ second) = Forest.texts first ++ Forest.texts second := by
  simp only [Forest.texts_eq_map, List.map_append]

variable {names}

theorem LiftedFrom.cons {node : Node} {rest : Forest} {first others : Hoist.Lifted}
    (hfirst : LiftedFrom names [node] first) (hothers : LiftedFrom names rest others) :
    LiftedFrom names (node :: rest)
      ⟨first.tokens ++ others.tokens, first.left ++ others.left⟩ where
  tokens := by
    rw [List.map_append, hfirst.tokens, hothers.tokens, Forest.hoisted_cons names node rest,
      List.map_append]
  left := by
    rw [hfirst.left, hothers.left, ← Forest.texts_append]
    simp only [Forest.stripped, List.append_nil]

theorem LiftedFrom.leafTaken {l : Leaf} (h : l.isHoisted names = true) (offset : Nat) :
    LiftedFrom names [.leaf l] { tokens := [{ l.token with offset }] } where
  tokens := by simp [Forest.hoisted_leaf, h, Leaf.token_atStart]
  left := by simp [Forest.stripped, Node.stripped, h, Forest.texts]

theorem LiftedFrom.leafKept {l : Leaf} (h : ¬ l.isHoisted names = true) :
    LiftedFrom names [.leaf l] { left := [l.text] } where
  tokens := by simp [Forest.hoisted_leaf, h]
  left := by simp [Forest.stripped, Node.stripped, h, Forest.texts, Node.render]

/-- A group that is kept is left as it was written. -/
theorem LiftedFrom.groupKept {modifier : Option Modifier} {children : Forest}
    (h : Forest.hoisted names children = []) :
    LiftedFrom names [.group modifier children]
      { left := [(Node.group modifier children).render] } where
  tokens := by
    rw [Forest.hoisted_group, h]
    rfl
  left := by
    rw [Forest.stripped_eq_self names _ (by rw [Forest.hoisted_group, h])]
    rfl

/-- A group that is rewritten is written anew around what is left of its children. -/
theorem LiftedFrom.groupRewritten {modifier : Option Modifier} {children : Forest}
    {inner : Hoist.Lifted} (h : LiftedFrom names children inner) :
    LiftedFrom names [.group modifier children]
      ⟨inner.tokens, [renderGroup (Modifier.text modifier) inner.left]⟩ where
  tokens := by rw [Forest.hoisted_group, h.tokens]
  left := by
    rw [h.left]
    rfl

variable (options : Hoist.Options) (limit remaining : Nat)

/-- Whether lifting says so when it meets a group past the limit, or meets none. -/
def Faithful (depth : Nat) : Prop :=
  depth ≤ remaining ∨ options.failOnDepth = true

theorem Faithful.mono {options : Hoist.Options} {remaining depth depth' : Nat}
    (h : Faithful options remaining depth) (hle : depth' ≤ depth) :
    Faithful options remaining depth' :=
  h.imp_left hle.trans

mutual

theorem liftTree_node : ∀ (node : Node) (nesting offset : Nat) {lifted : Hoist.Lifted},
    Faithful options remaining (nesting + node.depth) →
    Hoist.liftTree options limit remaining nesting (node.tree offset) = .ok lifted →
    LiftedFrom options.names [node] lifted
  | .leaf l, nesting, offset, lifted, _, h => by
    rw [Node.tree, Hoist.liftTree] at h
    split at h
    · next hl =>
      cases h
      exact LiftedFrom.leafTaken hl offset
    · next hl =>
      cases h
      exact LiftedFrom.leafKept hl
  | .group modifier children, nesting, offset, lifted, hf, h => by
    rw [Node.depth] at hf
    rw [Node.tree, Hoist.liftTree, anyHoisted_trees] at h
    split at h
    · split at h
      · obtain ⟨inner, hinner, h⟩ := exists_ok_of_bind h
        cases h
        have hf' : Faithful options remaining (nesting + 1 + Forest.depth children) := by
          rwa [Nat.add_assoc, Nat.add_comm 1]
        exact (liftTrees_forest children (nesting + 1) 0 hf' hinner).groupRewritten
      · next hdeep =>
        -- the group is past the limit, so a lifting that is silent about it is ruled out
        rcases hf with hfit | hfail
        · omega
        · rw [if_pos hfail] at h
          simp at h
    · next hnone =>
      cases h
      exact LiftedFrom.groupKept (by simpa using hnone)

theorem liftTrees_forest : ∀ (forest : Forest) (nesting offset : Nat) {lifted : Hoist.Lifted},
    Faithful options remaining (nesting + Forest.depth forest) →
    Hoist.liftTrees options limit remaining nesting (Forest.trees offset forest) = .ok lifted →
    LiftedFrom options.names forest lifted
  | [], _, _, _, _, h => by
    cases h
    exact LiftedFrom.nil options.names
  | node :: rest, nesting, offset, lifted, hf, h => by
    rw [Forest.trees, Hoist.liftTrees] at h
    obtain ⟨first, hfirst, h⟩ := exists_ok_of_bind h
    obtain ⟨others, hothers, h⟩ := exists_ok_of_bind h
    cases h
    rw [Forest.depth] at hf
    exact (liftTree_node node nesting offset (hf.mono (by omega)) hfirst).cons
      (liftTrees_forest rest nesting _ (hf.mono (by omega)) hothers)

end

/-- Whether a pass has no reason to fail: it meets no group past the limit, or is silent about
such groups. -/
def Lenient (depth : Nat) : Prop :=
  depth ≤ remaining ∨ options.failOnDepth = false

theorem Lenient.mono {options : Hoist.Options} {remaining depth depth' : Nat}
    (h : Lenient options remaining depth) (hle : depth' ≤ depth) :
    Lenient options remaining depth' :=
  h.imp_left hle.trans

mutual

theorem liftTree_succeeds : ∀ (tree : Tree) (nesting : Nat),
    Lenient options remaining (nesting + tree.depth) →
    ∃ lifted, Hoist.liftTree options limit remaining nesting tree = .ok lifted
  | .leaf token, nesting, _ => by
    rw [Hoist.liftTree]
    split <;> exact ⟨_, rfl⟩
  | .group token children, nesting, h => by
    rw [Tree.depth] at h
    obtain ⟨inner, hinner⟩ := liftTrees_succeeds children (nesting + 1) (h.mono (by omega))
    rw [Hoist.liftTree, hinner]
    split
    · split
      · exact ⟨_, rfl⟩
      · next hdeep =>
        rcases h with hfit | hsilent
        · omega
        · rw [if_neg (by simp [hsilent])]
          exact ⟨_, rfl⟩
    · exact ⟨_, rfl⟩

/-- Within the limit, or in silence, lifting does not fail. -/
theorem liftTrees_succeeds : ∀ (trees : List Tree) (nesting : Nat),
    Lenient options remaining (nesting + Tree.depthOf trees) →
    ∃ lifted, Hoist.liftTrees options limit remaining nesting trees = .ok lifted
  | [], _, _ => ⟨_, rfl⟩
  | tree :: rest, nesting, h => by
    rw [Tree.depthOf] at h
    obtain ⟨first, hfirst⟩ := liftTree_succeeds tree nesting (h.mono (by omega))
    obtain ⟨others, hothers⟩ := liftTrees_succeeds rest nesting (h.mono (by omega))
    rw [Hoist.liftTrees, hfirst, hothers]
    exact ⟨_, rfl⟩

end

theorem hoistTree_succeeds (tree : Tree) (h : Lenient options remaining tree.depth) :
    ∃ tokens, Hoist.hoistTree options limit remaining tree = .ok tokens := by
  obtain ⟨lifted, hlift⟩ := liftTree_succeeds options limit remaining tree 0 (h.mono (by omega))
  cases tree with
  | leaf token => exact ⟨_, rfl⟩
  | group token children =>
    rw [Hoist.hoistTree, hlift]
    split <;> exact ⟨_, rfl⟩

theorem mapM_hoistTree_succeeds (trees : List Tree)
    (h : Lenient options remaining (Tree.depthOf trees)) :
    ∃ found, trees.mapM (Hoist.hoistTree options limit remaining) = .ok found := by
  induction trees with
  | nil => exact ⟨_, rfl⟩
  | cons tree rest ih =>
    rw [Tree.depthOf] at h
    obtain ⟨first, hfirst⟩ :=
      hoistTree_succeeds options limit remaining tree (h.mono (by omega))
    obtain ⟨others, hothers⟩ := ih (h.mono (by omega))
    rw [List.mapM_cons, hfirst, hothers]
    exact ⟨_, rfl⟩

/-! ## Top-level nodes -/

/-- A written node is one token. -/
theorem tokenize_node (node : Node) : tokenize node.render = [node.token 0] := by
  have h := tokensFrom_render [node] 0
  rw [Forest.render_singleton] at h
  exact h

/-- The tokens that stand for some nodes, wherever these start. -/
def AreTokensOf (nodes : List Node) (tokens : List Token) : Prop :=
  tokens.map Token.atStart = nodes.map (Node.token 0)

theorem AreTokensOf.append {first second : Forest} {tokens others : List Token}
    (h : AreTokensOf first tokens) (h' : AreTokensOf second others) :
    AreTokensOf (first ++ second) (tokens ++ others) := by
  rw [AreTokensOf, List.map_append, List.map_append, h, h']

theorem areTokensOf_single (node : Node) (offset : Nat) :
    AreTokensOf [node] [node.token offset] := by
  rw [AreTokensOf, List.map_singleton, node.token_atStart, List.map_singleton]

/-- The texts of the tokens are the nodes as written. -/
theorem AreTokensOf.texts {nodes : Forest} {tokens : List Token} (h : AreTokensOf nodes tokens) :
    tokens.map Token.text = nodes.map Node.render := by
  have h := congrArg (List.map Token.text) h
  rw [List.map_map, List.map_map] at h
  simpa only [Function.comp_def, Token.atStart, Node.token_text] using h

theorem hoistTree_node (node : Node) (offset : Nat) {tokens : List Token}
    (hf : Faithful options remaining node.depth)
    (h : Hoist.hoistTree options limit remaining (node.tree offset) = .ok tokens) :
    AreTokensOf (node.hoist options.names) tokens := by
  cases node with
  | leaf l =>
    cases h
    exact areTokensOf_single (.leaf l) offset
  | group modifier children =>
    have hholds := holdsHoisted_tree options.names (.group modifier children) offset
    rw [Forest.hoisted_group] at hholds
    rw [Node.tree] at h hholds
    rw [Hoist.hoistTree, hholds] at h
    rw [Node.hoist]
    split at h
    · next hsome =>
      obtain ⟨lifted, hlift, h⟩ := exists_ok_of_bind h
      cases h
      have hfrom := liftTree_node options limit remaining (.group modifier children) 0 offset
        (by rwa [Nat.zero_add]) (by rwa [Node.tree])
      have hleft : lifted.left.flatMap tokenize
          = [(Node.group modifier (Forest.stripped options.names children)).token 0] := by
        rw [hfrom.left]
        simp only [Forest.stripped, Node.stripped, List.append_nil, Forest.texts,
          List.flatMap_cons, List.flatMap_nil, tokenize_node]
      rw [if_neg (by simpa using hsome), hleft]
      refine AreTokensOf.append ?_ (areTokensOf_single _ 0)
      rw [AreTokensOf, hfrom.tokens, Forest.hoisted_group, List.map_map]
      exact List.map_congr_left fun l _ => (Node.token_leaf l).symm
    · next hnone =>
      cases h
      rw [if_pos (by simpa using hnone)]
      exact areTokensOf_single (.group modifier children) offset

theorem mapM_hoistTree_forest (forest : Forest) (offset : Nat) {found : List (List Token)}
    (hf : Faithful options remaining (Forest.depth forest))
    (h : (Forest.trees offset forest).mapM (Hoist.hoistTree options limit remaining) = .ok found) :
    AreTokensOf (forest.flatMap (Node.hoist options.names)) found.flatten := by
  induction forest generalizing offset found with
  | nil =>
    cases h
    rfl
  | cons node rest ih =>
    rw [Forest.depth] at hf
    rw [Forest.trees, List.mapM_cons] at h
    obtain ⟨first, hfirst, h⟩ := exists_ok_of_bind h
    obtain ⟨others, hothers, h⟩ := exists_ok_of_bind h
    cases h
    rw [List.flatMap_cons, List.flatten_cons]
    exact (hoistTree_node options limit remaining node offset (hf.mono (by omega)) hfirst).append
      (ih _ (hf.mono (by omega)) hothers)

/-! ## Empty groups -/

theorem isEmptyGroup_modifier {t : Text} (h : isEmptyGroup t = true) :
    ∃ modifier rest, t = Modifier.text modifier ++ '(' :: rest
      ∧ isEmptyGroup ('(' :: rest) = true := by
  unfold isEmptyGroup at h
  split at h
  · dsimp only at h
    split at h
    · exact ⟨some .mustNot, _, rfl, h⟩
    · simp at h
  · dsimp only at h
    split at h
    · exact ⟨some .should, _, rfl, h⟩
    · simp at h
  · dsimp only at h
    split at h
    · exact ⟨none, _, rfl, h⟩
    · simp at h

theorem isEmptyGroup_blanks {rest : Text} (h : isEmptyGroup ('(' :: rest) = true) :
    ∃ blanks, rest = blanks ++ [')'] ∧ blanks ≠ [] ∧ ∀ c ∈ blanks, isBlank c = true := by
  unfold isEmptyGroup at h
  dsimp only at h
  split at h
  · next hbody =>
    cases hbody
    split at h
    · next inner hreverse =>
      simp only [Bool.and_eq_true, Bool.not_eq_true', List.isEmpty_eq_false_iff] at h
      refine ⟨inner.reverse, ?_, by simpa using h.1, by simpa using h.2⟩
      rw [← List.reverse_reverse rest, hreverse, List.reverse_cons]
    · simp at h
  · simp at h

/-- What is an empty group at sight is lexed as one. -/
theorem tokenize_emptyGroup {t : Text} (h : isEmptyGroup t = true) :
    ∃ modifier, tokenize t = [⟨modifier, .group [], t, 0⟩] := by
  obtain ⟨modifier, rest, rfl, hrest⟩ := isEmptyGroup_modifier h
  obtain ⟨blanks, rfl, hne, hall⟩ := isEmptyGroup_blanks hrest
  obtain ⟨b, tail, rfl⟩ := List.exists_cons_of_ne_nil hne
  have hopen : opensGroup ('(' :: (b :: tail ++ [')'])) = true := hall b List.mem_cons_self
  have htake : (b :: tail ++ [')']).takeWhile isBlank = b :: tail := by
    rw [List.takeWhile_append_of_pos hall]
    simp [isBlank]
  have hdrop : (b :: tail ++ [')']).dropWhile isBlank = [')'] := by
    rw [List.dropWhile_append_of_pos hall]
    rfl
  have hgroup : takeGroup? ('(' :: (b :: tail ++ [')'])) = some (b :: tail, []) := by
    rw [takeGroup?, if_pos hopen, List.drop_succ_cons, List.drop_zero, htake, hdrop,
      closeGroup?_closing]
    simp
  have htrim : trimBlanks (b :: tail) = [] := by
    rw [trimBlanks, Text.trimBy, List.dropWhile_eq_nil_iff.mpr hall]
    rfl
  refine ⟨modifier, ?_⟩
  have hread : readToken 0 (Modifier.text modifier ++ '(' :: (b :: tail ++ [')']))
      = (⟨modifier, .group [], Modifier.text modifier ++ '(' :: (b :: tail ++ [')']), 0⟩, []) := by
    unfold readToken readBody
    simp only [takeModifier_opening, takeMetatag?_opening, hgroup, htrim]
  have hsolid : StartsSolid (Modifier.text modifier ++ '(' :: (b :: tail ++ [')'])) := by
    intro c hc
    rcases modifier with _ | _ | _ <;> cases hc <;> decide
  rw [tokenize, tokensFrom_solid (by simp) hsolid, hread, tokensFrom_nil]

/-- A level that is one group token is that group. -/
theorem eq_group_of_tokenize {forest : Forest} {modifier : Option Modifier} {source text : Text}
    {offset : Nat}
    (h : tokenize (Forest.render forest) = [⟨modifier, .group source, text, offset⟩]) :
    ∃ children, forest = [.group modifier children] ∧ source = Forest.render children := by
  rw [tokenize, tokensFrom_render] at h
  match forest with
  | [] => simp [Forest.trees] at h
  | [.leaf l] =>
    simp only [Forest.trees, List.map_cons, List.map_nil, List.cons.injEq, and_true] at h
    exact absurd (congrArg Token.body h) (l.body_ne_group source)
  | [.group m children] =>
    simp only [Forest.trees, Node.tree, Tree.token, List.map_cons, List.map_nil,
      List.cons.injEq, Token.mk.injEq, Body.group.injEq, and_true] at h
    exact ⟨children, by rw [h.1], h.2.1.symm⟩
  | _ :: _ :: _ => simp [Forest.trees] at h

theorem eq_emptyGroup_of_isEmptyGroup {forest : Forest}
    (h : isEmptyGroup (Forest.render forest) = true) :
    ∃ modifier, forest = [.group modifier []] := by
  obtain ⟨modifier, htokens⟩ := tokenize_emptyGroup h
  obtain ⟨children, hforest, hsource⟩ := eq_group_of_tokenize htokens
  rw [Forest.render_eq_nil_iff.mp hsource.symm] at hforest
  exact ⟨modifier, hforest⟩

/-! ## How a text stands -/

/-- Whether there is nothing to hoist from in a text. -/
def holdsNothing (text : Text) : Bool :=
  text.isEmpty || isEmptyGroup text

/-- The ways in which hoisting takes a text. -/
inductive Stands (text : Text) : Prop
  | empty (h : holdsNothing text = true)
  /-- One plain group, to be unwrapped. -/
  | wrapped {source whole : Text} {offset : Nat} (h : holdsNothing text = false)
    (htokens : tokenize text = [⟨none, .group source, whole, offset⟩])
  | level (h : holdsNothing text = false)
    (htokens : ∀ source whole offset, tokenize text ≠ [⟨none, .group source, whole, offset⟩])

theorem stands (text : Text) : Stands text := by
  cases h : holdsNothing text with
  | true => exact .empty h
  | false =>
    by_cases htokens : ∃ source whole offset, tokenize text = [⟨none, .group source, whole, offset⟩]
    · obtain ⟨source, whole, offset, htokens⟩ := htokens
      exact .wrapped h htokens
    · exact .level h fun source whole offset he => htokens ⟨source, whole, offset, he⟩

theorem hoistText_empty {text : Text} (h : holdsNothing text = true) :
    Hoist.hoistText options limit remaining text = .ok ([], limit - remaining) := by
  rw [Hoist.hoistText.eq_def]
  exact if_pos h

theorem hoistText_wrapped {text source whole : Text} {offset : Nat}
    (h : holdsNothing text = false)
    (htokens : tokenize text = [⟨none, .group source, whole, offset⟩]) :
    Hoist.hoistText options limit (remaining + 1) text
      = Hoist.hoistText options limit remaining source := by
  rw [Hoist.hoistText.eq_def]
  unfold holdsNothing at h
  simp only [h, Bool.false_eq_true, if_false, htokens]

theorem hoistText_wrapped_zero {text source whole : Text} {offset : Nat}
    (h : holdsNothing text = false)
    (htokens : tokenize text = [⟨none, .group source, whole, offset⟩]) :
    Hoist.hoistText options limit 0 text
      = if options.failOnDepth then .error ⟨limit⟩ else .ok ([], limit) := by
  rw [Hoist.hoistText.eq_def]
  unfold holdsNothing at h
  simp only [h, Bool.false_eq_true, if_false, htokens]

theorem hoistText_level {text : Text} (h : holdsNothing text = false)
    (htokens : ∀ source whole offset, tokenize text ≠ [⟨none, .group source, whole, offset⟩]) :
    Hoist.hoistText options limit remaining text
      = (do
          let found ← (Tree.ofText text).mapM (Hoist.hoistTree options limit remaining)
          return (found.flatten, limit - remaining)) := by
  rw [Hoist.hoistText.eq_def]
  unfold holdsNothing at h
  simp only [h, Bool.false_eq_true, if_false]

/-- A hoisting that is silent about groups past the limit does not fail. -/
theorem hoistText_silent {options : Hoist.Options} (hsilent : options.failOnDepth = false)
    (limit remaining : Nat) (text : Text) :
    ∃ result, Hoist.hoistText options limit remaining text = .ok result := by
  cases stands text with
  | empty h => exact ⟨_, hoistText_empty _ _ _ h⟩
  | wrapped h htokens =>
    match remaining with
    | 0 =>
      rw [hoistText_wrapped_zero _ _ h htokens, if_neg (by simp [hsilent])]
      exact ⟨_, rfl⟩
    | remaining + 1 =>
      rw [hoistText_wrapped _ _ _ h htokens]
      exact hoistText_silent hsilent limit remaining _
  | level h htokens =>
    obtain ⟨found, hfound⟩ :=
      mapM_hoistTree_succeeds options limit remaining (Tree.ofText text) (Or.inr hsilent)
    rw [hoistText_level _ _ _ h htokens, hfound]
    exact ⟨_, rfl⟩

/-! ## The whole pass -/

/-- A forest in which hoisting finds nothing to unwrap and something to look at. -/
structure Forest.IsLevel (forest : Forest) : Prop where
  notEmpty : forest ≠ []
  notEmptyGroup : ∀ modifier, forest ≠ [.group modifier []]
  notWrapped : ∀ children, forest ≠ [.group none children]

theorem Forest.shape (forest : Forest) :
    forest = [] ∨ (∃ modifier, forest = [.group modifier []])
      ∨ (∃ node rest, forest = [.group none (node :: rest)]) ∨ Forest.IsLevel forest := by
  match forest with
  | [] => exact Or.inl rfl
  | [.leaf l] => exact Or.inr (Or.inr (Or.inr ⟨by simp, by simp, by simp⟩))
  | [.group modifier []] => exact Or.inr (Or.inl ⟨modifier, rfl⟩)
  | [.group none (node :: rest)] => exact Or.inr (Or.inr (Or.inl ⟨node, rest, rfl⟩))
  | [.group (some m) (_ :: _)] => exact Or.inr (Or.inr (Or.inr ⟨by simp, by simp, by simp⟩))
  | _ :: _ :: _ => exact Or.inr (Or.inr (Or.inr ⟨by simp, by simp, by simp⟩))

theorem Forest.hoist_emptyGroup (names : List Text) (modifier : Option Modifier) :
    Forest.hoist names [.group modifier []] = [] := by
  cases modifier <;> rfl

theorem Forest.hoist_wrapped (names : List Text) (children : Forest) :
    Forest.hoist names [.group none children] = Forest.hoist names children := rfl

theorem Forest.hoist_level (names : List Text) {forest : Forest} (h : Forest.IsLevel forest) :
    Forest.hoist names forest = forest.flatMap (Node.hoist names) := by
  have hunwrap : Forest.unwrapped forest = forest := by
    match forest with
    | [] => exact absurd rfl h.notEmpty
    | [.leaf l] => rfl
    | [.group none children] => exact absurd rfl (h.notWrapped children)
    | [.group (some m) children] => rfl
    | _ :: _ :: _ => rfl
  rw [Forest.hoist, hunwrap]
  split
  · exact absurd rfl (h.notEmptyGroup _)
  · rfl

variable {options limit remaining}

theorem holdsNothing_emptyGroup (modifier : Option Modifier) :
    holdsNothing (Forest.render [.group modifier []]) = true := by
  rcases modifier with _ | _ | _ <;> decide

/-- What is not an empty group is looked into. -/
theorem holdsNothing_render {forest : Forest} (hne : forest ≠ [])
    (hgroup : ∀ modifier, forest ≠ [.group modifier []]) :
    holdsNothing (Forest.render forest) = false := by
  rw [holdsNothing, Bool.or_eq_false_iff]
  refine ⟨by simpa [Forest.render_eq_nil_iff] using hne, ?_⟩
  cases h : isEmptyGroup (Forest.render forest) with
  | false => rfl
  | true =>
    obtain ⟨modifier, hm⟩ := eq_emptyGroup_of_isEmptyGroup h
    exact absurd hm (hgroup modifier)

/-- A group with something in it is one token, to be looked into. -/
theorem tokenize_render_group (node : Node) (rest : Forest) :
    holdsNothing (Forest.render [.group none (node :: rest)]) = false
      ∧ tokenize (Forest.render [.group none (node :: rest)])
        = [(Node.group none (node :: rest)).token 0] := by
  refine ⟨holdsNothing_render (by simp) (by simp), ?_⟩
  rw [Forest.render_singleton, tokenize_node]

theorem hoistText_group (node : Node) (rest : Forest) :
    Hoist.hoistText options limit (remaining + 1) (Forest.render [.group none (node :: rest)])
      = Hoist.hoistText options limit remaining (Forest.render (node :: rest)) :=
  have h := tokenize_render_group node rest
  hoistText_wrapped options limit remaining h.1 h.2

theorem hoistText_group_zero (node : Node) (rest : Forest) :
    Hoist.hoistText options limit 0 (Forest.render [.group none (node :: rest)])
      = if options.failOnDepth then .error ⟨limit⟩ else .ok ([], limit) :=
  have h := tokenize_render_group node rest
  hoistText_wrapped_zero options limit h.1 h.2

theorem hoistText_isLevel {forest : Forest} (h : Forest.IsLevel forest) :
    Hoist.hoistText options limit remaining (Forest.render forest)
      = (do
          let found ← (Forest.trees 0 forest).mapM (Hoist.hoistTree options limit remaining)
          return (found.flatten, limit - remaining)) := by
  rw [hoistText_level options limit remaining (holdsNothing_render h.notEmpty h.notEmptyGroup),
    Tree.ofText_render]
  intro source whole offset htokens
  obtain ⟨children, hwrapped, _⟩ := eq_group_of_tokenize htokens
  exact h.notWrapped children hwrapped

/-- **If hoisting a written forest succeeds, and is not silent about groups past the limit, it
yields the tokens of the rewritten forest.** -/
theorem hoistText_forest (remaining : Nat) (forest : Forest) {tokens : List Token}
    {unwrapped : Nat} (hf : Faithful options remaining (Forest.depth forest))
    (h : Hoist.hoistText options limit remaining (Forest.render forest) = .ok (tokens, unwrapped)) :
    AreTokensOf (Forest.hoist options.names forest) tokens := by
  rcases Forest.shape forest with rfl | ⟨modifier, rfl⟩ | ⟨node, rest, rfl⟩ | hlevel
  · rw [Forest.render_nil, hoistText_empty options limit remaining rfl] at h
    cases h
    rfl
  · rw [hoistText_empty options limit remaining (holdsNothing_emptyGroup modifier)] at h
    cases h
    rw [Forest.hoist_emptyGroup]
    rfl
  · rw [Forest.hoist_wrapped]
    match remaining with
    | 0 =>
      rw [hoistText_group_zero] at h
      rcases hf with hfit | hfail
      · simp [Forest.depth, Node.depth] at hfit
      · simp [hfail] at h
    | remaining + 1 =>
      rw [hoistText_group] at h
      refine hoistText_forest remaining (node :: rest) (hf.imp_left fun hfit => ?_) h
      simpa [Forest.depth, Node.depth] using hfit
  · rw [hoistText_isLevel hlevel] at h
    obtain ⟨found, hfound, h⟩ := exists_ok_of_bind h
    cases h
    rw [Forest.hoist_level _ hlevel]
    exact mapM_hoistTree_forest options limit remaining forest 0 hf hfound

/-- Within the limit hoisting does not fail. -/
theorem hoistText_fits (remaining : Nat) (forest : Forest) (h : Forest.depth forest ≤ remaining) :
    ∃ result, Hoist.hoistText options limit remaining (Forest.render forest) = .ok result := by
  rcases Forest.shape forest with rfl | ⟨modifier, rfl⟩ | ⟨node, rest, rfl⟩ | hlevel
  · exact ⟨_, hoistText_empty options limit remaining rfl⟩
  · exact ⟨_, hoistText_empty options limit remaining (holdsNothing_emptyGroup modifier)⟩
  · match remaining with
    | 0 => simp [Forest.depth, Node.depth] at h
    | remaining + 1 =>
      rw [hoistText_group]
      exact hoistText_fits remaining (node :: rest) (by simpa [Forest.depth, Node.depth] using h)
  · rw [← Forest.depthOf_trees forest 0] at h
    obtain ⟨found, hfound⟩ := mapM_hoistTree_succeeds options limit remaining _ (Or.inl h)
    rw [hoistText_isLevel hlevel, hfound]
    exact ⟨_, rfl⟩

/-- **Hoisting is a rewrite of forests.** On the text of a forest that nests no deeper than the
limit, for any names to be hoisted, hoisting yields the nodes of the rewritten forest as written. -/
theorem hoistTexts_render (options : Hoist.Options) (forest : Forest)
    (hcompose : (Forest.render forest).compose = Forest.render forest)
    (hnul : '\x00' ∉ Forest.render forest) (hdepth : Forest.depth forest ≤ options.limit) :
    Hoist.hoistTexts options (Forest.render forest)
      = .ok ((Forest.hoist options.names forest).map Node.render) := by
  obtain ⟨⟨tokens, unwrapped⟩, hhoist⟩ :=
    @hoistText_fits options options.limit options.limit forest hdepth
  have htokens := hoistText_forest options.limit forest (Or.inl hdepth) hhoist
  rw [Hoist.hoistTexts, Hoist.hoist, cleanSearch_render hcompose hnul, hhoist]
  exact congrArg Except.ok htokens.texts

/-- The metatags of a group and of the group inside it are hoisted in document order. -/
theorem hoistTexts_render_mixedForest :
    Hoist.hoistTexts {} (Forest.render mixedForest)
      = .ok (["aaa", "order:score", "limit:5", "-( source:\"b ) c\" ( ddd ) )"].map
          String.toList) := by
  have hnodes : (Forest.hoist Hoist.defaultNames mixedForest).map Node.render
      = ["aaa", "order:score", "limit:5", "-( source:\"b ) c\" ( ddd ) )"].map String.toList := by
    decide +kernel
  rw [← hnodes]
  exact hoistTexts_render {} mixedForest (by decide +kernel) (by decide +kernel)
    (by decide +kernel)

end TagSearch
