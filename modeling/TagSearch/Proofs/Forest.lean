import TagSearch.Proofs.Lexing

/-!
# Forests

A search seen from the other side: not as a text to be cut into tokens, but as the tree it is
written from. A leaf is a text that is one token wherever blanks set it apart; a node is a leaf, or
a group of nodes under a modifier. A forest is what stands on one level.

`render` writes a forest, neighbours apart by one space and groups by `renderGroup`. `spread`
writes the same with one space after every node, which makes it additive.
-/

namespace TagSearch

open Text Lexer

/-! ## Leaves -/

/-- The texts that open a group when a blank follows them. -/
def openings : List Text :=
  [['('], ['-', '('], ['~', '(']]

/-- A tag or a metatag that reads the same in front of any blank. -/
structure Leaf where
  token : Token
  /-- By itself the text is this one token. -/
  alone : tokenize token.text = [token]
  notGroup : token.isGroup = false
  notClosing : token.text.head? ≠ some ')'
  notOpening : token.text ∉ openings
  closesQuote : leavesQuoteOpen token.body = false

namespace Leaf

/-- Takes a text for a leaf, if it is one. -/
def ofText? (text : Text) : Option Leaf :=
  match tokenize text with
  | [token] =>
    if h : tokenize token.text = [token] ∧ token.isGroup = false ∧ token.text.head? ≠ some ')'
        ∧ token.text ∉ openings ∧ leavesQuoteOpen token.body = false then
      some ⟨token, h.1, h.2.1, h.2.2.1, h.2.2.2.1, h.2.2.2.2⟩
    else none
  | _ => none

variable (l : Leaf)

/-- The leaf as written. -/
def text : Text := l.token.text

theorem tokensFrom_alone : tokensFrom 0 l.text = [l.token] :=
  l.alone

theorem text_ne_nil : l.text ≠ [] := by
  intro h
  have ha := l.tokensFrom_alone
  rw [h, tokensFrom] at ha
  simp at ha

/-- The token fills the text, so there is no room for blanks in front of it. -/
theorem startsSolid : StartsSolid l.text := by
  have ha := l.tokensFrom_alone
  rw [tokensFrom] at ha
  split at ha
  · simp at ha
  · next c rest hd =>
    dsimp only at ha
    rw [List.cons.injEq] at ha
    have hread := congrArg List.length
      (readToken_eq (0 + byteLength (l.text.takeWhile isBlank)) (c :: rest))
    have hwhole := congrArg List.length
      (List.takeWhile_append_dropWhile (p := isBlank) (l := l.text))
    rw [ha.1, List.length_append] at hread
    rw [List.length_append, hd] at hwhole
    have hfront : l.text.takeWhile isBlank = [] :=
      List.eq_nil_of_length_eq_zero (by simp only [text] at hread hwhole ⊢; omega)
    intro d hm
    obtain ⟨tail, ht⟩ := List.head?_eq_some_iff.mp hm
    rw [ht] at hfront
    by_contra hc
    rw [List.takeWhile_cons_of_pos (by simpa using hc)] at hfront
    simp at hfront

/-- Read by itself, a leaf is used up. -/
theorem readToken_alone : readToken 0 l.text = (l.token, []) := by
  have ha := l.tokensFrom_alone
  rw [tokensFrom_solid l.text_ne_nil l.startsSolid, List.cons.injEq] at ha
  have hread := readToken_eq 0 l.text
  rw [ha.1] at hread
  exact Prod.ext ha.1 (List.append_right_eq_self.mp hread)

theorem body_ne_nil : (takeModifier l.text).2 ≠ [] :=
  takeModifier_ne_nil l.text_ne_nil

theorem body_ne_opening : (takeModifier l.text).2 ≠ ['('] := by
  intro h
  have heq := takeModifier_eq l.text
  rw [h] at heq
  refine l.notOpening ?_
  rw [show l.token.text = l.text from rfl, ← heq]
  cases (takeModifier l.text).1 with
  | none => decide
  | some m => cases m <;> decide

/-- The body of a leaf, read by itself. -/
theorem readBody_alone :
    readBody (takeModifier l.text).2 = ⟨l.token.body, (takeModifier l.text).2, []⟩ := by
  have h := l.readToken_alone
  unfold readToken at h
  rw [Prod.mk.injEq] at h
  have hbody : (readBody (takeModifier l.text).2).body = l.token.body := congrArg Token.body h.1
  have hrest : (readBody (takeModifier l.text).2).rest = [] := h.2
  have htext := readBody_eq (takeModifier l.text).2
  rw [hrest, List.append_nil] at htext
  rw [← hbody, ← hrest]
  exact congrArg (ReadBody.mk _ · _) htext

theorem body_ne_group (source : Text) : l.token.body ≠ .group source := by
  intro h
  have hg := l.notGroup
  simp [Token.isGroup, Token.group?, h] at hg

/-- In front of a blank the body reads as it does by itself. -/
theorem readBody_append {rest : Text} (hr : StartsBlank rest) :
    readBody ((takeModifier l.text).2 ++ rest)
      = ⟨l.token.body, (takeModifier l.text).2, rest⟩ := by
  have h := l.readBody_alone
  rw [Lexer.readBody_append l.body_ne_nil l.body_ne_opening (by rw [h])
    (by rw [h]; exact l.body_ne_group) (by rw [h]; exact l.closesQuote) hr, h]

theorem body_startsSolid : StartsSolid (takeModifier l.text).2 := by
  cases hm : (takeModifier l.text).1 with
  | some m => exact takeModifier_solid hm
  | none =>
    have heq := takeModifier_eq l.text
    rw [hm] at heq
    rw [show (takeModifier l.text).2 = l.text from heq]
    exact l.startsSolid

theorem endsSolid : EndsSolid l.text := by
  have h := readBody_endsSolid l.body_startsSolid (by rw [l.readBody_alone]; exact l.body_ne_group)
  rw [l.readBody_alone] at h
  rw [← takeModifier_eq l.text]
  exact h.append l.body_ne_nil _

theorem token_eq : l.token = ⟨(takeModifier l.text).1, l.token.body, l.text, 0⟩ := by
  have h := congrArg Prod.fst l.readToken_alone
  unfold readToken at h
  simp only [l.readBody_alone, takeModifier_eq] at h
  exact h.symm

/-- **In front of a blank, a leaf is read as the one token that it is.** -/
theorem readToken_append {rest : Text} (hr : StartsBlank rest) (offset : Nat) :
    readToken offset (l.text ++ rest) = ({ l.token with offset }, rest) := by
  unfold readToken
  simp only [takeModifier_append l.text_ne_nil hr, l.readBody_append hr, takeModifier_eq]
  rw [l.token_eq]

/-- In front of a blank, a leaf opens no group. -/
theorem opensGroup_append {rest : Text} (hr : StartsBlank rest) :
    opensGroup (takeModifier (l.text ++ rest)).2 = false := by
  rw [takeModifier_append l.text_ne_nil hr]
  cases hopen : opensGroup ((takeModifier l.text).2 ++ rest) with
  | false => rfl
  | true =>
    exfalso
    -- a body that opens a group leaves the blank behind its parenthesis unread
    obtain ⟨c, tail, hb⟩ := List.exists_cons_of_ne_nil l.body_ne_nil
    have hc : c = '(' := by
      have := opensGroup_eq hopen
      rw [hb, List.cons_append, List.cons.injEq] at this
      exact this.1
    subst hc
    have halone := l.readBody_alone
    have hmeta : takeMetatag? (takeModifier l.text).2 = none := by
      rw [hb]
      exact takeMetatag?_opening tail
    rcases readBody_cases (by rw [halone]; exact l.body_ne_group) with ⟨m, hm⟩ | ⟨_, ht⟩
    · rw [hmeta] at hm
      simp at hm
    · rw [readBody_of_run hmeta ht, hb] at halone
      have hrest : afterRun tail = [] := congrArg ReadBody.rest halone
      cases tail with
      | nil => exact l.body_ne_opening hb
      | cons d tail =>
        rw [hb] at hopen
        have hd := List.dropWhile_eq_nil_iff.mp hrest d List.mem_cons_self
        simp only [List.cons_append, opensGroup] at hopen
        simp [hopen] at hd

/-- **Inside a group, a leaf in front of a blank is one step.** -/
theorem stepInside_append {rest : Text} (hr : StartsBlank rest) :
    stepInside (l.text ++ rest) = ⟨l.text, rest, 0⟩ := by
  rw [stepInside_eq_readToken (l.opensGroup_append hr) 0, l.readToken_append hr]
  rfl

end Leaf

/-! ## Nodes -/

/-- A leaf, or a group of nodes under a modifier. -/
inductive Node where
  | leaf (leaf : Leaf)
  | group (modifier : Option Modifier) (children : List Node)

/-- The nodes of one level. -/
abbrev Forest := List Node

mutual

/-- A node as written. -/
def Node.render : Node → Text
  | .leaf l => l.text
  | .group modifier children => renderGroup (Modifier.text modifier) (Forest.texts children)

/-- The nodes of a level, each as written. -/
def Forest.texts : List Node → List Text
  | [] => []
  | node :: rest => node.render :: Forest.texts rest

end

/-- A level as written: neighbours stand apart by one space. -/
def Forest.render (forest : Forest) : Text :=
  unwords (Forest.texts forest)

/-- The nodes of a level as written, with a space after each. -/
def Forest.spread (forest : Forest) : Text :=
  (Forest.texts forest).flatMap (· ++ [' '])

mutual

/-- The number of groups in the deepest nest of a node. -/
def Node.depth : Node → Nat
  | .leaf _ => 0
  | .group _ children => Forest.depth children + 1

/-- The number of groups in the deepest nest of a level. -/
def Forest.depth : List Node → Nat
  | [] => 0
  | node :: rest => max node.depth (Forest.depth rest)

end

mutual

/-- The leaves of a node in document order, each with the number of groups around it. -/
def Node.placed : Node → List (Nat × Leaf)
  | .leaf l => [(0, l)]
  | .group _ children => (Forest.placed children).map fun (groups, l) => (groups + 1, l)

/-- The leaves of a level in document order, each with the number of groups around it. -/
def Forest.placed : List Node → List (Nat × Leaf)
  | [] => []
  | node :: rest => node.placed ++ Forest.placed rest

end

/-- The leaves of a level in document order. -/
def Forest.leaves (forest : Forest) : List Leaf :=
  (Forest.placed forest).map (·.2)

mutual

/-- The tree that a node is read as, when it starts `offset` bytes into its level. -/
def Node.tree (offset : Nat) : Node → Tree
  | .leaf l => .leaf { l.token with offset }
  | .group modifier children =>
    .group ⟨modifier, .group (Forest.render children), (Node.group modifier children).render, offset⟩
      (Forest.trees 0 children)

/-- The trees that a level is read as, when it starts `offset` bytes into the text. -/
def Forest.trees (offset : Nat) : List Node → List Tree
  | [] => []
  | node :: rest =>
    node.tree offset :: Forest.trees (offset + node.render.byteLength + 1) rest

end

/-- The token that a node is read as. -/
def Node.token (offset : Nat) (node : Node) : Token :=
  (node.tree offset).token

/-! ## Leaves -/

theorem Forest.leaves_cons (node : Node) (rest : Forest) :
    Forest.leaves (node :: rest) = Forest.leaves [node] ++ Forest.leaves rest := by
  simp [Forest.leaves, Forest.placed]

theorem Forest.leaves_leaf (l : Leaf) : Forest.leaves [.leaf l] = [l] := rfl

theorem Forest.leaves_group (modifier : Option Modifier) (children : Forest) :
    Forest.leaves [.group modifier children] = Forest.leaves children := by
  simp only [Forest.leaves, Forest.placed, Node.placed, List.append_nil, List.map_map]
  rfl

/-! ## Depth -/

mutual

/-- The number of groups in the deepest nest of a tree. -/
def Tree.depth : Tree → Nat
  | .leaf _ => 0
  | .group _ children => Tree.depthOf children + 1

/-- The number of groups in the deepest nest of some trees. -/
def Tree.depthOf : List Tree → Nat
  | [] => 0
  | tree :: rest => max tree.depth (Tree.depthOf rest)

end

mutual

theorem Node.depth_tree : ∀ (node : Node) (offset : Nat), (node.tree offset).depth = node.depth
  | .leaf _, _ => rfl
  | .group _ children, _ => by
    rw [Node.tree, Tree.depth, Forest.depthOf_trees children, Node.depth]

/-- A forest is read as trees that nest as deep. -/
theorem Forest.depthOf_trees : ∀ (forest : Forest) (offset : Nat),
    Tree.depthOf (Forest.trees offset forest) = Forest.depth forest
  | [], _ => rfl
  | node :: rest, offset => by
    rw [Forest.trees, Tree.depthOf, Node.depth_tree node, Forest.depthOf_trees rest, Forest.depth]

end

/-! ## Writing -/

theorem unwords_cons_cons (piece next : Text) (rest : List Text) :
    unwords (piece :: next :: rest) = piece ++ ' ' :: unwords (next :: rest) := by
  simp [unwords]

theorem unwords_spaced {pieces : List Text} (h : pieces ≠ []) :
    unwords pieces ++ [' '] = pieces.flatMap (· ++ [' ']) := by
  induction pieces with
  | nil => exact absurd rfl h
  | cons piece rest ih =>
    cases rest with
    | nil => simp [unwords]
    | cons next rest =>
      rw [List.flatMap_cons, ← ih (by simp), unwords_cons_cons]
      simp

theorem Forest.texts_eq_map : ∀ forest : Forest, Forest.texts forest = forest.map Node.render
  | [] => rfl
  | node :: rest => by rw [Forest.texts, Forest.texts_eq_map rest, List.map_cons]

@[simp] theorem Forest.render_nil : Forest.render [] = [] := rfl

@[simp] theorem Forest.render_singleton (node : Node) : Forest.render [node] = node.render := by
  simp [Forest.render, Forest.texts, unwords]

theorem Forest.render_cons_cons (node next : Node) (rest : Forest) :
    Forest.render (node :: next :: rest) = node.render ++ ' ' :: Forest.render (next :: rest) :=
  unwords_cons_cons _ _ _

@[simp] theorem Forest.spread_nil : Forest.spread [] = [] := rfl

@[simp] theorem Forest.spread_cons (node : Node) (rest : Forest) :
    Forest.spread (node :: rest) = node.render ++ ' ' :: Forest.spread rest := by
  simp [Forest.spread, Forest.texts]

theorem Forest.spread_eq {forest : Forest} (h : forest ≠ []) :
    Forest.spread forest = Forest.render forest ++ [' '] := by
  refine (unwords_spaced ?_).symm
  rw [Forest.texts_eq_map]
  simpa using h

theorem Node.render_ne_nil (node : Node) : node.render ≠ [] := by
  cases node with
  | leaf l => exact l.text_ne_nil
  | group modifier children =>
    simp only [Node.render, renderGroup]
    split <;> simp

/-- No child is written as nothing, so every child shows in its group. -/
theorem Forest.filter_texts (forest : Forest) :
    (Forest.texts forest).filter (!·.isEmpty) = Forest.texts forest := by
  rw [Forest.texts_eq_map, List.filter_eq_self]
  intro text h
  obtain ⟨node, _, rfl⟩ := List.mem_map.mp h
  simpa using node.render_ne_nil

theorem Forest.render_eq_nil_iff {forest : Forest} : Forest.render forest = [] ↔ forest = [] := by
  constructor
  · intro h
    match forest with
    | [] => rfl
    | [node] => exact absurd (by rwa [Forest.render_singleton] at h) node.render_ne_nil
    | node :: next :: rest =>
      rw [Forest.render_cons_cons] at h
      simp at h
  · rintro rfl
    rfl

/-- **A group is written as its parentheses around its children, each with a space after it.** -/
theorem Node.render_group (modifier : Option Modifier) (children : Forest) :
    (Node.group modifier children).render
      = Modifier.text modifier ++ '(' :: ' ' :: (Forest.spread children ++ [')']) := by
  rw [Node.render, renderGroup, Forest.filter_texts]
  by_cases h : children = []
  · subst h
    rfl
  · have hne : Forest.render children ≠ [] := mt Forest.render_eq_nil_iff.mp h
    rw [if_neg (by simpa [Forest.render] using hne), Forest.spread_eq h, List.append_assoc]
    rfl

theorem Node.startsSolid (node : Node) : StartsSolid node.render := by
  cases node with
  | leaf l => exact l.startsSolid
  | group modifier children =>
    rw [Node.render_group]
    intro c hc
    cases modifier with
    | none =>
      simp only [Modifier.text, List.nil_append, List.head?_cons, Option.mem_def,
        Option.some.injEq] at hc
      subst hc
      decide
    | some m =>
      simp only [Modifier.text, List.cons_append, List.head?_cons, Option.mem_def,
        Option.some.injEq] at hc
      subst hc
      cases m <;> decide

theorem Node.head_ne_closing (node : Node) : node.render.head? ≠ some ')' := by
  cases node with
  | leaf l => exact l.notClosing
  | group modifier children =>
    rw [Node.render_group]
    cases modifier with
    | none => simp [Modifier.text]
    | some m => cases m <;> simp [Modifier.text, Modifier.toChar]

theorem Node.endsSolid (node : Node) : EndsSolid node.render := by
  cases node with
  | leaf l => exact l.endsSolid
  | group modifier children =>
    rw [Node.render_group]
    refine EndsSolid.append ?_ (by simp) _
    exact endsSolid_concat (by decide) ('(' :: ' ' :: Forest.spread children)

theorem Forest.endsSolid : ∀ forest : Forest, EndsSolid (Forest.render forest)
  | [] => by simp [EndsSolid]
  | [node] => by
    rw [Forest.render_singleton]
    exact node.endsSolid
  | node :: next :: rest => by
    rw [Forest.render_cons_cons, ← List.singleton_append, ← List.append_assoc]
    exact (Forest.endsSolid (next :: rest)).append (by simp [Forest.render_eq_nil_iff]) _

theorem Forest.startsSolid (forest : Forest) : StartsSolid (Forest.render forest) := by
  match forest with
  | [] => simp [StartsSolid]
  | [node] =>
    rw [Forest.render_singleton]
    exact node.startsSolid
  | node :: next :: rest =>
    rw [Forest.render_cons_cons]
    exact node.startsSolid.append node.render_ne_nil _

/-! ## A forest to look at -/

/-- What is written as `aaa -( order:score source:"b ) c" ( limit:5 ddd ) )`. -/
def mixedForest : Forest :=
  let leaf (text : String) (h : (Leaf.ofText? text.toList).isSome) : Node :=
    .leaf ((Leaf.ofText? text.toList).get h)
  [leaf "aaa" (by decide +kernel),
    .group (some .mustNot)
      [leaf "order:score" (by decide +kernel),
        leaf "source:\"b ) c\"" (by decide +kernel),
        .group none [leaf "limit:5" (by decide +kernel), leaf "ddd" (by decide +kernel)]]]

end TagSearch
