import TagSearch.Proofs.Forest

/-!
# Reading a forest back

Lexing what `Forest.render` writes gives the forest back, at every depth.

The end of a group is found by a loop of its own, which counts parentheses over the whole rest of
the text. `closeGroup?_node` and `closeGroup?_spread` say that this loop steps over a written node,
and over a written level, without stopping inside: one more group open on the way in, one less on
the way out. With that, a written group is one token (`Node.readToken_append`), a level is its
tokens (`tokensFrom_render`) and a search is its trees (`Tree.ofText_render`).
-/

namespace TagSearch

open Text

namespace Lexer

/-! ## The end of a group -/

/-- Puts what was already read in front of a group's inside. -/
def ahead (read : Text) (found : Option (Text × Text)) : Option (Text × Text) :=
  found.map fun (inside, after) => (read ++ inside, after)

@[simp] theorem ahead_nil (found : Option (Text × Text)) : ahead [] found = found := by
  cases found <;> rfl

@[simp] theorem ahead_ahead (first second : Text) (found : Option (Text × Text)) :
    ahead first (ahead second found) = ahead (first ++ second) found := by
  cases found with
  | none => rfl
  | some pair => simp [ahead]

theorem closeGroup?_step {t : Text} (hne : t ≠ []) (hclose : t.head? ≠ some ')')
    (depth : Nat) (spaced : Bool) :
    closeGroup? depth spaced t
      = ahead ((stepInside t).text ++ (stepInside t).rest.takeWhile isBlank)
          (closeGroup? (depth + (stepInside t).opened) ((stepInside t).rest.head?.any isBlank)
            ((stepInside t).rest.dropWhile isBlank)) := by
  obtain ⟨c, rest, rfl⟩ := List.exists_cons_of_ne_nil hne
  have hc : c ≠ ')' := by simpa using hclose
  rw [closeGroup?.eq_def]
  dsimp only
  rw [if_neg (by simp [hc])]
  rfl

/-- A step that leaves one space leads to the token behind it. -/
theorem closeGroup?_step_space {t text rest : Text} {opened : Nat} (hne : t ≠ [])
    (hclose : t.head? ≠ some ')') (hstep : stepInside t = ⟨text, ' ' :: rest, opened⟩)
    (hsolid : StartsSolid rest) (depth : Nat) (spaced : Bool) :
    closeGroup? depth spaced t
      = ahead (text ++ [' ']) (closeGroup? (depth + opened) true rest) := by
  rw [closeGroup?_step hne hclose, hstep]
  simp only [List.head?_cons, Option.any_some]
  rw [List.takeWhile_cons_of_pos (by decide), List.dropWhile_cons_of_pos (by decide),
    hsolid.takeWhile, hsolid.dropWhile]
  rfl

theorem closeGroup?_closing (t : Text) : closeGroup? 0 true (')' :: t) = some ([], t) := by
  rw [closeGroup?, if_pos (by decide)]

theorem closeGroup?_closing_inner {t : Text} (hsolid : StartsSolid t) (depth : Nat) :
    closeGroup? (depth + 1) true (')' :: ' ' :: t)
      = ahead [')', ' '] (closeGroup? depth true t) := by
  rw [closeGroup?, if_pos (by decide), List.takeWhile_cons_of_pos (by decide),
    List.dropWhile_cons_of_pos (by decide), hsolid.takeWhile, hsolid.dropWhile]
  rfl

theorem stepInside_opening (modifier : Option Modifier) (t : Text) :
    stepInside (Modifier.text modifier ++ '(' :: ' ' :: t)
      = ⟨Modifier.text modifier ++ ['('], ' ' :: t, 1⟩ := by
  unfold stepInside
  rw [takeModifier_opening]
  rfl

end Lexer

open Lexer

theorem startsSolid_closing (t : Text) : StartsSolid (')' :: t) := by
  intro c hc
  simp only [List.head?_cons, Option.mem_def, Option.some.injEq] at hc
  subst hc
  decide

theorem Forest.startsSolid_spread (forest : Forest) {t : Text} (h : StartsSolid t) :
    StartsSolid (Forest.spread forest ++ t) := by
  cases forest with
  | nil => exact h
  | cons node rest =>
    rw [Forest.spread_cons, List.append_assoc]
    exact node.startsSolid.append node.render_ne_nil _

theorem Node.render_append_head (node : Node) (t : Text) :
    (node.render ++ t).head? = node.render.head? := by
  obtain ⟨c, rest, h⟩ := List.exists_cons_of_ne_nil node.render_ne_nil
  rw [h]
  rfl

mutual

/-- **The search for a group's end steps over a written node.** -/
theorem closeGroup?_node : ∀ (node : Node) {t : Text}, StartsSolid t →
    ∀ (depth : Nat) (spaced : Bool), closeGroup? depth spaced (node.render ++ ' ' :: t)
      = ahead (node.render ++ [' ']) (closeGroup? depth true t)
  | .leaf l, t, ht, depth, spaced => by
    have hstep : stepInside (l.text ++ ' ' :: t) = ⟨l.text, ' ' :: t, 0⟩ :=
      l.stepInside_append (startsBlank_space t)
    have hclose : (l.text ++ ' ' :: t).head? ≠ some ')' := by
      rw [show l.text = (Node.leaf l).render from rfl, Node.render_append_head]
      exact l.notClosing
    exact closeGroup?_step_space (by simp) hclose hstep ht depth spaced
  | .group modifier children, t, ht, depth, spaced => by
    -- one group more is open up to the closing parenthesis of this one
    have hclose := Node.head_ne_closing (.group modifier children)
    rw [← Node.render_append_head _ (' ' :: t)] at hclose
    rw [Node.render_group] at hclose ⊢
    simp only [List.append_assoc, List.cons_append, List.nil_append] at hclose ⊢
    rw [closeGroup?_step_space (by simp) hclose (stepInside_opening modifier _)
        (Forest.startsSolid_spread children (startsSolid_closing _)),
      closeGroup?_spread children (startsSolid_closing _) (depth + 1),
      closeGroup?_closing_inner ht, ahead_ahead, ahead_ahead]
    simp only [List.append_assoc, List.cons_append, List.nil_append]

/-- **The search for a group's end steps over a written level.** -/
theorem closeGroup?_spread : ∀ (forest : Forest) {t : Text}, StartsSolid t →
    ∀ depth : Nat, closeGroup? depth true (Forest.spread forest ++ t)
      = ahead (Forest.spread forest) (closeGroup? depth true t)
  | [], t, _, depth => by simp
  | node :: rest, t, ht, depth => by
    rw [Forest.spread_cons, List.append_assoc, List.cons_append,
      closeGroup?_node node (Forest.startsSolid_spread rest ht), closeGroup?_spread rest ht,
      ahead_ahead]
    simp only [List.append_assoc, List.cons_append, List.nil_append]

end

/-! ## Tokens -/

/-- Trimming takes the space before and the space after the children of a group. -/
theorem trimBlanks_spread (forest : Forest) :
    trimBlanks (' ' :: Forest.spread forest) = Forest.render forest := by
  by_cases h : forest = []
  · subst h
    rfl
  · rw [Forest.spread_eq h]
    exact trimBy_surrounded (by decide) (by decide) (Forest.startsSolid forest)
      (Forest.endsSolid forest)

/-- A written group is read to its own end. -/
theorem takeGroup?_render (children : Forest) (t : Text) :
    takeGroup? ('(' :: ' ' :: (Forest.spread children ++ ')' :: t))
      = some (' ' :: Forest.spread children, t) := by
  have hsolid := Forest.startsSolid_spread children (startsSolid_closing t)
  rw [takeGroup?, if_pos (by rfl)]
  simp only [List.drop_succ_cons, List.drop_zero]
  rw [List.takeWhile_cons_of_pos (by decide), List.dropWhile_cons_of_pos (by decide),
    hsolid.takeWhile, hsolid.dropWhile, closeGroup?_spread children (startsSolid_closing t),
    closeGroup?_closing]
  simp [ahead]

/-- **In front of a blank, a written node is one token.** -/
theorem Node.readToken_append (node : Node) {rest : Text} (hr : StartsBlank rest) (offset : Nat) :
    readToken offset (node.render ++ rest) = (node.token offset, rest) := by
  cases node with
  | leaf l => exact l.readToken_append hr offset
  | group modifier children =>
    have hrender := Node.render_group modifier children
    have hread : readToken offset
        (Modifier.text modifier ++ '(' :: ' ' :: (Forest.spread children ++ ')' :: rest))
          = (⟨modifier, .group (trimBlanks (' ' :: Forest.spread children)),
              Modifier.text modifier ++ '(' :: ((' ' :: Forest.spread children) ++ [')']), offset⟩,
            rest) := by
      unfold readToken readBody
      simp only [takeModifier_opening, takeMetatag?_opening, takeGroup?_render]
    rw [trimBlanks_spread, List.cons_append, ← hrender] at hread
    rw [hrender]
    simp only [List.append_assoc, List.cons_append, List.nil_append]
    exact hread

theorem Node.token_text (node : Node) (offset : Nat) : (node.token offset).text = node.render := by
  cases node <;> rfl

theorem Node.token_stop (node : Node) (offset : Nat) :
    (node.token offset).stop = offset + node.render.byteLength := by
  rw [Token.stop, node.token_text]
  cases node <;> rfl

/-- **The tokens of a written level are its nodes, wherever the level starts.** -/
theorem tokensFrom_render (forest : Forest) (offset : Nat) :
    tokensFrom offset (Forest.render forest) = (Forest.trees offset forest).map Tree.token := by
  induction forest generalizing offset with
  | nil => simp [Forest.trees]
  | cons node rest ih =>
    have hsolid := node.startsSolid
    cases rest with
    | nil =>
      have hread := node.readToken_append startsBlank_nil offset
      rw [List.append_nil] at hread
      rw [Forest.render_singleton, tokensFrom_solid node.render_ne_nil hsolid, hread]
      simp [Forest.trees, Node.token]
    | cons next rest =>
      have hread := node.readToken_append (startsBlank_space (Forest.render (next :: rest))) offset
      rw [Forest.render_cons_cons, tokensFrom_solid (by simp) (hsolid.append node.render_ne_nil _),
        hread, tokensFrom_space, ih, node.token_stop]
      rfl

/-! ## Trees -/

/-- The tree of a token. -/
def Tree.ofToken (token : Token) : Tree :=
  match token.body with
  | .group source => .group token (Tree.ofText source)
  | _ => .leaf token

/-- A search is the trees of its tokens. -/
theorem Tree.ofText_eq (t : Text) : Tree.ofText t = (tokenize t).map Tree.ofToken := by
  rw [Tree.ofText, ← List.attach_map_val (l := tokenize t) (f := Tree.ofToken)]
  refine List.map_congr_left ?_
  rintro ⟨token, _⟩ _
  dsimp only [Tree.ofToken]
  split <;> simp_all

mutual

theorem Node.ofToken_token : ∀ (node : Node) (offset : Nat),
    Tree.ofToken (node.token offset) = node.tree offset
  | .leaf l, offset => by
    have hbody := l.body_ne_group
    simp only [Node.token, Node.tree, Tree.token, Tree.ofToken]
  | .group modifier children, offset => by
    simp only [Node.token, Node.tree, Tree.token, Tree.ofToken]
    rw [Tree.ofText_eq, tokenize, tokensFrom_render, Forest.map_ofToken children 0]

theorem Forest.map_ofToken : ∀ (forest : Forest) (offset : Nat),
    ((Forest.trees offset forest).map Tree.token).map Tree.ofToken = Forest.trees offset forest
  | [], _ => rfl
  | node :: rest, offset => by
    rw [Forest.trees, List.map_cons, List.map_cons, Forest.map_ofToken rest]
    exact congrArg (· :: _) (Node.ofToken_token node offset)

end

/-- **Lexing a written forest to the bottom gives the forest.** -/
theorem Tree.ofText_render (forest : Forest) :
    Tree.ofText (Forest.render forest) = Forest.trees 0 forest := by
  rw [Tree.ofText_eq, tokenize, tokensFrom_render, Forest.map_ofToken]

/-! ## Tokens at any depth -/

mutual

/-- The tokens of a tree that are not groups, at any depth, in document order. -/
def Tree.tokens : Tree → List Token
  | .leaf token => [token]
  | .group _ children => Tree.tokensOf children

/-- The tokens of some trees that are not groups, at any depth, in document order. -/
def Tree.tokensOf : List Tree → List Token
  | [] => []
  | tree :: rest => tree.tokens ++ Tree.tokensOf rest

end

mutual

theorem Tree.leaves_eq_tokens : ∀ (tree : Tree) (levels : Nat), tree.depth ≤ levels →
    tree.leaves levels = tree.tokens
  | .leaf token, _, _ => rfl
  | .group token children, levels, h => by
    rw [Tree.depth] at h
    obtain ⟨inner, rfl⟩ : ∃ inner, levels = inner + 1 := ⟨levels - 1, by omega⟩
    rw [Tree.leaves, Tree.tokens, Tree.leavesOf_eq_tokensOf children inner (by omega)]

/-- A bound that no tree reaches cuts nothing off. -/
theorem Tree.leavesOf_eq_tokensOf : ∀ (trees : List Tree) (levels : Nat),
    Tree.depthOf trees ≤ levels → Tree.leavesOf levels trees = Tree.tokensOf trees
  | [], _, _ => rfl
  | tree :: rest, levels, h => by
    rw [Tree.depthOf] at h
    rw [Tree.leavesOf, Tree.tokensOf, Tree.leaves_eq_tokens tree levels (by omega),
      Tree.leavesOf_eq_tokensOf rest levels (by omega)]

end

/-- The tokens inside a group, at any depth; a tag or a metatag holds none. -/
def Token.held (token : Token) : List Token :=
  match token.group? with
  | some source => Tree.tokensOf (Tree.ofText source)
  | none => []

end TagSearch
