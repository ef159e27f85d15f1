import TagSearch.Proofs.Reading
import TagSearch.Scan.Nested

/-!
# Writing and reading are inverse

* `Forest.isReadAs_tokenize`: one token for each node of a level, with the node's text and
  modifier, and the same again inside every group.
* `Scan.scan_render`: a scan of a written forest lists its pieces, which are the words it was
  written with (`unwords_pieces`).
* `tokenize_scan_render`: both together.
-/

namespace TagSearch

open Text Lexer

/-! ## Tokens, node by node -/

mutual

/-- Whether a token says of a node all that the node holds. -/
def Node.IsReadAs : Node → Token → Prop
  | .leaf l, token =>
    token.text = l.text ∧ token.modifier = l.token.modifier ∧ token.body = l.token.body
  | .group modifier children, token =>
    token.text = (Node.group modifier children).render ∧ token.modifier = modifier
      ∧ ∃ source, token.body = .group source ∧ Forest.IsReadAs children (tokenize source)

/-- Whether some tokens are the nodes of a level, one by one. -/
def Forest.IsReadAs : List Node → List Token → Prop
  | [], tokens => tokens = []
  | node :: rest, tokens => ∃ token others,
    tokens = token :: others ∧ node.IsReadAs token ∧ Forest.IsReadAs rest others

end

mutual

theorem Node.isReadAs_token : ∀ (node : Node) (offset : Nat), node.IsReadAs (node.token offset)
  | .leaf _, _ => ⟨rfl, rfl, rfl⟩
  | .group modifier children, offset => by
    refine ⟨rfl, rfl, Forest.render children, rfl, ?_⟩
    rw [tokenize, tokensFrom_render]
    exact Forest.isReadAs_trees children 0

theorem Forest.isReadAs_trees : ∀ (forest : Forest) (offset : Nat),
    Forest.IsReadAs forest ((Forest.trees offset forest).map Tree.token)
  | [], _ => rfl
  | node :: rest, offset =>
    ⟨_, _, rfl, Node.isReadAs_token node offset, Forest.isReadAs_trees rest _⟩

end

/-- **The tokens of a written forest are its nodes, at every depth.** -/
theorem Forest.isReadAs_tokenize (forest : Forest) :
    Forest.IsReadAs forest (tokenize (Forest.render forest)) := by
  rw [tokenize, tokensFrom_render]
  exact Forest.isReadAs_trees forest 0

/-! ## Cleaning -/

/-- A composed search without NULs is clean once it is written. -/
theorem cleanSearch_render {forest : Forest}
    (hcompose : (Forest.render forest).compose = Forest.render forest)
    (hnul : '\x00' ∉ Forest.render forest) :
    cleanSearch (Forest.render forest) = Forest.render forest := by
  have hne : ∀ c ∈ Forest.render forest, (c == '\x00') = false := by
    intro c hc
    exact beq_false_of_ne fun he => hnul (he ▸ hc)
  rw [cleanSearch, hcompose]
  refine trimBy_eq_self ?_ ?_
  · intro c hc
    rw [Forest.startsSolid forest c hc, hne c (List.mem_of_mem_head? hc)]
    rfl
  · intro c hc
    rw [Forest.endsSolid forest c hc, hne c (List.mem_of_getLast? hc)]
    rfl

/-! ## Pieces -/

mutual

/-- The words that a node is written with: leaves, and the parentheses of groups. -/
def Node.pieces : Node → List Text
  | .leaf l => [l.text]
  | .group modifier children =>
    (Modifier.text modifier ++ ['(']) :: (Forest.pieces children ++ [[')']])

/-- The words that a level is written with. -/
def Forest.pieces : List Node → List Text
  | [] => []
  | node :: rest => node.pieces ++ Forest.pieces rest

end

mutual

theorem Node.pieces_spaced : ∀ node : Node,
    node.pieces.flatMap (· ++ [' ']) = node.render ++ [' ']
  | .leaf l => by simp [Node.pieces, Node.render]
  | .group modifier children => by
    rw [Node.pieces, List.flatMap_cons, List.flatMap_append, Forest.pieces_spaced children,
      Node.render_group]
    simp

theorem Forest.pieces_spaced : ∀ forest : Forest,
    (Forest.pieces forest).flatMap (· ++ [' ']) = Forest.spread forest
  | [] => rfl
  | node :: rest => by
    rw [Forest.pieces, List.flatMap_append, Node.pieces_spaced node, Forest.pieces_spaced rest,
      Forest.spread_cons]
    simp

end

theorem Node.pieces_ne_nil (node : Node) : node.pieces ≠ [] := by
  cases node <;> simp [Node.pieces]

/-- A forest is written by joining its pieces. -/
theorem unwords_pieces (forest : Forest) :
    unwords (Forest.pieces forest) = Forest.render forest := by
  cases forest with
  | nil => rfl
  | cons node rest =>
    have hne : Forest.pieces (node :: rest) ≠ [] := by
      simp [Forest.pieces, node.pieces_ne_nil]
    have h := unwords_spaced hne
    rw [Forest.pieces_spaced, Forest.spread_eq (by simp)] at h
    exact List.append_cancel_right h

/-! ## Scanning -/

/-- A leaf is its modifier followed by its body. -/
theorem Leaf.modifier_bodyText (l : Leaf) :
    Modifier.text l.token.modifier ++ l.token.bodyText = l.text := by
  have hmod : l.token.modifier = (takeModifier l.text).1 := congrArg Token.modifier l.token_eq
  have heq := takeModifier_eq l.text
  rw [← hmod] at heq
  have hdrop : l.token.bodyText = (takeModifier l.text).2 :=
    calc l.token.bodyText
        = (Modifier.text l.token.modifier ++ (takeModifier l.text).2).drop
            (Modifier.text l.token.modifier).length := by rw [heq]; rfl
      _ = (takeModifier l.text).2 := List.drop_left
  rw [hdrop, heq]

namespace Scan

theorem tagText_leaf (l : Leaf) (canonical : Text → Text) (outer : List Modifier) (offset : Nat) :
    tagText {} canonical outer { l.token with offset } = l.text := by
  have hbody : tagText {} canonical outer { l.token with offset }
      = Modifier.text l.token.modifier ++ l.token.bodyText := by
    simp only [tagText, tagSign, Bool.false_eq_true, if_false]
    split <;> rfl
  rw [hbody, l.modifier_bodyText]

theorem tagsOf_map_tag (texts : List Text) : Item.tagsOf (texts.map .tag) = texts := by
  induction texts with
  | nil => rfl
  | cons text rest ih => rw [List.map_cons, Item.tagsOf, Item.tags, ih, List.singleton_append]

/-- What a node adds to its level under the default options. -/
def entry : Node → Entry
  | .leaf l => .tag l.text
  | .group modifier children => .group ((Node.group modifier children).pieces.map .tag)

theorem entry_items (node : Node) : (entry node).items = node.pieces.map .tag := by
  cases node <;> rfl

/-- Under the default options a level keeps its entries as they come. -/
theorem arrange_default (forest : Forest) :
    arrange {} (forest.map entry) = (Forest.pieces forest).map .tag := by
  simp only [arrange, Bool.false_eq_true, if_false]
  induction forest with
  | nil => rfl
  | cons node rest ih =>
    rw [List.map_cons, List.flatMap_cons, ih, entry_items, Forest.pieces, List.map_append]

mutual

theorem scanTree_render (canonical : Text → Text) : ∀ (node : Node) (nesting : Nat)
    (outer : List Modifier) (offset : Nat), nesting + node.depth ≤ maxDepth →
    scanTree {} canonical nesting outer (node.tree offset) = .ok (entry node)
  | .leaf l, nesting, outer, offset, _ => by
    rw [Node.tree, scanTree, tagText_leaf, entry]
  | .group modifier children, nesting, outer, offset, h => by
    rw [Node.depth] at h
    have hfit : 0 + (nesting + 1) ≤ Options.limit {} := by
      show 0 + (nesting + 1) ≤ min maxDepth maxDepth
      omega
    rw [Node.tree, scanTree, if_pos hfit, scanTrees_render canonical children (nesting + 1) _ 0
      (by omega)]
    show Except.ok (Entry.group (wrap {} modifier (arrange {} (children.map entry)))) = _
    rw [arrange_default]
    simp [wrap, groupSign, entry, Node.pieces]

theorem scanTrees_render (canonical : Text → Text) : ∀ (forest : Forest) (nesting : Nat)
    (outer : List Modifier) (offset : Nat), nesting + Forest.depth forest ≤ maxDepth →
    scanTrees {} canonical nesting outer (Forest.trees offset forest) = .ok (forest.map entry)
  | [], _, _, _, _ => rfl
  | node :: rest, nesting, outer, offset, h => by
    rw [Forest.depth] at h
    rw [Forest.trees, scanTrees, scanTree_render canonical node nesting outer offset (by omega),
      scanTrees_render canonical rest nesting outer _ (by omega)]
    rfl

end

theorem arrange_singleton (options : Options) (entry : Entry) :
    arrange options [entry] = entry.items := by
  simp [arrange, List.eraseDupsBy_cons]

/-- A search that is one group is scanned as that group, which is all that its level holds. -/
theorem scan_eq (options : Options) (canonical : Text → Text) (search : Text) :
    scan options canonical search
      = arrange options
          <$> scanTrees options canonical 0 [] (Tree.ofText (cleanSearch search)) := by
  unfold scan
  split
  · next token children hone =>
    rw [hone, scanTrees, scanTrees]
    cases scanTree options canonical 0 [] (.group token children) with
    | error e => rfl
    | ok entry => exact congrArg Except.ok (arrange_singleton options entry).symm
  · rfl

/-- **The default scan of a written forest lists its pieces.** -/
theorem scan_render (canonical : Text → Text) {forest : Forest}
    (hcompose : (Forest.render forest).compose = Forest.render forest)
    (hnul : '\x00' ∉ Forest.render forest) (hdepth : Forest.depth forest ≤ maxDepth) :
    scan {} canonical (Forest.render forest) = .ok ((Forest.pieces forest).map .tag) := by
  rw [scan_eq, cleanSearch_render hcompose hnul, Tree.ofText_render,
    scanTrees_render canonical forest 0 [] 0 (by omega)]
  exact congrArg Except.ok (arrange_default forest)

end Scan

/-- **Printing and lexing are inverse.** Lexing a written forest gives its nodes at every depth, and
the default scan, joined by single spaces, gives back what was written. -/
theorem tokenize_scan_render (forest : Forest) :
    Forest.IsReadAs forest (tokenize (Forest.render forest))
      ∧ ((Forest.render forest).compose = Forest.render forest →
          '\x00' ∉ Forest.render forest → Forest.depth forest ≤ maxDepth →
          ∃ items, Scan.scan {} id (Forest.render forest) = .ok items
            ∧ unwords (Scan.Item.tagsOf items) = Forest.render forest) := by
  refine ⟨Forest.isReadAs_tokenize forest, ?_⟩
  intro hcompose hnul hdepth
  refine ⟨_, Scan.scan_render id hcompose hnul hdepth, ?_⟩
  rw [Scan.tagsOf_map_tag, unwords_pieces]

/-- A forest with groups in groups and a parenthesis between quotes. -/
theorem tokenize_scan_render_mixedForest :
    Forest.IsReadAs mixedForest (tokenize (Forest.render mixedForest))
      ∧ ∃ items, Scan.scan {} id (Forest.render mixedForest) = .ok items
        ∧ unwords (Scan.Item.tagsOf items) = Forest.render mixedForest := by
  obtain ⟨htokens, hscan⟩ := tokenize_scan_render mixedForest
  exact ⟨htokens, hscan (by decide +kernel) (by decide +kernel) (by decide +kernel)⟩

end TagSearch
