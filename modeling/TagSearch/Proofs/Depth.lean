import TagSearch.Proofs.Composition
import TagSearch.Proofs.Strictness

/-!
# One limit of depth

The nesting of groups is measured three times: hoisting counts the groups that it may still open, a
scan adds the groups it meets to those around it, and compiling counts the level it is at. On the
text of a forest the three agree with the number of groups around a leaf, `Forest.placed`, and so
they enforce one and the same limit.

* `compileLevel_within`: a forest that nests no deeper than its level allows is never too deep.
* `compileLevel_past`: a leaf past the limit is never compiled by a strict level.
* `compile_depth_limit`: all there is to say about the limit of a search.
-/

namespace TagSearch

open Text Lexer

/-! ## Unwrapping -/

mutual

/-- The number of plain groups around all of a node. -/
def Node.layers : Node → Nat
  | .leaf _ => 0
  | .group none children => Forest.layers children + 1
  | .group (some _) _ => 0

/-- The number of plain groups around all of a forest. -/
def Forest.layers : List Node → Nat
  | [node] => node.layers
  | _ => 0

end

mutual

theorem Node.depth_unwrapped : ∀ node : Node,
    Forest.depth node.unwrapped + node.layers = node.depth
  | .leaf l => rfl
  | .group none children => by
    rw [Node.unwrapped, Node.layers, Node.depth, ← Forest.depth_unwrapped children, Nat.add_assoc]
  | .group (some m) children => by
    simp [Node.unwrapped, Node.layers, Forest.depth]

/-- Unwrapping takes its layers off the depth. -/
theorem Forest.depth_unwrapped : ∀ forest : Forest,
    Forest.depth (Forest.unwrapped forest) + Forest.layers forest = Forest.depth forest
  | [] => rfl
  | [node] => by
    rw [Forest.unwrapped, Forest.layers, Node.depth_unwrapped node]
    simp [Forest.depth]
  | _ :: _ :: _ => rfl

end

mutual

theorem Node.placed_unwrapped : ∀ node : Node,
    node.placed = (Forest.placed node.unwrapped).map fun (groups, l) => (groups + node.layers, l)
  | .leaf l => rfl
  | .group none children => by
    rw [Node.unwrapped, Node.layers, Node.placed, Forest.placed_unwrapped children, List.map_map]
    rfl
  | .group (some m) children => by
    simp [Node.unwrapped, Node.layers, Forest.placed]

/-- Unwrapping takes its layers from around every leaf. -/
theorem Forest.placed_unwrapped : ∀ forest : Forest,
    Forest.placed forest
      = (Forest.placed (Forest.unwrapped forest)).map
          fun (groups, l) => (groups + Forest.layers forest, l)
  | [] => rfl
  | [node] => by
    rw [Forest.unwrapped, Forest.layers, ← Node.placed_unwrapped node]
    simp [Forest.placed]
  | first :: second :: rest => by
    simp [Forest.unwrapped, Forest.layers]

end

theorem Forest.layers_level {forest : Forest} (h : Forest.IsLevel forest) :
    Forest.layers forest = 0 := by
  match forest with
  | [] => rfl
  | [.leaf l] => rfl
  | [.group none children] => exact absurd rfl (h.notWrapped children)
  | [.group (some m) children] => rfl
  | _ :: _ :: _ => rfl

/-- Where hoisting finds a token, it has unwrapped all the layers of the forest. -/
theorem hoistText_unwrapped {options : Hoist.Options} {limit : Nat} (remaining : Nat)
    (forest : Forest) {tokens : List Token} {unwrapped : Nat} (hlimit : remaining ≤ limit)
    (h : Hoist.hoistText options limit remaining (Forest.render forest) = .ok (tokens, unwrapped))
    (hne : tokens ≠ []) :
    Forest.layers forest ≤ remaining ∧ unwrapped = limit - remaining + Forest.layers forest := by
  rcases Forest.shape forest with rfl | ⟨modifier, rfl⟩ | ⟨node, rest, rfl⟩ | hlevel
  · rw [Forest.render_nil, hoistText_empty _ _ _ rfl] at h
    cases h
    exact absurd rfl hne
  · rw [hoistText_empty _ _ _ (holdsNothing_emptyGroup modifier)] at h
    cases h
    exact absurd rfl hne
  · match remaining with
    | 0 =>
      rw [hoistText_group_zero] at h
      split at h
      · simp at h
      · cases h
        exact absurd rfl hne
    | remaining + 1 =>
      rw [hoistText_group] at h
      obtain ⟨hlayers, rfl⟩ := hoistText_unwrapped remaining (node :: rest) (by omega) h hne
      rw [Forest.layers, Node.layers]
      omega
  · rw [hoistText_isLevel hlevel] at h
    obtain ⟨found, _, h⟩ := exists_ok_of_bind h
    cases h
    rw [Forest.layers_level hlevel]
    exact ⟨Nat.zero_le _, rfl⟩

/-! ## What hoisting leaves -/

theorem Forest.placed_append (first second : Forest) :
    Forest.placed (first ++ second) = Forest.placed first ++ Forest.placed second := by
  induction first with
  | nil => rfl
  | cons node rest ih =>
    rw [List.cons_append, Forest.placed, Forest.placed, ih, List.append_assoc]

theorem Forest.mem_placed {forest : Forest} {place : Nat × Leaf} :
    place ∈ Forest.placed forest ↔ ∃ node ∈ forest, place ∈ node.placed := by
  induction forest with
  | nil => simp [Forest.placed]
  | cons node rest ih => simp [Forest.placed, ih]

theorem Forest.depth_append (first second : Forest) :
    Forest.depth (first ++ second) = max (Forest.depth first) (Forest.depth second) := by
  induction first with
  | nil => simp [Forest.depth]
  | cons node rest ih => rw [List.cons_append, Forest.depth, Forest.depth, ih, Nat.max_assoc]

theorem Forest.depth_le {forest : Forest} {node : Node} (h : node ∈ forest) :
    node.depth ≤ Forest.depth forest := by
  induction forest with
  | nil => simp at h
  | cons first rest ih =>
    rw [Forest.depth]
    rcases List.mem_cons.mp h with rfl | h
    · exact Nat.le_max_left _ _
    · exact Nat.le_trans (ih h) (Nat.le_max_right _ _)

variable (names : List Text)

mutual

theorem Node.placed_stripped : ∀ node : Node,
    Forest.placed (node.stripped names) = node.placed.filter fun (_, l) => !l.isHoisted names
  | .leaf l => by
    rw [Node.stripped, Node.placed]
    split
    · next h => simp [Forest.placed, h]
    · next h => simp [Forest.placed, Node.placed, h]
  | .group modifier children => by
    rw [Node.stripped, Forest.placed, Node.placed, Forest.placed_stripped children, Node.placed,
      List.filter_map]
    simp [Forest.placed, Function.comp_def]

/-- The leaves that are not hoisted stay where they are. -/
theorem Forest.placed_stripped : ∀ forest : Forest,
    Forest.placed (Forest.stripped names forest)
      = (Forest.placed forest).filter fun (_, l) => !l.isHoisted names
  | [] => rfl
  | node :: rest => by
    rw [Forest.stripped, Forest.placed_append, Node.placed_stripped node,
      Forest.placed_stripped rest, Forest.placed, List.filter_append]

end

mutual

theorem Node.depth_stripped : ∀ node : Node, Forest.depth (node.stripped names) ≤ node.depth
  | .leaf l => by
    rw [Node.stripped]
    split <;> simp [Forest.depth, Node.depth]
  | .group modifier children => by
    rw [Node.stripped, Forest.depth, Node.depth, Node.depth]
    simpa [Forest.depth] using Forest.depth_stripped children

theorem Forest.depth_stripped : ∀ forest : Forest,
    Forest.depth (Forest.stripped names forest) ≤ Forest.depth forest
  | [] => Nat.le_refl _
  | node :: rest => by
    have hnode := Node.depth_stripped node
    have hrest := Forest.depth_stripped rest
    rw [Forest.stripped, Forest.depth_append, Forest.depth]
    omega

end

variable {names}

mutual

theorem Node.le_depth : ∀ {node : Node} {place : Nat × Leaf}, place ∈ node.placed →
    place.1 ≤ node.depth
  | .leaf _, place, h => by
    rw [List.mem_singleton.mp h]
    exact Nat.zero_le _
  | .group _ children, place, h => by
    obtain ⟨inner, hinner, rfl⟩ := List.mem_map.mp h
    exact Nat.succ_le_succ (Forest.le_depth hinner)

/-- No leaf has more groups around it than the forest is deep. -/
theorem Forest.le_depth : ∀ {forest : Forest} {place : Nat × Leaf}, place ∈ Forest.placed forest →
    place.1 ≤ Forest.depth forest
  | node :: rest, place, h => by
    rw [Forest.depth]
    rcases List.mem_append.mp h with h | h
    · exact Nat.le_trans (Node.le_depth h) (Nat.le_max_left _ _)
    · exact Nat.le_trans (Forest.le_depth h) (Nat.le_max_right _ _)

end

/-- What a top-level node is replaced by nests no deeper and has no other leaves. -/
theorem Node.of_mem_hoist {node other : Node} (h : other ∈ node.hoist names) :
    other.depth ≤ node.depth ∧ ∀ l ∈ Forest.leaves [other], l ∈ Forest.leaves [node] := by
  cases node with
  | leaf l =>
    rw [Node.hoist, List.mem_singleton] at h
    subst h
    exact ⟨Nat.le_refl _, fun _ => id⟩
  | group modifier children =>
    rw [Node.hoist] at h
    split at h
    · rw [List.mem_singleton] at h
      subst h
      exact ⟨Nat.le_refl _, fun _ => id⟩
    · rw [Forest.leaves_group]
      rcases List.mem_append.mp h with h | h
      · obtain ⟨l, hl, rfl⟩ := List.mem_map.mp h
        refine ⟨Nat.zero_le _, ?_⟩
        intro l' hl'
        rw [Forest.leaves_leaf, List.mem_singleton] at hl'
        subst hl'
        exact (List.mem_filter.mp hl).1
      · rw [List.mem_singleton] at h
        subst h
        refine ⟨Nat.succ_le_succ (Forest.depth_stripped names children), ?_⟩
        intro l hl
        rw [Forest.leaves_group, Forest.leaves, Forest.placed_stripped] at hl
        obtain ⟨place, hplace, rfl⟩ := List.mem_map.mp hl
        exact List.mem_map_of_mem (List.mem_filter.mp hplace).1

theorem Forest.exists_of_mem_hoist {forest : Forest} {node : Node}
    (h : node ∈ Forest.hoist names forest) :
    ∃ origin ∈ Forest.unwrapped forest, node ∈ origin.hoist names := by
  unfold Forest.hoist at h
  split at h
  · simp at h
  · exact List.mem_flatMap.mp h

/-- **What hoisting leaves, with the groups that it unwrapped, nests no deeper.** -/
theorem Forest.depth_hoist {forest : Forest} {node : Node} (h : node ∈ Forest.hoist names forest) :
    node.depth + Forest.layers forest ≤ Forest.depth forest := by
  obtain ⟨origin, horigin, hnode⟩ := Forest.exists_of_mem_hoist h
  rw [← Forest.depth_unwrapped forest]
  exact Nat.add_le_add_right
    (Nat.le_trans (Node.of_mem_hoist hnode).1 (Forest.depth_le horigin)) _

theorem Forest.mem_leaves_of_mem {forest : Forest} {node : Node} (h : node ∈ forest) {l : Leaf}
    (hl : l ∈ Forest.leaves [node]) : l ∈ Forest.leaves forest := by
  obtain ⟨place, hplace, rfl⟩ := List.mem_map.mp hl
  obtain ⟨other, hother, hplaced⟩ := Forest.mem_placed.mp hplace
  rw [List.mem_singleton.mp hother] at hplaced
  exact List.mem_map_of_mem (Forest.mem_placed.mpr ⟨node, h, hplaced⟩)

/-- What hoisting leaves has no other leaves. -/
theorem Forest.leaves_hoist {forest : Forest} {node : Node} (h : node ∈ Forest.hoist names forest) :
    ∀ l ∈ Forest.leaves [node], l ∈ Forest.leaves forest := by
  intro l hl
  obtain ⟨origin, horigin, hnode⟩ := Forest.exists_of_mem_hoist h
  have hl := Forest.mem_leaves_of_mem horigin ((Node.of_mem_hoist hnode).2 l hl)
  rw [Forest.leaves, Forest.placed_unwrapped, List.map_map]
  exact hl

/-! ## Leaves past the limit -/

section Strict

variable {options : Hoist.Options} {limit remaining : Nat}

mutual

theorem liftTree_reach (hstrict : options.failOnDepth = true) :
    ∀ (node : Node) (nesting offset : Nat) {lifted : Hoist.Lifted},
    Hoist.liftTree options limit remaining nesting (node.tree offset) = .ok lifted →
    ∀ place ∈ node.placed, place.2.isHoisted options.names = true →
      place.1 = 0 ∨ nesting + place.1 ≤ remaining
  | .leaf l, _, _, _, _, place, hplace, _ => by
    -- a leaf is lifted from its own level without a look at the limit
    rw [Node.placed, List.mem_singleton] at hplace
    exact Or.inl (by rw [hplace])
  | .group modifier children, nesting, offset, lifted, h, place, hplace, hhoisted => by
    obtain ⟨⟨groups, l⟩, hinner, rfl⟩ := List.mem_map.mp hplace
    have hmem : l ∈ Forest.hoisted options.names children :=
      List.mem_filter.mpr ⟨List.mem_map_of_mem hinner, hhoisted⟩
    have hsome : Hoist.anyHoisted options.names (Forest.trees 0 children) = true := by
      rw [anyHoisted_trees]
      simpa using List.ne_nil_of_mem hmem
    rw [Node.tree, Hoist.liftTree, if_pos hsome] at h
    split at h
    · obtain ⟨found, hfound, _⟩ := exists_ok_of_bind h
      have hreach := liftTrees_reach hstrict children (nesting + 1) 0 hfound _ hinner hhoisted
      right
      show nesting + (groups + 1) ≤ remaining
      omega
    · simp at h

/-- A strict lifting reaches every leaf that it lifts. -/
theorem liftTrees_reach (hstrict : options.failOnDepth = true) :
    ∀ (forest : Forest) (nesting offset : Nat) {lifted : Hoist.Lifted},
    Hoist.liftTrees options limit remaining nesting (Forest.trees offset forest) = .ok lifted →
    ∀ place ∈ Forest.placed forest, place.2.isHoisted options.names = true →
      place.1 = 0 ∨ nesting + place.1 ≤ remaining
  | [], _, _, _, _, place, hplace, _ => by simp [Forest.placed] at hplace
  | node :: rest, nesting, offset, lifted, h, place, hplace, hhoisted => by
    rw [Forest.trees, Hoist.liftTrees] at h
    obtain ⟨first, hfirst, h⟩ := exists_ok_of_bind h
    obtain ⟨others, hothers, _⟩ := exists_ok_of_bind h
    rw [Forest.placed, List.mem_append] at hplace
    rcases hplace with hplace | hplace
    · exact liftTree_reach hstrict node nesting offset hfirst place hplace hhoisted
    · exact liftTrees_reach hstrict rest nesting _ hothers place hplace hhoisted

end

theorem hoistTree_reach (hstrict : options.failOnDepth = true) {node : Node} {offset : Nat}
    {tokens : List Token}
    (h : Hoist.hoistTree options limit remaining (node.tree offset) = .ok tokens) :
    ∀ place ∈ node.placed, place.2.isHoisted options.names = true → place.1 ≤ remaining := by
  intro place hplace hhoisted
  cases node with
  | leaf l =>
    rw [Node.placed, List.mem_singleton] at hplace
    rw [hplace]
    exact Nat.zero_le _
  | group modifier children =>
    have hmem : place.2 ∈ Forest.hoisted options.names [.group modifier children] := by
      refine List.mem_filter.mpr ⟨List.mem_map_of_mem ?_, hhoisted⟩
      simpa [Forest.placed] using hplace
    have hsome : Hoist.holdsHoisted options.names ((Node.group modifier children).tree offset)
        = true := by
      rw [holdsHoisted_tree]
      simpa using List.ne_nil_of_mem hmem
    rw [Node.tree] at h hsome
    rw [Hoist.hoistTree, if_pos hsome] at h
    obtain ⟨lifted, hlift, _⟩ := exists_ok_of_bind h
    have hreach := liftTree_reach hstrict (.group modifier children) 0 offset
      (by rwa [Node.tree]) place hplace hhoisted
    omega

theorem mapM_hoistTree_reach (hstrict : options.failOnDepth = true) {forest : Forest}
    {offset : Nat} {found : List (List Token)}
    (h : (Forest.trees offset forest).mapM (Hoist.hoistTree options limit remaining) = .ok found) :
    ∀ place ∈ Forest.placed forest, place.2.isHoisted options.names = true →
      place.1 ≤ remaining := by
  induction forest generalizing offset found with
  | nil => simp [Forest.placed]
  | cons node rest ih =>
    intro place hplace hhoisted
    rw [Forest.trees, List.mapM_cons] at h
    obtain ⟨first, hfirst, h⟩ := exists_ok_of_bind h
    obtain ⟨others, hothers, _⟩ := exists_ok_of_bind h
    rw [Forest.placed, List.mem_append] at hplace
    rcases hplace with hplace | hplace
    · exact hoistTree_reach hstrict hfirst place hplace hhoisted
    · exact ih hothers place hplace hhoisted

/-- **A strict hoisting reaches every leaf that it hoists.** -/
theorem hoistText_reach (hstrict : options.failOnDepth = true) (remaining : Nat) (forest : Forest)
    {result : List Token × Nat}
    (h : Hoist.hoistText options limit remaining (Forest.render forest) = .ok result) :
    ∀ place ∈ Forest.placed forest, place.2.isHoisted options.names = true →
      place.1 ≤ remaining := by
  intro place hplace hhoisted
  rcases Forest.shape forest with rfl | ⟨modifier, rfl⟩ | ⟨node, rest, rfl⟩ | hlevel
  · simp [Forest.placed] at hplace
  · simp [Forest.placed, Node.placed] at hplace
  · match remaining with
    | 0 =>
      rw [hoistText_group_zero, if_pos hstrict] at h
      simp at h
    | remaining + 1 =>
      rw [hoistText_group] at h
      rw [Forest.placed, Forest.placed, List.append_nil, Node.placed] at hplace
      obtain ⟨⟨groups, l⟩, hinner, rfl⟩ := List.mem_map.mp hplace
      exact Nat.succ_le_succ (hoistText_reach hstrict remaining (node :: rest) h _ hinner hhoisted)
  · rw [hoistText_isLevel hlevel] at h
    obtain ⟨found, hfound, _⟩ := exists_ok_of_bind h
    exact mapM_hoistTree_reach hstrict hfound place hplace hhoisted

end Strict

theorem Node.placed_hoist {node : Node} {place : Nat × Leaf} (h : place ∈ node.placed)
    (hkept : place.2.isHoisted names = false) :
    ∃ other ∈ node.hoist names, place ∈ other.placed := by
  cases node with
  | leaf l => exact ⟨.leaf l, List.mem_singleton_self _, h⟩
  | group modifier children =>
    rw [Node.hoist]
    split
    · exact ⟨_, List.mem_singleton_self _, h⟩
    · refine ⟨_, List.mem_append_right _ (List.mem_singleton_self _), ?_⟩
      obtain ⟨⟨groups, l⟩, hinner, rfl⟩ := List.mem_map.mp h
      rw [Node.placed, Forest.placed_stripped]
      refine List.mem_map.mpr ⟨(groups, l), List.mem_filter.mpr ⟨hinner, ?_⟩, rfl⟩
      simpa using hkept

/-- A leaf that is not hoisted stays where it is, but for the groups that were unwrapped. -/
theorem Forest.placed_hoist {forest : Forest} {groups : Nat} {l : Leaf}
    (h : (groups, l) ∈ Forest.placed forest) (hkept : l.isHoisted names = false) :
    ∃ node ∈ Forest.hoist names forest, ∃ inner, (inner, l) ∈ node.placed
      ∧ groups = inner + Forest.layers forest := by
  rw [Forest.placed_unwrapped] at h
  obtain ⟨⟨inner, l'⟩, hinner, he⟩ := List.mem_map.mp h
  obtain ⟨rfl, rfl⟩ := Prod.mk.inj he
  obtain ⟨origin, horigin, hplace⟩ := Forest.mem_placed.mp hinner
  obtain ⟨node, hnode, hplace⟩ := Node.placed_hoist hplace hkept
  refine ⟨node, ?_, inner, hplace, rfl⟩
  unfold Forest.hoist
  split
  · -- an empty group would have no leaf to keep
    next hempty =>
    rw [hempty] at hinner
    simp [Forest.placed, Node.placed] at hinner
  · exact List.mem_flatMap.mpr ⟨origin, horigin, hnode⟩

/-! ## Tokens and nodes -/

theorem AreTokensOf.exists_node {nodes : Forest} {tokens : List Token}
    (h : AreTokensOf nodes tokens) {token : Token} (ht : token ∈ tokens) :
    ∃ node ∈ nodes, token.atStart = node.token 0 := by
  have hmem : token.atStart ∈ nodes.map (Node.token 0) := h ▸ List.mem_map_of_mem ht
  obtain ⟨node, hnode, he⟩ := List.mem_map.mp hmem
  exact ⟨node, hnode, he.symm⟩

theorem AreTokensOf.exists_token {nodes : Forest} {tokens : List Token}
    (h : AreTokensOf nodes tokens) {node : Node} (hn : node ∈ nodes) :
    ∃ token ∈ tokens, token.atStart = node.token 0 := by
  have hmem : node.token 0 ∈ tokens.map Token.atStart := by
    rw [AreTokensOf] at h
    rw [h]
    exact List.mem_map_of_mem hn
  exact List.mem_map.mp hmem

theorem text_of_atStart {token : Token} {node : Node} (h : token.atStart = node.token 0) :
    token.text = node.render := by
  rw [← Node.token_text node 0, ← h]
  rfl

/-- A group token stands for a group, and holds its children as written. -/
theorem group_of_atStart {token : Token} {node : Node} {source : Text}
    (h : token.atStart = node.token 0) (hgroup : token.group? = some source) :
    ∃ modifier children, node = .group modifier children ∧ source = Forest.render children := by
  have hgroup : (node.token 0).group? = some source := by
    rw [← h]
    exact hgroup
  cases node with
  | leaf l =>
    rw [Node.token_leaf] at hgroup
    unfold Token.group? at hgroup
    split at hgroup
    · next inner hbody => exact absurd hbody (l.body_ne_group inner)
    · simp at hgroup
  | group modifier children =>
    cases hgroup
    exact ⟨modifier, children, rfl, rfl⟩

theorem group?_of_atStart {token : Token} {modifier : Option Modifier} {children : Forest}
    (h : token.atStart = (Node.group modifier children).token 0) :
    token.group? = some (Forest.render children) :=
  congrArg Token.group? h

/-! ## The levels of a hoisted forest -/

section Hoisted

variable {options : Hoist.Options} {remaining : Nat} {forest : Forest} {tokens : List Token}
  {unwrapped : Nat}

/-- Within the limit, a token stands for a node that, with the groups that were unwrapped, nests no
deeper than the forest. -/
theorem hoistText_within (hdepth : Forest.depth forest ≤ remaining)
    (h : Hoist.hoistText options remaining remaining (Forest.render forest)
      = .ok (tokens, unwrapped)) {token : Token} (ht : token ∈ tokens) :
    ∃ node ∈ Forest.hoist options.names forest, token.atStart = node.token 0
      ∧ node.depth + unwrapped ≤ Forest.depth forest := by
  have htokens := hoistText_forest remaining forest (Or.inl hdepth) h
  obtain ⟨node, hnode, hat⟩ := htokens.exists_node ht
  obtain ⟨_, hunwrapped⟩ :=
    hoistText_unwrapped remaining forest (Nat.le_refl _) h (List.ne_nil_of_mem ht)
  have hle := Forest.depth_hoist hnode
  exact ⟨node, hnode, hat, by omega⟩

/-- A leaf past the limit of a strict hoisting is left inside a group, with as many groups around it
as before, less those that were unwrapped. -/
theorem hoistText_past (hstrict : options.failOnDepth = true)
    (h : Hoist.hoistText options remaining remaining (Forest.render forest)
      = .ok (tokens, unwrapped)) {place : Nat × Leaf} (hplace : place ∈ Forest.placed forest)
    (hpast : remaining < place.1) :
    ∃ token ∈ tokens, ∃ modifier children,
      Node.group modifier children ∈ Forest.hoist options.names forest
        ∧ token.atStart = (Node.group modifier children).token 0
        ∧ ∃ inner, (inner, place.2) ∈ Forest.placed children
          ∧ place.1 = inner + 1 + unwrapped := by
  obtain ⟨groups, l⟩ := place
  -- lifting the leaf from where it stands would have failed, so it was left in place
  have hkept : l.isHoisted options.names = false := by
    by_contra hhoisted
    have hreach := hoistText_reach hstrict remaining forest h _ hplace (by simpa using hhoisted)
    exact absurd hpast (Nat.not_lt_of_le hreach)
  obtain ⟨node, hnode, inner, hinner, rfl⟩ := Forest.placed_hoist hplace hkept
  have htokens := hoistText_forest remaining forest (Or.inr hstrict) h
  obtain ⟨token, ht, hat⟩ := htokens.exists_token hnode
  obtain ⟨hlayers, hunwrapped⟩ :=
    hoistText_unwrapped remaining forest (Nat.le_refl _) h (List.ne_nil_of_mem ht)
  cases node with
  | leaf l' =>
    -- only unwrapping could have brought the leaf here, and it stops at the limit
    cases List.mem_singleton.mp hinner
    simp only [Nat.zero_add] at hpast
    omega
  | group modifier children =>
    obtain ⟨⟨deeper, l'⟩, hdeeper, he⟩ := List.mem_map.mp hinner
    obtain ⟨rfl, rfl⟩ := Prod.mk.inj he
    refine ⟨token, ht, modifier, children, hnode, hat, deeper, hdeeper, ?_⟩
    rw [hunwrapped, Nat.sub_self, Nat.zero_add]

end Hoisted

/-! ## Scanning a group -/

theorem Scan.scan_group {options : Scan.Options} {canonical : Text → Text}
    {modifier : Option Modifier} {children : Forest}
    (hclean : Forest.IsClean [.group modifier children]) :
    Scan.scan options canonical (Node.group modifier children).render
      = Scan.Entry.items
          <$> Scan.scanTree options canonical 0 [] ((Node.group modifier children).tree 0) := by
  have hclean := cleanSearch_render hclean.composed hclean.noNul
  rw [← Forest.render_singleton, Scan.scan, hclean, Tree.ofText_render]
  rfl

/-! ## Levels -/

namespace Level

theorem remaining_deeper (level : Level) (groups : Nat) :
    (level.deeper groups).remaining = level.remaining - groups := by
  simp only [remaining, deeper]
  omega

theorem remaining_child (level : Level) (free : Nat) :
    (level.child free).remaining = level.remaining - 1 := by
  simp only [remaining, child]
  omega

theorem exceeds_of_remaining {level : Level} (h : 1 ≤ level.remaining) :
    level.exceeds = false := by
  simp only [remaining] at h
  simp only [exceeds, decide_eq_false_iff_not]
  omega

end Level

/-- A level that compiling can come to. -/
structure Level.IsReached (level : Level) : Prop where
  depth_pos : 1 ≤ level.depth
  limit_le : level.depthLimit ≤ maxDepth

theorem Level.isReached_root (s : Settings) : (Level.root s).IsReached where
  depth_pos := Nat.le_refl 1
  limit_le := Nat.min_le_right _ _

theorem Level.IsReached.deeper {level : Level} (h : level.IsReached) (unwrapped : Nat) :
    (level.deeper unwrapped).IsReached where
  depth_pos := Nat.le_trans h.depth_pos (Nat.le_add_right _ _)
  limit_le := h.limit_le

theorem Level.IsReached.child {level : Level} (h : level.IsReached) (free : Nat) :
    (level.child free).IsReached where
  depth_pos := Nat.le_add_left 1 _
  limit_le := h.limit_le

theorem Level.IsReached.remaining_le {level : Level} (h : level.IsReached) :
    level.remaining ≤ maxDepth := by
  have hpos := h.depth_pos
  have hlimit := h.limit_le
  simp only [Level.remaining]
  omega

namespace Compiler

variable {c : Compiler}

theorem hoistOptions_limit {level : Level} (h : level.IsReached) :
    (c.hoistOptions level).limit = level.remaining := by
  have := h.depth_pos
  have := h.limit_le
  show min (level.depthLimit + 1 - level.depth) maxDepth = level.depthLimit + 1 - level.depth
  omega

theorem countOptions_limit {level : Level} (h : level.IsReached) :
    (c.countOptions level).limit = level.depthLimit :=
  Nat.min_eq_left h.limit_le

theorem hoist_render {level : Level} (h : level.IsReached) {forest : Forest}
    (hclean : Forest.IsClean forest) :
    Hoist.hoist (c.hoistOptions level) (Forest.render forest)
      = Hoist.hoistText (c.hoistOptions level) level.remaining level.remaining
          (Forest.render forest) := by
  rw [Hoist.hoist, hoistOptions_limit h, cleanSearch_render hclean.composed hclean.noNul]

section Step

variable {level : Level} (hreached : level.IsReached) {token : Token} {modifier : Option Modifier}
  {children : Forest} (hclean : Forest.IsClean [.group modifier children])
  (hat : token.atStart = (Node.group modifier children).token 0)

include hreached hclean hat

/-- The scan that counts a group of a level measures it from the top. -/
theorem scan_countOptions_succeeds (hfit : level.depth + Forest.depth children ≤ level.depthLimit) :
    ∃ items, Scan.scan (c.countOptions level) id token.text = .ok items := by
  have hpos := hreached.depth_pos
  have hreach : (c.countOptions level).baseDepth
      + (0 + ((Node.group modifier children).tree 0).depth) ≤ (c.countOptions level).limit := by
    rw [Node.depth_tree, Node.depth, countOptions_limit hreached]
    show level.depth - 1 + (0 + (Forest.depth children + 1)) ≤ level.depthLimit
    omega
  obtain ⟨entry, hentry⟩ := Scan.scanTree_succeeds _ id _ 0 [] (Or.inl hreach)
  rw [text_of_atStart hat, Scan.scan_group hclean, hentry]
  exact ⟨_, rfl⟩

theorem scan_countOptions_reach (hcount : c.settings.failOnCountDepth = true)
    {items : List Scan.Item} (h : Scan.scan (c.countOptions level) id token.text = .ok items) :
    level.depth + Forest.depth children ≤ level.depthLimit := by
  have hpos := hreached.depth_pos
  rw [text_of_atStart hat, Scan.scan_group hclean] at h
  obtain ⟨entry, hentry, _⟩ := exists_ok_of_bind h
  have hreach := Scan.scanTree_reach _ id hcount _ 0 [] hentry
  rw [Node.depth_tree, Node.depth, countOptions_limit hreached] at hreach
  have hreach : Forest.depth children + 1 = 0
      ∨ level.depth - 1 + (0 + (Forest.depth children + 1)) ≤ level.depthLimit := hreach
  omega

/-- A group that nests no deeper than its level allows is not too deep. -/
theorem addNext_within (hfit : level.depth + Forest.depth children ≤ level.depthLimit)
    (hinside : ∀ build ∈ c.inside level, ∀ free e,
      build free (Forest.render children) = .error e → ¬ IsDepthError e)
    {q : Query} {e : QueryError} (h : c.addNext (c.inside level) level q token = .error e) :
    ¬ IsDepthError e := by
  intro herror
  have hgroup := group?_of_atStart hat
  cases (addNext_depthExceeded h herror).2 with
  | counted _ _ hscan =>
    obtain ⟨items, hitems⟩ := scan_countOptions_succeeds hreached hclean hat hfit
    rw [hitems] at hscan
    simp at hscan
  | deep hgroup' _ hbuild? hbuild =>
    rw [hgroup] at hgroup'
    cases hgroup'
    exact hinside _ hbuild? _ _ hbuild rfl
  | cut _ _ hbuild? _ =>
    have hroom : level.exceeds = false := by
      simp only [Level.exceeds, decide_eq_false_iff_not]
      omega
    simp [inside, hroom] at hbuild?

/-- A group with a leaf past the limit is not added by a strict level. -/
theorem addNext_past (hcount : c.settings.failOnCountDepth = true)
    (hstrict : level.failOnDepth = true)
    (hpast : level.depthLimit < level.depth + Forest.depth children)
    (hinside : ∀ build ∈ c.inside level, ∀ free q, build free (Forest.render children) ≠ .ok q)
    (q q' : Query) : c.addNext (c.inside level) level q token ≠ .ok q' := by
  intro h
  have hgroup := group?_of_atStart hat
  obtain ⟨hadded, hfits⟩ := added_of_addNext h
  cases hadded with
  | leaf hleaf _ =>
    rw [hgroup] at hleaf
    simp at hleaf
  | counted _ _ hscan =>
    have hreach := scan_countOptions_reach hreached hclean hat hcount hscan
    omega
  | built hgroup' _ hbuild? hbuild =>
    rw [hgroup] at hgroup'
    cases hgroup'
    exact hinside _ hbuild? _ _ hbuild
  | overrun _ _ hbuild? hbuild =>
    -- the group was given up for its tags, and then so is the level
    have hover := inside_saysOverrun hbuild? _ _ _ _ hbuild
    exact absurd hfits (Nat.not_le_of_lt (overrun_of_child hover))
  | cut _ _ _ hsilent =>
    rw [hsilent] at hstrict
    simp at hstrict

end Step

/-- **A forest that nests no deeper than its level allows is never too deep.** -/
theorem compileLevel_within (level : Level) : level.IsReached → ∀ forest : Forest,
    Forest.IsClean forest → Forest.depth forest ≤ level.remaining → ∀ e : QueryError,
      c.compileLevel level (Forest.render forest) = .error e → ¬ IsDepthError e := by
  induction level using Level.descend with
  | step level ih =>
    intro hreached forest hclean hdepth e h herror
    obtain ⟨⟨tokens, unwrapped⟩, hhoist⟩ :=
      @hoistText_fits (c.hoistOptions level) level.remaining level.remaining forest hdepth
    rw [compileLevel_ok c ((hoist_render hreached hclean).trans hhoist)] at h
    obtain ⟨q, token, ht, hnext⟩ := error_of_foldlM (error_of_map h)
    obtain ⟨node, hnode, hat, hle⟩ := hoistText_within hdepth hhoist ht
    obtain ⟨source, hgroup⟩ := (addNext_depthExceeded hnext herror).2.isGroup
    obtain ⟨modifier, children, rfl, -⟩ := group_of_atStart hat hgroup
    have hclean' : Forest.IsClean [.group modifier children] :=
      hclean.of_leaves (Forest.leaves_hoist hnode)
    have hfit : level.depth + unwrapped + Forest.depth children ≤ level.depthLimit := by
      rw [Node.depth] at hle
      unfold Level.remaining at hdepth
      omega
    refine addNext_within (hreached.deeper unwrapped) hclean' hat hfit ?_ hnext herror
    intro build hbuild free
    obtain ⟨hroom, rfl⟩ := c.of_mem_inside hbuild
    refine ih unwrapped free hroom ((hreached.deeper _).child _) children hclean'.children ?_
    show Forest.depth children ≤ level.depthLimit + 1 - (level.depth + unwrapped + 1)
    omega

/-- **A leaf past the limit is never compiled by a strict level.** -/
theorem compileLevel_past (hcount : c.settings.failOnCountDepth = true) (level : Level) :
    level.IsReached → level.failOnDepth = true → ∀ forest : Forest, Forest.IsClean forest →
      ∀ place ∈ Forest.placed forest, level.remaining < place.1 →
        ∀ q, c.compileLevel level (Forest.render forest) ≠ .ok q := by
  induction level using Level.descend with
  | step level ih =>
    intro hreached hstrict forest hclean place hplace hpast q h
    cases hhoist : Hoist.hoist (c.hoistOptions level) (Forest.render forest) with
    | error e =>
      rw [compileLevel_error c hhoist] at h
      simp at h
    | ok result =>
      obtain ⟨tokens, unwrapped⟩ := result
      rw [compileLevel_ok c hhoist] at h
      rw [hoist_render hreached hclean] at hhoist
      obtain ⟨token, ht, modifier, children, hnode, hat, inner, hinner, hplaced⟩ :=
        hoistText_past hstrict hhoist hplace hpast
      obtain ⟨_, hfold, _⟩ := exists_ok_of_bind h
      obtain ⟨before, after, hnext⟩ := ok_of_foldlM hfold ht
      have hclean' : Forest.IsClean [.group modifier children] :=
        hclean.of_leaves (Forest.leaves_hoist hnode)
      have hpast : level.depthLimit + 1 - level.depth < inner + 1 + unwrapped := hplaced ▸ hpast
      have hdeep : level.depthLimit < level.depth + unwrapped + Forest.depth children := by
        have hdepth : inner ≤ Forest.depth children := Forest.le_depth hinner
        omega
      refine addNext_past (hreached.deeper unwrapped) hclean' hat hcount hstrict hdeep ?_ _ _ hnext
      intro build hbuild free
      obtain ⟨hroom, rfl⟩ := c.of_mem_inside hbuild
      have hroom' : ¬ level.depthLimit < level.depth + unwrapped := of_decide_eq_false hroom
      refine ih unwrapped free hroom ((hreached.deeper _).child _) hstrict children
        hclean'.children _ hinner ?_
      show level.depthLimit + 1 - (level.depth + unwrapped + 1) < inner
      omega

/-- **One limit of depth.** For a search that is a written forest, with or without compiling its
groups:

* if no group is nested past the limit, nothing fails for depth, and the switches change nothing;
* if a leaf stands past the limit and both switches are on, nothing is compiled;
* with both switches off nothing fails for depth;
* what fails for depth names the limit. -/
theorem compile_depth_limit (c : Compiler) (forest : Forest)
    (hcompose : (Forest.render forest).compose = Forest.render forest)
    (hnul : '\x00' ∉ Forest.render forest) :
    (Forest.depth forest ≤ c.settings.depth →
        (∀ limit built, c.compile (Forest.render forest) ≠ .error (.depthExceeded limit built))
          ∧ ∀ fails failsCount, (c.withDepthFlags fails failsCount).compile (Forest.render forest)
              = c.compile (Forest.render forest))
      ∧ ((∃ place ∈ Forest.placed forest, c.settings.depth < place.1) →
          c.settings.failOnDepth = true → c.settings.failOnCountDepth = true →
          ∀ q, c.compile (Forest.render forest) ≠ .ok q)
      ∧ (c.settings.failOnDepth = false → c.settings.failOnCountDepth = false →
          ∀ limit built, c.compile (Forest.render forest) ≠ .error (.depthExceeded limit built))
      ∧ ∀ limit built, c.compile (Forest.render forest) = .error (.depthExceeded limit built) →
          limit = c.settings.depth := by
  have hclean : Forest.IsClean forest := ⟨hcompose, hnul⟩
  have hreached := Level.isReached_root c.settings
  refine ⟨fun hdepth => ⟨?_, ?_⟩, ?_, ?_, ?_⟩
  · intro limit built h
    exact compileLevel_within _ hreached forest hclean hdepth _ h rfl
  · -- every run is like the strict one, which has no reason to fail for depth
    have hsame : ∀ fails failsCount,
        (c.withDepthFlags fails failsCount).compile (Forest.render forest)
          = (c.withDepthFlags true true).compile (Forest.render forest) := by
      intro fails failsCount
      have hsame := @compileLevel_sameUnless (c.withDepthFlags true true) fails failsCount rfl
        (Level.root (c.withDepthFlags true true).settings) rfl (Forest.render forest)
      rcases hsame with ⟨e, he, herror⟩ | hsame
      · have hreached := Level.isReached_root (c.withDepthFlags true true).settings
        exact absurd herror (compileLevel_within _ hreached forest hclean hdepth e he)
      · exact hsame
    intro fails failsCount
    rw [hsame fails failsCount]
    exact (hsame c.settings.failOnDepth c.settings.failOnCountDepth).symm
  · rintro ⟨place, hplace, hpast⟩ hstrict hcount
    exact compileLevel_past hcount _ hreached hstrict forest hclean place hplace hpast
  · intro hsilent hcount limit built h
    exact compileLevel_silent hcount _ hsilent _ _ h rfl
  · intro limit built h
    exact compileLevel_depthExceeded h

/-- A compiler of groups that fails on groups past the limit. -/
def strictCompiler (depthLimit : Nat) : Compiler where
  settings :=
    { depthLimit, processGroups := true, failOnDepth := true, failOnCountDepth := true }
  now := ⟨0⟩

/-- Groups nested two deep are within a limit of two, and past one of one. -/
theorem compile_depth_limit_mixedForest :
    (∀ fails failsCount,
        ((strictCompiler 2).withDepthFlags fails failsCount).compile (Forest.render mixedForest)
          = (strictCompiler 2).compile (Forest.render mixedForest))
      ∧ ∀ q, (strictCompiler 1).compile (Forest.render mixedForest) ≠ .ok q := by
  have hcompose : (Forest.render mixedForest).compose = Forest.render mixedForest := by
    decide +kernel
  have hnul : '\x00' ∉ Forest.render mixedForest := by decide +kernel
  have hwithin := compile_depth_limit (strictCompiler 2) mixedForest hcompose hnul
  have hpast := compile_depth_limit (strictCompiler 1) mixedForest hcompose hnul
  have hdeep : ∃ place ∈ Forest.placed mixedForest,
      (strictCompiler 1).settings.depth < place.1 := by
    refine ⟨(Forest.placed mixedForest).getLast (by decide +kernel), List.getLast_mem _, ?_⟩
    decide +kernel
  exact ⟨(hwithin.1 (by decide +kernel)).2, hpast.2.1 hdeep rfl rfl⟩

end Compiler

end TagSearch
