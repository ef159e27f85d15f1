import TagSearch.Proofs.Cleaning
import TagSearch.Proofs.Ordering
import TagSearch.Proofs.Repeats
import TagSearch.Proofs.Siblings

/-!
# The canonical form of a search

The canonical form of a search is written level by level from the inside out: repeats are dropped and
what stays is sorted. On a forest this is `Forest.normal`, and `normalizedText_render` says that a
scan does the same to the forest as written.

Two nodes count as repeats if they are made of the same pieces. For leaves this is equality; for
groups it is less, since the pieces do not say where each of them is nested. Where it is enough, two
forests have the same canonical form just if they are equal up to the order and the repetition of
siblings (`normalizedText_canonical`).
-/

namespace TagSearch

open Text Lexer

/-! ## Pieces -/

/-- Made of the same pieces, in whatever order and however often. -/
def Node.SamePieces (x y : Node) : Prop :=
  (∀ piece ∈ x.pieces, piece ∈ y.pieces) ∧ ∀ piece ∈ y.pieces, piece ∈ x.pieces

instance (x y : Node) : Decidable (x.SamePieces y) :=
  inferInstanceAs (Decidable (_ ∧ _))

theorem Forest.mem_pieces {forest : Forest} {piece : Text} :
    piece ∈ Forest.pieces forest ↔ ∃ node ∈ forest, piece ∈ node.pieces := by
  induction forest with
  | nil => simp [Forest.pieces]
  | cons node rest ih => simp [Forest.pieces, ih]

/-- No leaf is made of the pieces of a group: one of these is `)`. -/
theorem Leaf.not_samePieces_group (l : Leaf) (modifier : Option Modifier) (children : Forest) :
    ¬ (Node.group modifier children).SamePieces (.leaf l) := by
  intro h
  have hclosing : [')'] ∈ (Node.leaf l).pieces := h.1 _ (by simp [Node.pieces])
  have htext : [')'] = l.text := by simpa [Node.pieces] using hclosing
  exact l.notClosing (congrArg List.head? htext.symm)

/-- Whether two nodes count as repeats of each other. -/
def Node.alike (x y : Node) : Bool :=
  (Scan.entry x).alike (Scan.entry y)

/-- **Two nodes count as repeats if they are made of the same pieces.** -/
theorem Node.alike_iff {x y : Node} : x.alike y = true ↔ x.SamePieces y := by
  cases x with
  | leaf l =>
    cases y with
    | leaf l' =>
      simp only [Node.alike, Scan.entry, Scan.Entry.alike, beq_iff_eq, Node.SamePieces, Node.pieces,
        List.mem_singleton, forall_eq]
      exact ⟨fun h => ⟨h, h.symm⟩, And.left⟩
    | group modifier children =>
      refine iff_of_false (by simp [Node.alike, Scan.entry, Scan.Entry.alike]) fun h => ?_
      exact l.not_samePieces_group modifier children ⟨h.2, h.1⟩
  | group modifier children =>
    cases y with
    | leaf l =>
      exact iff_of_false (by simp [Node.alike, Scan.entry, Scan.Entry.alike])
        (l.not_samePieces_group modifier children)
    | group modifier' others =>
      simp [Node.alike, Scan.entry, Scan.Entry.alike, Node.SamePieces, Scan.tagsOf_map_tag]

theorem Node.alike_self (x : Node) : x.alike x = true :=
  Node.alike_iff.mpr ⟨fun _ => id, fun _ => id⟩

/-! ## Writing says it all -/

mutual

theorem Node.tree_inj : ∀ {x y : Node} {offset offset' : Nat},
    x.tree offset = y.tree offset' → x = y
  | .leaf l, .leaf l', _, _, h => by
    simp only [Node.tree, Tree.leaf.injEq, Token.mk.injEq] at h
    exact congrArg Node.leaf (Leaf.text_inj h.2.2.1)
  | .leaf _, .group _ _, _, _, h => by simp [Node.tree] at h
  | .group _ _, .leaf _, _, _, h => by simp [Node.tree] at h
  | .group modifier children, .group modifier' others, _, _, h => by
    simp only [Node.tree, Tree.group.injEq, Token.mk.injEq] at h
    rw [h.1.1, Forest.trees_inj h.2]

theorem Forest.trees_inj : ∀ {forest other : List Node} {offset offset' : Nat},
    Forest.trees offset forest = Forest.trees offset' other → forest = other
  | [], [], _, _, _ => rfl
  | [], _ :: _, _, _, h => by simp [Forest.trees] at h
  | _ :: _, [], _, _, h => by simp [Forest.trees] at h
  | node :: rest, next :: others, _, _, h => by
    simp only [Forest.trees, List.cons.injEq] at h
    rw [Node.tree_inj h.1, Forest.trees_inj h.2]

end

/-- **A forest is determined by how it is written.** -/
theorem Forest.render_inj {forest other : Forest}
    (h : Forest.render forest = Forest.render other) : forest = other := by
  have htrees := congrArg Tree.ofText h
  rw [Tree.ofText_render, Tree.ofText_render] at htrees
  exact Forest.trees_inj htrees

theorem Node.pieces_inj {x y : Node} (h : x.pieces = y.pieces) : x = y := by
  have hpieces : Forest.pieces [x] = Forest.pieces [y] := by simp [Forest.pieces, h]
  have hrender := congrArg unwords hpieces
  rw [unwords_pieces, unwords_pieces] at hrender
  simpa using Forest.render_inj hrender

/-! ## The order of a level -/

theorem Scan.Entry.le_total (a b : Entry) : (a.le b || b.le a) = true := by
  cases a <;> cases b
  · exact Text.orders_le.total _ _
  · rfl
  · rfl
  · exact Text.orders_le.byFirst.total _ _

theorem Scan.Entry.le_trans : ∀ {a b c : Entry}, a.le b = true → b.le c = true → a.le c = true
  | .tag _, .tag _, .tag _, hab, hbc => Text.orders_le.trans _ _ _ hab hbc
  | .group _, _, .tag _, _, _ => rfl
  | .tag _, .group _, _, hab, _ => by simp [le] at hab
  | _, .tag _, .group _, _, hbc => by simp [le] at hbc
  | .group _, .group _, .group _, hab, hbc => Text.orders_le.byFirst.trans _ _ _ hab hbc

/-- Groups come before leaves; groups are ordered by their pieces, leaves by their text. -/
def Node.le (x y : Node) : Bool :=
  (Scan.entry x).le (Scan.entry y)

theorem Node.le_group (modifier modifier' : Option Modifier) (children others : Forest) :
    (Node.group modifier children).le (.group modifier' others)
      = leByFirst Text.le (Node.group modifier children).pieces
          (Node.group modifier' others).pieces := by
  simp [Node.le, Scan.entry, Scan.Entry.le, Scan.tagsOf_map_tag]

theorem Node.orders_le : Orders Node.le where
  total x y := Scan.Entry.le_total _ _
  trans _ _ _ := Scan.Entry.le_trans
  antisymm {x y} hxy hyx := by
    cases x <;> cases y
    · exact congrArg Node.leaf (Leaf.text_inj (Text.orders_le.antisymm hxy hyx))
    · simp [Node.le, Scan.entry, Scan.Entry.le] at hxy
    · simp [Node.le, Scan.entry, Scan.Entry.le] at hyx
    · rw [Node.le_group] at hxy hyx
      exact Node.pieces_inj (Text.orders_le.byFirst.antisymm hxy hyx)

/-! ## The normal form of a forest -/

/-- A level without its repeats, sorted. -/
def Forest.arranged (forest : Forest) : Forest :=
  (forest.eraseDupsBy Node.alike).mergeSort Node.le

mutual

/-- A node whose levels are arranged, from the inside out. -/
def Node.normal : Node → Node
  | .leaf l => .leaf l
  | .group modifier children => .group modifier (Forest.arranged (Forest.normals children))

/-- The nodes of a level, each in normal form. -/
def Forest.normals : List Node → List Node
  | [] => []
  | node :: rest => node.normal :: Forest.normals rest

end

/-- A forest all of whose levels are arranged, from the inside out. -/
def Forest.normal (forest : Forest) : Forest :=
  Forest.arranged (Forest.normals forest)

theorem Forest.normals_eq_map (forest : Forest) :
    Forest.normals forest = forest.map Node.normal := by
  induction forest with
  | nil => rfl
  | cons node rest ih => rw [Forest.normals, ih, List.map_cons]

theorem Node.normal_group (modifier : Option Modifier) (children : Forest) :
    (Node.group modifier children).normal = .group modifier (Forest.normal children) := by
  rw [Node.normal, Forest.normal]

/-- What stays of a level is of the level. -/
theorem Forest.arranged_subset (forest : Forest) : Forest.arranged forest ⊆ forest := by
  intro node hnode
  exact (eraseDupsBy_sublist forest).subset (List.mem_mergeSort.mp hnode)

/-- What is dropped from a level is made of the pieces of something that stays. -/
theorem Forest.exists_mem_arranged {forest : Forest} {x : Node} (hx : x ∈ forest) :
    ∃ y ∈ Forest.arranged forest, x.SamePieces y := by
  obtain ⟨y, hy, halike⟩ := exists_of_mem_eraseDupsBy Node.alike_self forest x hx
  exact ⟨y, List.mem_mergeSort.mpr hy, Node.alike_iff.mp halike⟩

/-! ## Scanning -/

/-- A leaf that is written as it is stored: cleaning leaves it alone and, if it is a plain tag, so
does naming it. -/
structure Leaf.IsNormal (l : Leaf) : Prop where
  clean : cleanSearch l.text = l.text
  name : ∀ tag, l.token.body = .tag tag → tagName tag = tag

instance (l : Leaf) : Decidable l.IsNormal :=
  match hbody : l.token.body with
  | .tag tag =>
    decidable_of_iff (cleanSearch l.text = l.text ∧ tagName tag = tag)
      ⟨fun h => ⟨h.1, by simp [hbody, h.2]⟩, fun h => ⟨h.clean, h.name tag hbody⟩⟩
  | .metatag _ _ _ | .group _ =>
    decidable_of_iff (cleanSearch l.text = l.text) ⟨fun h => ⟨h, by simp [hbody]⟩, fun h => h.clean⟩

theorem Leaf.bodyText_of_tag {l : Leaf} {tag : Text} (h : l.token.body = .tag tag) :
    l.token.bodyText = tag := by
  have halone := l.readBody_alone
  have hbody : l.token.bodyText = (takeModifier l.text).2 := by
    have hwritten := l.modifier_bodyText
    have hmodifier : l.token.modifier = (takeModifier l.text).1 := congrArg Token.modifier l.token_eq
    rw [hmodifier] at hwritten
    exact List.append_cancel_left (hwritten.trans (takeModifier_eq l.text).symm)
  rw [hbody]
  rcases readBody_cases (by rw [halone]; exact l.body_ne_group) with ⟨m, hm⟩ | ⟨hm, hg⟩
  · rw [readBody_of_metatag hm, h] at halone
    cases halone
  · rw [readBody_of_run hm hg, h, ReadBody.mk.injEq, Body.tag.injEq] at halone
    exact halone.2.1.symm.trans halone.1

namespace Scan

theorem tagText_canonical {l : Leaf} (h : l.IsNormal) (outer : List Modifier) (offset : Nat) :
    tagText (canonicalOptions true) id outer { l.token with offset } = l.text := by
  have hbody : tagText (canonicalOptions true) id outer { l.token with offset }
      = Modifier.text l.token.modifier ++ l.token.bodyText := by
    simp only [tagText, tagSign, canonicalOptions, Bool.false_eq_true, if_false, if_true]
    split
    · next tag htag =>
      rw [l.bodyText_of_tag htag]
      exact congrArg _ (h.name tag htag)
    · rfl
  rw [hbody, l.modifier_bodyText]

/-- **Under the options of the canonical form, a scan arranges a level as it arranges nodes.** -/
theorem arrange_canonical (forest : Forest) :
    arrange (canonicalOptions true) (forest.map entry)
      = (Forest.pieces (Forest.arranged forest)).map .tag := by
  have hkept : (forest.map entry).eraseDupsBy Entry.alike
      = (forest.eraseDupsBy Node.alike).map entry :=
    eraseDupsBy_map entry forest fun _ _ => rfl
  have hsorted : ((forest.eraseDupsBy Node.alike).map entry).mergeSort Entry.le
      = (Forest.arranged forest).map entry :=
    (List.map_mergeSort (r := Node.le) (f := entry) fun _ _ _ _ => rfl).symm
  rw [← arrange_default, ← hsorted, ← hkept]
  simp [arrange, canonicalOptions]

mutual

theorem scanTree_canonical : ∀ (node : Node) (nesting : Nat) (outer : List Modifier) (offset : Nat),
    (∀ l ∈ Forest.leaves [node], l.IsNormal) → nesting + node.depth ≤ maxDepth →
    scanTree (canonicalOptions true) id nesting outer (node.tree offset) = .ok (entry node.normal)
  | .leaf l, nesting, outer, offset, h, _ => by
    rw [Node.tree, scanTree, tagText_canonical (h l (by simp [Forest.leaves_leaf])), Node.normal,
      entry]
  | .group modifier children, nesting, outer, offset, h, hdepth => by
    rw [Node.depth] at hdepth
    rw [Forest.leaves_group] at h
    have hfit : (canonicalOptions true).baseDepth + (nesting + 1)
        ≤ (canonicalOptions true).limit := by
      show 0 + (nesting + 1) ≤ min maxDepth maxDepth
      omega
    rw [Node.tree, scanTree, if_pos hfit, scanTrees_canonical children (nesting + 1) _ 0 h
      (by omega)]
    show Except.ok (Entry.group (wrap (canonicalOptions true) modifier
      (arrange (canonicalOptions true) ((Forest.normals children).map entry)))) = _
    rw [arrange_canonical]
    simp [wrap, groupSign, canonicalOptions, entry, Node.normal, Node.pieces]

theorem scanTrees_canonical : ∀ (forest : Forest) (nesting : Nat) (outer : List Modifier)
    (offset : Nat), (∀ l ∈ Forest.leaves forest, l.IsNormal) →
    nesting + Forest.depth forest ≤ maxDepth →
    scanTrees (canonicalOptions true) id nesting outer (Forest.trees offset forest)
      = .ok ((Forest.normals forest).map entry)
  | [], _, _, _, _, _ => rfl
  | node :: rest, nesting, outer, offset, h, hdepth => by
    rw [Forest.depth] at hdepth
    rw [Forest.leaves_cons, List.forall_mem_append] at h
    rw [Forest.trees, scanTrees, scanTree_canonical node nesting outer offset h.1 (by omega),
      scanTrees_canonical rest nesting outer _ h.2 (by omega)]
    rfl

end

end Scan

/-! ## Cleaning -/

theorem getLast?_unwords {P : Char → Prop} : ∀ {pieces : List Text},
    (∀ piece ∈ pieces, piece ≠ [] ∧ ∀ c ∈ piece.getLast?, P c) →
    ∀ c ∈ (unwords pieces).getLast?, P c
  | [], _ => by simp [unwords]
  | [piece], h => by
    rw [List.forall_mem_singleton] at h
    rw [show unwords [piece] = piece by simp [unwords]]
    exact h.2
  | piece :: next :: rest, h => by
    rw [List.forall_mem_cons] at h
    have hne : unwords (next :: rest) ≠ [] := by simp [unwords_cons, h.2 next]
    rw [unwords_cons_cons, ← List.singleton_append, ← List.append_assoc,
      List.getLast?_append_of_ne_nil _ hne]
    exact getLast?_unwords h.2

/-- What cannot be trimmed off any piece cannot be trimmed off their join. -/
theorem trimBy_unwords {p : Char → Bool} {pieces : List Text}
    (h : ∀ piece ∈ pieces, piece ≠ [] ∧ piece.trimBy p = piece) :
    (unwords pieces).trimBy p = unwords pieces := by
  refine trimBy_eq_self ?_ (getLast?_unwords fun piece hpiece => ?_)
  · cases pieces with
    | nil => simp [unwords]
    | cons piece rest =>
      obtain ⟨hne, htrim⟩ := h piece List.mem_cons_self
      intro c hc
      rw [unwords_cons, Option.mem_def, List.head?_append_of_ne_nil _ hne, ← htrim] at hc
      exact trimBy_head? hc
  · obtain ⟨hne, htrim⟩ := h piece hpiece
    refine ⟨hne, fun c hc => ?_⟩
    rw [← htrim] at hc
    exact trimBy_getLast? hc

/-- **A forest of normal leaves is written as a clean search.** -/
theorem Forest.cleanSearch_render_of_normal {forest : Forest}
    (h : ∀ l ∈ Forest.leaves forest, l.IsNormal) :
    cleanSearch (Forest.render forest) = Forest.render forest := by
  have hcomposed : (Forest.render forest).compose = Forest.render forest := by
    rw [compose_eq_self_iff_isStable, isStable_render_iff]
    intro l hl
    rw [← compose_eq_self_iff_isStable, ← (h l hl).clean]
    exact compose_cleanSearch l.text
  rw [cleanSearch, hcomposed, ← unwords_pieces]
  refine trimBy_unwords ((Forest.forall_pieces ?_ ?_ forest).mpr ?_)
  · rintro (_ | _ | _) <;> decide
  · decide
  · intro l hl
    have hclean := (h l hl).clean
    have hleaf : l.text.compose = l.text := by
      rw [← hclean]
      exact compose_cleanSearch l.text
    rw [cleanSearch, hleaf] at hclean
    exact ⟨l.text_ne_nil, hclean⟩

/-! ## What the normal form keeps -/

theorem Forest.mem_normals {forest : Forest} {z : Node} :
    z ∈ Forest.normals forest ↔ ∃ x ∈ forest, x.normal = z := by
  rw [Forest.normals_eq_map, List.mem_map]

/-- Dropping repeats loses no piece. -/
theorem Forest.mem_pieces_arranged {forest : Forest} {piece : Text} :
    piece ∈ Forest.pieces (Forest.arranged forest) ↔ piece ∈ Forest.pieces forest := by
  rw [Forest.mem_pieces, Forest.mem_pieces]
  constructor
  · rintro ⟨node, hnode, hpiece⟩
    exact ⟨node, Forest.arranged_subset forest hnode, hpiece⟩
  · rintro ⟨node, hnode, hpiece⟩
    obtain ⟨kept, hkept, hsame⟩ := Forest.exists_mem_arranged hnode
    exact ⟨kept, hkept, hsame.1 piece hpiece⟩

/-- **A node and its normal form are made of the same pieces.** -/
theorem Node.mem_pieces_normal (x : Node) :
    ∀ piece, piece ∈ x.normal.pieces ↔ piece ∈ x.pieces := by
  induction x using Node.descend with
  | leaf l => exact fun _ => Iff.rfl
  | group modifier children ih =>
    intro piece
    have hchildren : piece ∈ Forest.pieces (Forest.normal children)
        ↔ piece ∈ Forest.pieces children := by
      rw [Forest.normal, Forest.mem_pieces_arranged, Forest.mem_pieces, Forest.mem_pieces]
      simp only [Forest.mem_normals, exists_exists_and_eq_and]
      exact exists_congr fun x => and_congr_right fun hx => ih x hx piece
    rw [Node.normal_group, Node.pieces, Node.pieces, List.mem_cons, List.mem_append, hchildren,
      ← List.mem_append, ← List.mem_cons]

theorem Node.samePieces_normal_iff {x y : Node} :
    x.normal.SamePieces y.normal ↔ x.SamePieces y := by
  simp only [Node.SamePieces, Node.mem_pieces_normal]

/-! ## Siblings that are told apart -/

mutual

/-- The levels inside a node, at any depth. -/
def Node.levels : Node → List Forest
  | .leaf _ => []
  | .group _ children => children :: Forest.innerLevels children

/-- The levels inside the nodes of a level, at any depth. -/
def Forest.innerLevels : List Node → List Forest
  | [] => []
  | node :: rest => node.levels ++ Forest.innerLevels rest

end

/-- The levels of a forest: itself, and what its groups hold at any depth. -/
def Forest.levels (forest : Forest) : List Forest :=
  forest :: Forest.innerLevels forest

/-- At every level, siblings that are made of the same pieces are the same. The pieces do not say
where a tag is nested, so this need not be: `( a -( b ) )` and `( -( a ) b )` share theirs. -/
def Forest.ToldApart (forest : Forest) : Prop :=
  ∀ level ∈ Forest.levels forest, ∀ x ∈ level, ∀ y ∈ level, x.SamePieces y → x.Same y

instance (forest : Forest) : Decidable (Forest.ToldApart forest) :=
  inferInstanceAs (Decidable (∀ level ∈ Forest.levels forest, _))

namespace Forest

variable {forest other : Forest}

theorem mem_innerLevels {level : Forest} :
    level ∈ innerLevels forest ↔ ∃ node ∈ forest, level ∈ node.levels := by
  induction forest with
  | nil => simp [innerLevels]
  | cons node rest ih => simp [innerLevels, ih]

theorem ToldApart.siblings (h : ToldApart forest) {x y : Node} (hx : x ∈ forest) (hy : y ∈ forest)
    (hpieces : x.SamePieces y) : x.Same y :=
  h forest List.mem_cons_self x hx y hy hpieces

theorem ToldApart.children (h : ToldApart forest) {modifier : Option Modifier} {children : Forest}
    (hgroup : Node.group modifier children ∈ forest) : ToldApart children := by
  intro level hlevel
  exact h level (List.mem_cons_of_mem _ (mem_innerLevels.mpr ⟨_, hgroup, hlevel⟩))

/-- What is told apart is the same as its normal form, if its nodes are. -/
theorem ToldApart.same_normal (h : ToldApart forest) (hnodes : ∀ x ∈ forest, x.Same x.normal) :
    Same forest (normal forest) := by
  refine same_iff_covered.mpr ⟨fun x hx => ?_, fun z hz => ?_⟩
  · -- what is dropped is made of the same pieces as something that is kept, and so is the same
    obtain ⟨z, hz, hpieces⟩ := exists_mem_arranged (mem_normals.mpr ⟨x, hx, rfl⟩)
    obtain ⟨y, hy, rfl⟩ := mem_normals.mp (arranged_subset _ hz)
    have hsame : x.Same y := h.siblings hx hy (Node.samePieces_normal_iff.mp hpieces)
    exact ⟨y.normal, hz, hsame.trans (hnodes y hy)⟩
  · obtain ⟨x, hx, rfl⟩ := mem_normals.mp (arranged_subset _ hz)
    exact ⟨x, hx, (hnodes x hx).symm⟩

theorem arranged_congr (h : ∀ z, z ∈ arranged forest ↔ z ∈ arranged other) :
    arranged forest = arranged other := by
  refine Node.orders_le.mergeSort_eq_of_perm ?_
  rw [List.perm_ext_iff_of_nodup (nodup_eraseDupsBy Node.alike_self forest)
    (nodup_eraseDupsBy Node.alike_self other)]
  intro z
  exact List.mem_mergeSort.symm.trans ((h z).trans List.mem_mergeSort)

/-- The normal form holds the normal forms of all nodes, if those that count as repeats have the
same one. -/
theorem mem_normal (h : ∀ x ∈ forest, ∀ y ∈ forest, x.SamePieces y → x.normal = y.normal) {z : Node} :
    z ∈ normal forest ↔ ∃ x ∈ forest, x.normal = z := by
  rw [← mem_normals]
  refine ⟨fun hz => arranged_subset _ hz, fun hz => ?_⟩
  obtain ⟨kept, hkept, hpieces⟩ := exists_mem_arranged hz
  obtain ⟨x, hx, rfl⟩ := mem_normals.mp hz
  obtain ⟨y, hy, rfl⟩ := mem_normals.mp (arranged_subset _ hkept)
  rw [h x hx y hy (Node.samePieces_normal_iff.mp hpieces)]
  exact hkept

/-- Forests that are the same have one normal form, if their nodes have. -/
theorem Same.normal_eq (h : Same forest other) (hforest : ToldApart forest)
    (hother : ToldApart other)
    (hnodes : ∀ x ∈ forest, ∀ level y, ToldApart level → y ∈ level → x.Same y →
      x.normal = y.normal) : normal forest = normal other := by
  obtain ⟨hcovered, hcovers⟩ := h.covered
  have hin : ∀ x ∈ forest, ∀ y ∈ forest, x.SamePieces y → x.normal = y.normal :=
    fun x hx y hy hpieces => hnodes x hx forest y hforest hy (hforest.siblings hx hy hpieces)
  have hout : ∀ y ∈ other, ∀ z ∈ other, y.SamePieces z → y.normal = z.normal := by
    intro y hy z hz hpieces
    obtain ⟨x, hx, hyx⟩ := hcovers y hy
    have hxz : x.Same z := hyx.symm.trans (hother.siblings hy hz hpieces)
    rw [← hnodes x hx other y hother hy hyx.symm, hnodes x hx other z hother hz hxz]
  refine arranged_congr fun z => ?_
  show z ∈ normal forest ↔ z ∈ normal other
  rw [mem_normal hin, mem_normal hout]
  constructor
  · rintro ⟨x, hx, rfl⟩
    obtain ⟨y, hy, hxy⟩ := hcovered x hx
    exact ⟨y, hy, (hnodes x hx other y hother hy hxy).symm⟩
  · rintro ⟨y, hy, rfl⟩
    obtain ⟨x, hx, hyx⟩ := hcovers y hy
    exact ⟨x, hx, hnodes x hx other y hother hy hyx.symm⟩

end Forest

theorem Node.same_normal (x : Node) : ∀ level, Forest.ToldApart level → x ∈ level →
    x.Same x.normal := by
  induction x using Node.descend with
  | leaf l => exact fun _ _ _ => .leaf l
  | group modifier children ih =>
    intro level htold hmem
    have hchildren := htold.children hmem
    rw [Node.normal_group]
    exact .group modifier (hchildren.same_normal fun x hx => ih x hx children hchildren hx)

theorem Node.Same.normal_eq (x : Node) : ∀ level other y, Forest.ToldApart level →
    Forest.ToldApart other → x ∈ level → y ∈ other → x.Same y → x.normal = y.normal := by
  induction x using Node.descend with
  | leaf l =>
    intro _ _ y _ _ _ _ hsame
    cases hsame
    rfl
  | group modifier children ih =>
    intro level other y hlevel hother hx hy hsame
    cases hsame with
    | group _ hsame =>
      have hchildren := hlevel.children hx
      rw [Node.normal_group, Node.normal_group]
      refine congrArg _ (hsame.normal_eq hchildren (hother.children hy) ?_)
      intro x hx level y hlevel hy hxy
      exact ih x hx children level y hchildren hlevel hx hy hxy

/-- **Two forests whose siblings are told apart have one normal form if they are the same, and only
then.** -/
theorem Forest.normal_eq_iff_same {forest other : Forest} (h : Forest.ToldApart forest)
    (h' : Forest.ToldApart other) :
    Forest.normal forest = Forest.normal other ↔ Forest.Same forest other := by
  have hnormal : ∀ {level : Forest}, Forest.ToldApart level →
      Forest.Same level (Forest.normal level) :=
    fun htold => htold.same_normal fun x hx => x.same_normal _ htold hx
  constructor
  · intro heq
    exact (heq ▸ hnormal h).trans (hnormal h').symm
  · intro hsame
    refine hsame.normal_eq h h' fun x hx level y hlevel hy hxy => ?_
    exact Node.Same.normal_eq x forest level y h hlevel hx hy hxy

/-! ## The canonical form -/

/-- The canonical form of a search as it is printed, if no tag has another name. -/
def normalizedText (search : Text) : Except DepthExceeded Text :=
  (fun items => unwords (Scan.Item.tagsOf items)) <$> Scan.normalizeGrouped id true search

/-- Leaves are written as they are stored, and no group is nested too deep. -/
structure Forest.IsReady (forest : Forest) : Prop where
  leaves : ∀ l ∈ Forest.leaves forest, l.IsNormal
  depth : Forest.depth forest ≤ maxDepth

instance (forest : Forest) : Decidable (Forest.IsReady forest) :=
  decidable_of_iff ((∀ l ∈ Forest.leaves forest, l.IsNormal) ∧ Forest.depth forest ≤ maxDepth)
    ⟨fun h => ⟨h.1, h.2⟩, fun h => ⟨h.leaves, h.depth⟩⟩

/-- **The canonical form of a written forest is its normal form as written.** -/
theorem normalizedText_render {forest : Forest} (h : Forest.IsReady forest) :
    normalizedText (Forest.render forest) = .ok (Forest.render (Forest.normal forest)) := by
  have hscan : Scan.normalizeGrouped id true (Forest.render forest)
      = .ok ((Forest.pieces (Forest.normal forest)).map .tag) := by
    have hdepth := h.depth
    rw [Scan.normalizeGrouped, Scan.scan_eq, Forest.cleanSearch_render_of_normal h.leaves,
      Tree.ofText_render, Scan.scanTrees_canonical forest 0 [] 0 h.leaves (by omega)]
    exact congrArg Except.ok (Scan.arrange_canonical (Forest.normals forest))
  rw [normalizedText, hscan, ← unwords_pieces]
  exact congrArg (fun tags => Except.ok (unwords tags)) (Scan.tagsOf_map_tag _)

/-- **The canonical form tells forests apart up to order and repetition.** For forests in which
siblings that are made of the same pieces are the same, the canonical form exists, and two forests
have the same one if and only if they are equal up to the order and the repetition of equal siblings
at every level. -/
theorem normalizedText_canonical (forest other : Forest) (hforest : Forest.IsReady forest)
    (hother : Forest.IsReady other) (htold : Forest.ToldApart forest)
    (htold' : Forest.ToldApart other) :
    ∃ text text', normalizedText (Forest.render forest) = .ok text
      ∧ normalizedText (Forest.render other) = .ok text'
      ∧ (text = text' ↔ Forest.Same forest other) := by
  refine ⟨_, _, normalizedText_render hforest, normalizedText_render hother, ?_⟩
  rw [← Forest.normal_eq_iff_same htold htold']
  exact ⟨Forest.render_inj, congrArg Forest.render⟩

/-- The leaf that a text is. -/
def Node.written (text : String) (h : (Leaf.ofText? text.toList).isSome = true) : Node :=
  .leaf ((Leaf.ofText? text.toList).get h)

/-- What is written as `b ( a c ) ( c a a ) -( a )`. -/
def repeatingForest : Forest :=
  let a := Node.written "a" (by decide +kernel)
  let b := Node.written "b" (by decide +kernel)
  let c := Node.written "c" (by decide +kernel)
  [b, .group none [a, c], .group none [c, a, a], .group (some .mustNot) [a]]

/-- What is written as `-( a ) ( a c ) b b`. -/
def reorderedForest : Forest :=
  let a := Node.written "a" (by decide +kernel)
  let b := Node.written "b" (by decide +kernel)
  let c := Node.written "c" (by decide +kernel)
  [.group (some .mustNot) [a], .group none [a, c], b, b]

/-- Two forests that are the same have the same canonical form, and one that is not has another. -/
theorem normalizedText_canonical_repeating :
    normalizedText (Forest.render repeatingForest) = normalizedText (Forest.render reorderedForest)
      ∧ normalizedText (Forest.render repeatingForest)
        ≠ normalizedText (Forest.render mixedForest) := by
  have hready : Forest.IsReady repeatingForest := by decide +kernel
  have htold : Forest.ToldApart repeatingForest := by decide +kernel
  obtain ⟨text, text', htext, htext', hiff⟩ := normalizedText_canonical repeatingForest
    reorderedForest hready (by decide +kernel) htold (by decide +kernel)
  obtain ⟨_, other, hsame, hother, hiff'⟩ := normalizedText_canonical repeatingForest mixedForest
    hready (by decide +kernel) htold (by decide +kernel)
  constructor
  · rw [htext, htext', hiff.mpr (by decide +kernel)]
  · rw [hsame, hother]
    intro heq
    exact absurd (hiff'.mp (Except.ok.inj heq)) (by decide +kernel)

/-- A node that is made of the pieces of one in front of it is dropped, whatever it is. -/
theorem Forest.normal_cons_cons {x y : Node} (h : y.SamePieces x) (rest : Forest) :
    Forest.normal (x :: y :: rest) = Forest.normal (x :: rest) := by
  have halike : y.normal.alike x.normal = true :=
    Node.alike_iff.mpr (Node.samePieces_normal_iff.mpr h)
  simp only [Forest.normal, Forest.normals, Forest.arranged]
  rw [List.eraseDupsBy_cons, List.eraseDupsBy_cons, List.filter_cons_of_neg (by simp [halike])]

/-- What is written as `( -( a ) b ) ( -( b ) a )`. -/
def crossedForest : Forest :=
  let a := Node.written "a" (by decide +kernel)
  let b := Node.written "b" (by decide +kernel)
  [.group none [.group (some .mustNot) [a], b], .group none [.group (some .mustNot) [b], a]]

/-- **The canonical form does not tell all forests apart**: of two groups in which the same tags are
nested in different places, the second is dropped. -/
theorem normalizedText_canonical_fails :
    ¬ ∀ forest other : Forest, Forest.IsReady forest → Forest.IsReady other →
      ∃ text text', normalizedText (Forest.render forest) = .ok text
        ∧ normalizedText (Forest.render other) = .ok text'
        ∧ (text = text' ↔ Forest.Same forest other) := by
  intro h
  have hready : Forest.IsReady crossedForest := by decide +kernel
  have hready' : Forest.IsReady (crossedForest.take 1) := by decide +kernel
  obtain ⟨text, text', htext, htext', hiff⟩ := h _ _ hready hready'
  rw [normalizedText_render hready] at htext
  rw [normalizedText_render hready'] at htext'
  have hdropped : Forest.normal crossedForest = Forest.normal (crossedForest.take 1) :=
    Forest.normal_cons_cons (by decide +kernel) []
  have heq : text = text' := by
    rw [← Except.ok.inj htext, ← Except.ok.inj htext', hdropped]
  exact absurd (hiff.mp heq) (by decide +kernel)

end TagSearch
