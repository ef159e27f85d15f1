import TagSearch.Proofs.Roundtrip

/-!
# Siblings

The nodes of a level can be put in another order, and a node can stand there twice, without a change
to what is searched for. `Forest.Same` is the least equality with these rules, at every level.

* `Forest.same_iff_covered`: two forests are the same if each node of one is the same as a node of
  the other.
* `Node.same_eq_true_iff`: so it can be decided, by comparing nodes along their children.
-/

namespace TagSearch

/-- What holds of leaves, and of a group if it holds of what the group holds, holds of all nodes. -/
theorem Node.descend {P : Node → Prop} (leaf : ∀ l, P (.leaf l))
    (group : ∀ modifier (children : Forest), (∀ node ∈ children, P node) →
      P (.group modifier children)) (node : Node) : P node := by
  cases node with
  | leaf l => exact leaf l
  | group modifier children =>
    exact group modifier children fun child _ => Node.descend leaf group child

/-! ## The rules -/

/-- Equal up to the order of siblings and up to repeats of equal siblings, at every level. -/
inductive Forest.Same : Forest → Forest → Prop
  | refl (forest : Forest) : Forest.Same forest forest
  | symm {forest other : Forest} (h : Forest.Same forest other) : Forest.Same other forest
  | trans {first second third : Forest} (h : Forest.Same first second)
    (h' : Forest.Same second third) : Forest.Same first third
  | swap (node next : Node) (rest : Forest) :
    Forest.Same (node :: next :: rest) (next :: node :: rest)
  | again (node : Node) (rest : Forest) : Forest.Same (node :: node :: rest) (node :: rest)
  | cons (node : Node) {rest others : Forest} (h : Forest.Same rest others) :
    Forest.Same (node :: rest) (node :: others)
  | inside (modifier : Option Modifier) {children others : Forest}
    (h : Forest.Same children others) (rest : Forest) :
    Forest.Same (.group modifier children :: rest) (.group modifier others :: rest)

/-- The same leaf, or a group of the same forest under the same modifier. -/
inductive Node.Same : Node → Node → Prop
  | leaf (l : Leaf) : Node.Same (.leaf l) (.leaf l)
  | group (modifier : Option Modifier) {children others : Forest}
    (h : Forest.Same children others) :
    Node.Same (.group modifier children) (.group modifier others)

namespace Node.Same

variable {x y z : Node}

theorem refl (x : Node) : x.Same x := by
  cases x with
  | leaf l => exact .leaf l
  | group modifier children => exact .group modifier (.refl children)

theorem symm (h : x.Same y) : y.Same x := by
  cases h with
  | leaf l => exact .leaf l
  | group modifier h => exact .group modifier h.symm

theorem trans (h : x.Same y) (h' : y.Same z) : x.Same z := by
  cases h with
  | leaf l => exact h'
  | group modifier h =>
    cases h' with
    | group _ h' => exact .group modifier (h.trans h')

end Node.Same

/-! ## Node by node -/

/-- Every node of a forest is the same as a node of the other. -/
def Forest.Covered (forest other : Forest) : Prop :=
  ∀ x ∈ forest, ∃ y ∈ other, x.Same y

namespace Forest

variable {forest other : Forest}

theorem covered_of_subset (h : forest ⊆ other) : Covered forest other :=
  fun x hx => ⟨x, h hx, .refl x⟩

theorem Covered.trans {third : Forest} (h : Covered forest other) (h' : Covered other third) :
    Covered forest third := by
  intro x hx
  obtain ⟨y, hy, hxy⟩ := h x hx
  obtain ⟨z, hz, hyz⟩ := h' y hy
  exact ⟨z, hz, hxy.trans hyz⟩

theorem Covered.cons {x y : Node} (hxy : x.Same y) (h : Covered forest other) :
    Covered (x :: forest) (y :: other) := by
  intro z hz
  rcases List.mem_cons.mp hz with rfl | hz
  · exact ⟨y, List.mem_cons_self, hxy⟩
  · obtain ⟨w, hw, hzw⟩ := h z hz
    exact ⟨w, List.mem_cons_of_mem _ hw, hzw⟩

theorem Same.covered (h : Same forest other) : Covered forest other ∧ Covered other forest := by
  induction h with
  | refl forest => exact ⟨covered_of_subset (fun _ => id), covered_of_subset (fun _ => id)⟩
  | symm _ ih => exact ih.symm
  | trans _ _ ih ih' => exact ⟨ih.1.trans ih'.1, ih'.2.trans ih.2⟩
  | swap node next rest =>
    exact ⟨covered_of_subset (List.Perm.swap _ _ _).subset,
      covered_of_subset (List.Perm.swap _ _ _).subset⟩
  | again node rest =>
    exact ⟨covered_of_subset (by simp), covered_of_subset (List.subset_cons_self _ _)⟩
  | cons node _ ih => exact ⟨ih.1.cons (.refl node), ih.2.cons (.refl node)⟩
  | inside modifier h rest =>
    exact ⟨(covered_of_subset (fun _ => id)).cons (.group modifier h),
      (covered_of_subset (fun _ => id)).cons (.group modifier h.symm)⟩

theorem Same.of_perm (h : forest.Perm other) : Same forest other := by
  induction h with
  | nil => exact .refl _
  | cons node _ ih => exact ih.cons node
  | swap node next rest => exact .swap _ _ _
  | trans _ _ ih ih' => exact ih.trans ih'

theorem Same.head {x y : Node} (h : x.Same y) (rest : Forest) : Same (x :: rest) (y :: rest) := by
  cases h with
  | leaf l => exact .refl _
  | group modifier h => exact .inside modifier h rest

/-- A node that its siblings have already adds nothing. -/
theorem Same.absorb {x y : Node} (hy : y ∈ forest) (h : x.Same y) : Same (x :: forest) forest := by
  obtain ⟨before, after, rfl⟩ := List.append_of_mem hy
  have hfront : Same (before ++ y :: after) (y :: (before ++ after)) := .of_perm List.perm_middle
  have hmerged : Same (x :: y :: (before ++ after)) (y :: (before ++ after)) :=
    (Same.head h _).trans (.again y _)
  exact ((hfront.cons x).trans hmerged).trans hfront.symm

theorem Covered.absorb (h : Covered forest other) : Same (forest ++ other) other := by
  induction forest with
  | nil => exact .refl _
  | cons x rest ih =>
    obtain ⟨y, hy, hxy⟩ := h x List.mem_cons_self
    exact (Same.absorb (List.mem_append_right _ hy) hxy).trans
      (ih fun z hz => h z (List.mem_cons_of_mem _ hz))

/-- **Two forests are the same if each node of one is the same as a node of the other.** -/
theorem same_iff_covered : Same forest other ↔ Covered forest other ∧ Covered other forest := by
  constructor
  · exact Same.covered
  · rintro ⟨h, h'⟩
    exact h'.absorb.symm.trans ((Same.of_perm List.perm_append_comm).trans h.absorb)

end Forest

/-! ## Comparing -/

/-- The text of a leaf says all of it. -/
theorem Leaf.text_inj {l l' : Leaf} (h : l.text = l'.text) : l = l' := by
  have htoken : [l.token] = [l'.token] := by
    rw [← l.alone, ← l'.alone]
    exact congrArg tokenize h
  cases l
  cases l'
  cases htoken
  rfl

mutual

/-- Whether two nodes are the same. -/
def Node.same : Node → Node → Bool
  | .leaf l, .leaf l' => l.text == l'.text
  | .group modifier children, .group modifier' others =>
    modifier == modifier' && Forest.allAmong children others
      && others.all fun other => Forest.holds children other
  | _, _ => false

/-- Whether every node of a level is among some others. -/
def Forest.allAmong : List Node → List Node → Bool
  | [], _ => true
  | node :: rest, others => others.any (fun other => node.same other) && Forest.allAmong rest others

/-- Whether a level holds a node. -/
def Forest.holds : List Node → Node → Bool
  | [], _ => false
  | node :: rest, other => node.same other || Forest.holds rest other

end

theorem Forest.allAmong_iff {forest other : Forest} :
    Forest.allAmong forest other = true ↔ ∀ x ∈ forest, ∃ y ∈ other, x.same y = true := by
  induction forest with
  | nil => simp [Forest.allAmong]
  | cons node rest ih => simp [Forest.allAmong, ih]

theorem Forest.holds_iff {forest : Forest} {y : Node} :
    Forest.holds forest y = true ↔ ∃ x ∈ forest, x.same y = true := by
  induction forest with
  | nil => simp [Forest.holds]
  | cons node rest ih => simp [Forest.holds, ih]

/-- **Comparing nodes along their children decides whether they are the same.** -/
theorem Node.same_eq_true_iff (x : Node) : ∀ y, x.same y = true ↔ x.Same y := by
  induction x using Node.descend with
  | leaf l =>
    intro y
    cases y with
    | leaf l' =>
      rw [Node.same, beq_iff_eq]
      exact ⟨fun h => Leaf.text_inj h ▸ .leaf l, by rintro ⟨⟩; rfl⟩
    | group modifier others => exact ⟨fun h => absurd h (by simp [Node.same]), by rintro ⟨⟩⟩
  | group modifier children ih =>
    intro y
    cases y with
    | leaf l => exact ⟨fun h => absurd h (by simp [Node.same]), by rintro ⟨⟩⟩
    | group modifier' others =>
      have hamong : Forest.allAmong children others = true ↔ Forest.Covered children others := by
        rw [Forest.allAmong_iff]
        exact forall₂_congr fun x hx => exists_congr fun y => and_congr_right fun _ => ih x hx y
      have hholds : (∀ y ∈ others, Forest.holds children y = true)
          ↔ Forest.Covered others children := by
        refine forall₂_congr fun y _ => ?_
        rw [Forest.holds_iff]
        exact exists_congr fun x => and_congr_right fun hx =>
          (ih x hx y).trans ⟨Node.Same.symm, Node.Same.symm⟩
      rw [Node.same, Bool.and_eq_true, Bool.and_eq_true, beq_iff_eq, List.all_eq_true, hamong,
        hholds, and_assoc, ← Forest.same_iff_covered]
      constructor
      · rintro ⟨rfl, h⟩
        exact .group modifier h
      · rintro ⟨⟩
        exact ⟨rfl, by assumption⟩

instance (x y : Node) : Decidable (x.Same y) :=
  decidable_of_iff _ (x.same_eq_true_iff y)

instance (forest other : Forest) : Decidable (Forest.Same forest other) :=
  decidable_of_iff (Node.Same (.group none forest) (.group none other))
    ⟨fun h => by cases h; assumption, .group none⟩

end TagSearch
