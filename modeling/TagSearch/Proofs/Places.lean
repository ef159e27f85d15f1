import TagSearch.Proofs.Truncation

/-!
# Leaves in their places

Every leaf of a search stands inside some groups. A `Place` is a leaf together with these groups,
the outermost first: its modifiers and its depth can be read off, without walking through the
search again.

* `Tree.leavesOf_eq`: a bound on the levels that are looked into bounds the groups around a leaf.
* `Tree.placesOf_cutOf`: so does the limit of a scan, which leaves out nothing else.
* `Tree.read_of_mem_places`: a leaf is a token of some level, and no group.
-/

namespace TagSearch

open Text

/-- A leaf and the groups around it, the outermost first. -/
structure Place where
  groups : List Token
  leaf : Token

namespace Tree

mutual

/-- The leaves of a tree inside `groups`, each in its place, in document order. -/
def places (groups : List Token) : Tree → List Place
  | leaf token => [⟨groups, token⟩]
  | group token children => placesOf (groups ++ [token]) children

/-- The leaves of some trees inside `groups`, each in its place, in document order. -/
def placesOf (groups : List Token) : List Tree → List Place
  | [] => []
  | tree :: rest => tree.places groups ++ placesOf groups rest

end

/-- What holds of a level if it holds of the levels inside and of the trees behind the first holds
of every level. -/
theorem inductLevels {P : List Tree → Prop} (nil : P [])
    (leaf : ∀ token rest, P rest → P (.leaf token :: rest))
    (group : ∀ token children rest, P children → P rest → P (.group token children :: rest)) :
    ∀ trees, P trees
  | [] => nil
  | .leaf token :: rest => leaf token rest (inductLevels nil leaf group rest)
  | .group token children :: rest =>
    group token children rest (inductLevels nil leaf group children)
      (inductLevels nil leaf group rest)

variable {groups : List Token} {p : Place}

theorem placesOf_leaf (token : Token) (rest : List Tree) :
    placesOf groups (.leaf token :: rest) = ⟨groups, token⟩ :: placesOf groups rest := by
  rw [placesOf, places, List.singleton_append]

theorem placesOf_group (token : Token) (children rest : List Tree) :
    placesOf groups (.group token children :: rest)
      = placesOf (groups ++ [token]) children ++ placesOf groups rest := by
  rw [placesOf, places]

theorem mem_placesOf {trees : List Tree} :
    p ∈ placesOf groups trees ↔ ∃ tree ∈ trees, p ∈ tree.places groups := by
  induction trees with
  | nil => simp [placesOf]
  | cons tree rest ih => simp [placesOf, ih]

/-- What stands inside some groups stands in at least so many. -/
theorem length_le_of_mem_placesOf (trees : List Tree) :
    ∀ groups, ∀ p ∈ placesOf groups trees, groups.length ≤ p.groups.length := by
  induction trees using inductLevels with
  | nil => simp [placesOf]
  | leaf token rest ih =>
    intro groups p hp
    rcases List.mem_cons.mp (placesOf_leaf token rest ▸ hp) with rfl | hp
    · exact Nat.le_refl _
    · exact ih groups p hp
  | group token children rest ihChildren ihRest =>
    intro groups p hp
    rcases List.mem_append.mp (placesOf_group token children rest ▸ hp) with hp | hp
    · have := ihChildren _ p hp
      rw [List.length_append] at this
      omega
    · exact ihRest groups p hp

/-! ## Bounds -/

/-- **Looking so many levels deep finds the leaves with at most so many groups around them.** -/
theorem leavesOf_eq (trees : List Tree) : ∀ groups levels, leavesOf levels trees
    = ((placesOf groups trees).filter fun p => p.groups.length ≤ groups.length + levels).map
        Place.leaf := by
  induction trees using inductLevels with
  | nil => intro groups levels; rfl
  | leaf token rest ih =>
    intro groups levels
    rw [leavesOf, leaves, placesOf_leaf, List.filter_cons_of_pos (by simp), List.map_cons,
      ← ih groups levels, List.singleton_append]
  | group token children rest ihChildren ihRest =>
    intro groups levels
    rw [leavesOf, placesOf_group, List.filter_append, List.map_append, ← ihRest groups levels]
    refine congrArg (· ++ _) ?_
    cases levels with
    | zero =>
      have hnone : (placesOf (groups ++ [token]) children).filter
          (fun p => p.groups.length ≤ groups.length + 0) = [] := by
        refine List.filter_eq_nil_iff.mpr ?_
        intro p hp
        have := length_le_of_mem_placesOf children _ p hp
        simp only [List.length_append, List.length_singleton] at this
        simp only [decide_eq_true_eq]
        omega
      rw [leaves, hnone, List.map_nil]
    | succ inner =>
      rw [leaves, ihChildren (groups ++ [token]) inner]
      simp only [List.length_append, List.length_singleton, Nat.add_assoc, Nat.add_comm 1]

/-- **The limit of a scan cuts off the leaves inside groups past it, and no others.** -/
theorem placesOf_cutOf (limit base : Nat) (trees : List Tree) : ∀ groups,
    placesOf groups (cutOf limit (base + groups.length) trees)
      = (placesOf groups trees).filter fun p =>
          p.groups.length ≤ groups.length ∨ base + p.groups.length ≤ limit := by
  induction trees using inductLevels with
  | nil => intro groups; rfl
  | leaf token rest ih =>
    intro groups
    rw [cutOf, cut, placesOf_leaf, placesOf_leaf, List.filter_cons_of_pos (by simp), ih groups]
  | group token children rest ihChildren ihRest =>
    intro groups
    have hlength : (groups ++ [token]).length = groups.length + 1 := by simp
    have hinside : ∀ p ∈ placesOf (groups ++ [token]) children,
        groups.length + 1 ≤ p.groups.length := by
      intro p hp
      exact hlength ▸ length_le_of_mem_placesOf children _ p hp
    rw [cutOf, cut, placesOf_group, List.filter_append, ← ihRest groups]
    by_cases hfit : base + groups.length + 1 ≤ limit
    · rw [if_pos hfit, placesOf_group]
      refine congrArg (· ++ _) ?_
      rw [Nat.add_assoc, ← hlength, ihChildren]
      refine List.filter_congr ?_
      intro p hp
      have := hinside p hp
      simp only [hlength, decide_eq_decide]
      omega
    · have hnone : (placesOf (groups ++ [token]) children).filter
          (fun p => p.groups.length ≤ groups.length ∨ base + p.groups.length ≤ limit) = [] := by
        refine List.filter_eq_nil_iff.mpr ?_
        intro p hp
        have := hinside p hp
        simp only [decide_eq_true_eq]
        omega
      rw [if_neg hfit, placesOf_group, hnone, placesOf]

/-! ## Leaves of a text -/

/-- A leaf at any depth is a token of the text that its level was read from, and no group. -/
theorem read_of_mem_places {groups : List Token} {s : Text} (h : p ∈ placesOf groups (ofText s)) :
    (∃ level, p.leaf ∈ tokenize level) ∧ ∀ source, p.leaf.body ≠ .group source := by
  obtain ⟨tree, htree, hp⟩ := mem_placesOf.mp h
  rw [ofText_eq] at htree
  obtain ⟨token, htoken, rfl⟩ := List.mem_map.mp htree
  unfold ofToken at hp
  split at hp
  · next source hbody =>
    rw [places] at hp
    have hlt := length_group_lt htoken hbody
    exact read_of_mem_places hp
  · next hbody =>
    rw [places, List.mem_singleton] at hp
    subst hp
    exact ⟨⟨s, htoken⟩, hbody⟩
termination_by s.length

end Tree

end TagSearch
