import TagSearch.Proofs.Roundtrip

/-!
# What the depth limit cuts off a scan

A scan looks at its limit in front of every group. Without it, a scan would list trees of any depth
and could not fail: that is `listing`. The limit acts on the trees alone. It fails the scan if some
group overruns it and the options are strict; otherwise `scan` lists the trees from which
`Tree.cutOf` has taken what the outermost groups past the limit hold. The groups stay, with their
modifiers, and are marked, compared and sorted as empty ones.

* `scanTrees_eq`: this holds of every level, however deep it stands.
* `scan_eq_listing_cut`: it holds of every search.
-/

namespace TagSearch

/-! ## Cutting -/

mutual

/-- A tree that stands in `depth` groups, with nothing left inside its outermost groups past the
limit. -/
def Tree.cut (limit depth : Nat) : Tree → Tree
  | .leaf token => .leaf token
  | .group token children =>
    if depth + 1 ≤ limit then .group token (Tree.cutOf limit (depth + 1) children)
    else .group token []

/-- The trees of a level that stands in `depth` groups, each of them cut. -/
def Tree.cutOf (limit depth : Nat) : List Tree → List Tree
  | [] => []
  | tree :: rest => tree.cut limit depth :: Tree.cutOf limit depth rest

end

namespace Scan

/-! ## Scanning without a limit -/

section Listing

variable (options : Options) (canonical : Text → Text)

mutual

/-- What a tree contributes to its level, wherever it stands. -/
def listTree (outer : List Modifier) : Tree → Entry
  | .leaf token => .tag (tagText options canonical outer token)
  | .group token children =>
    .group (wrap options token.modifier
      (arrange options (listTrees (inner options outer token.modifier) children)))

/-- What the trees of a level contribute to it, in document order. -/
def listTrees (outer : List Modifier) : List Tree → List Entry
  | [] => []
  | tree :: rest => listTree outer tree :: listTrees outer rest

end

/-- The items of a search with these trees. If they are exactly one group, the items are those of
that group. -/
def listing : List Tree → List Item
  | [.group token children] => (listTree options canonical [] (.group token children)).items
  | trees => arrange options (listTrees options canonical [] trees)

theorem listing_eq (trees : List Tree) :
    listing options canonical trees = arrange options (listTrees options canonical [] trees) := by
  unfold listing
  split
  · rw [listTrees, listTrees, arrange_singleton]
  · rfl

end Listing

variable (options : Options)

/-! ## Overrunning the limit -/

/-- Whether a strict scan fails on trees of this depth that stand `nesting` groups deep. -/
def Overruns (nesting depth : Nat) : Prop :=
  options.failOnDepth = true ∧ depth ≥ 1 ∧ options.baseDepth + (nesting + depth) > options.limit

instance (nesting depth : Nat) : Decidable (Overruns options nesting depth) :=
  inferInstanceAs (Decidable (_ ∧ _ ∧ _))

variable {options} {nesting : Nat}

theorem not_overruns_zero : ¬ Overruns options nesting 0 := by
  simp [Overruns]

/-- A level overruns the limit if one of its trees does. -/
theorem overruns_max {depth depth' : Nat} :
    Overruns options nesting (max depth depth')
      ↔ Overruns options nesting depth ∨ Overruns options nesting depth' := by
  unfold Overruns
  rw [← and_or_left]
  exact and_congr_right fun _ => by omega

/-- A group within the limit overruns it as what it holds does, one group deeper. -/
theorem overruns_within {depth : Nat} (h : options.baseDepth + (nesting + 1) ≤ options.limit) :
    Overruns options nesting (depth + 1) ↔ Overruns options (nesting + 1) depth :=
  and_congr_right fun _ => by omega

/-- A group past the limit overruns it, whatever it holds. -/
theorem overruns_past {depth : Nat} (h : ¬ options.baseDepth + (nesting + 1) ≤ options.limit) :
    Overruns options nesting (depth + 1) ↔ options.failOnDepth = true :=
  and_iff_left (by omega)

/-! ## Scanning with a limit -/

theorem scanTree_within {options : Options} {canonical : Text → Text} {nesting : Nat}
    (h : options.baseDepth + (nesting + 1) ≤ options.limit) (outer : List Modifier)
    (token : Token) (children : List Tree) :
    scanTree options canonical nesting outer (.group token children)
      = (fun entries => Entry.group (wrap options token.modifier (arrange options entries)))
          <$> scanTrees options canonical (nesting + 1) (inner options outer token.modifier)
            children := by
  rw [scanTree, if_pos h]
  cases scanTrees options canonical (nesting + 1) (inner options outer token.modifier) children <;>
    rfl

theorem scanTree_past {options : Options} {canonical : Text → Text} {nesting : Nat}
    (h : ¬ options.baseDepth + (nesting + 1) ≤ options.limit) (outer : List Modifier)
    (token : Token) (children : List Tree) :
    scanTree options canonical nesting outer (.group token children)
      = if options.failOnDepth then .error ⟨options.limit⟩
        else .ok (.group (wrap options token.modifier [])) := by
  rw [scanTree, if_neg h]
  split <;> rfl

variable (canonical : Text → Text)

mutual

theorem scanTree_eq : ∀ (tree : Tree) (nesting : Nat) (outer : List Modifier),
    scanTree options canonical nesting outer tree
      = if Overruns options nesting tree.depth then .error ⟨options.limit⟩
        else .ok (listTree options canonical outer
          (tree.cut options.limit (options.baseDepth + nesting)))
  | .leaf token, nesting, outer => by
    rw [Tree.depth, if_neg not_overruns_zero]
    rfl
  | .group token children, nesting, outer => by
    by_cases hfit : options.baseDepth + (nesting + 1) ≤ options.limit
    · have hcut : (Tree.group token children).cut options.limit (options.baseDepth + nesting)
          = .group token (Tree.cutOf options.limit (options.baseDepth + (nesting + 1)) children) :=
        if_pos hfit
      rw [scanTree_within hfit, scanTrees_eq children, Tree.depth, hcut]
      by_cases hover : Overruns options (nesting + 1) (Tree.depthOf children)
      · rw [if_pos hover, if_pos ((overruns_within hfit).mpr hover)]
        rfl
      · rw [if_neg hover, if_neg (mt (overruns_within hfit).mp hover)]
        rfl
    · have hcut : (Tree.group token children).cut options.limit (options.baseDepth + nesting)
          = .group token [] := if_neg hfit
      rw [scanTree_past hfit, Tree.depth, hcut]
      exact if_congr (overruns_past hfit).symm rfl (by simp [listTree, listTrees, arrange])

/-- **A level is scanned as what is left of it when the limit has cut it, unless it overruns the
limit.** -/
theorem scanTrees_eq : ∀ (trees : List Tree) (nesting : Nat) (outer : List Modifier),
    scanTrees options canonical nesting outer trees
      = if Overruns options nesting (Tree.depthOf trees) then .error ⟨options.limit⟩
        else .ok (listTrees options canonical outer
          (Tree.cutOf options.limit (options.baseDepth + nesting) trees))
  | [], nesting, outer => by
    rw [Tree.depthOf, if_neg not_overruns_zero]
    rfl
  | tree :: rest, nesting, outer => by
    rw [scanTrees, scanTree_eq tree, scanTrees_eq rest, Tree.depthOf]
    by_cases hfirst : Overruns options nesting tree.depth
    · rw [if_pos hfirst, if_pos (overruns_max.mpr (.inl hfirst))]
      rfl
    · by_cases hrest : Overruns options nesting (Tree.depthOf rest)
      · rw [if_neg hfirst, if_pos hrest, if_pos (overruns_max.mpr (.inr hrest))]
        rfl
      · have hnone : ¬ Overruns options nesting (max tree.depth (Tree.depthOf rest)) :=
          fun hover => (overruns_max.mp hover).elim hfirst hrest
        rw [if_neg hfirst, if_neg hrest, if_neg hnone]
        rfl

end

/-- A scan that does not fail on depth lists what the limit has left of every level. -/
theorem scanTrees_lenient (hlenient : options.failOnDepth = false) (nesting : Nat)
    (outer : List Modifier) (trees : List Tree) :
    scanTrees options canonical nesting outer trees
      = .ok (listTrees options canonical outer
          (Tree.cutOf options.limit (options.baseDepth + nesting) trees)) := by
  rw [scanTrees_eq, if_neg]
  rintro ⟨hstrict, -⟩
  simp [hlenient] at hstrict

variable (options)

/-- **The limit fails a scan or cuts its trees, and does nothing else.** A scan fails exactly if it
is strict and some group stands past the limit, and the error names the limit in force. Every other
scan lists, without any limit, the trees with nothing left inside the outermost groups that stand
past it. -/
theorem scan_eq_listing_cut (search : Text) :
    let trees := Tree.ofText (cleanSearch search)
    let limit := min options.depthLimit 10
    scan options canonical search
      = if options.failOnDepth = true ∧ Tree.depthOf trees ≥ 1
            ∧ options.baseDepth + Tree.depthOf trees > limit then
          .error ⟨limit⟩
        else .ok (listing options canonical (Tree.cutOf limit options.baseDepth trees)) := by
  intro trees limit
  rw [scan_eq, scanTrees_eq, listing_eq]
  have hover : Overruns options 0 (Tree.depthOf trees)
      ↔ options.failOnDepth = true ∧ Tree.depthOf trees ≥ 1
        ∧ options.baseDepth + Tree.depthOf trees > limit := by
    rw [Overruns, Nat.zero_add]
    rfl
  by_cases h : Overruns options 0 (Tree.depthOf trees)
  · rw [if_pos h, if_pos (hover.mp h)]
    rfl
  · rw [if_neg h, if_neg (mt hover.mpr h)]
    rfl

end Scan

end TagSearch
