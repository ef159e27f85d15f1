import TagSearch.Proofs.Marks

/-!
# Sorted scans

A scan can sort every level by what its entries print: groups in front, each of them one block, and
tags behind. In a flat scan an entry is no more than what it prints, so entries that the order does
not tell apart are the same (`Entry.eq_of_le`), and sorting forgets the order in which a level was
written. The groups of a level have their own levels sorted before they are compared, so this goes
on from the inside out:

* `entriesOf_perm`: however the siblings of a forest are put, at any depth, each
  level has the same entries.
* `arrange_inOrder`: what a sorted level looks like.
* `scan_sorted`: both together, for every forest and every level.
-/

namespace TagSearch

open Text

/-! ## Reordering -/

/-- Equal up to the order of siblings, at every level. -/
inductive Forest.Reordered : Forest → Forest → Prop
  | refl (forest : Forest) : Forest.Reordered forest forest
  | trans {first second third : Forest} (h : Forest.Reordered first second)
    (h' : Forest.Reordered second third) : Forest.Reordered first third
  | swap (node next : Node) (rest : Forest) :
    Forest.Reordered (node :: next :: rest) (next :: node :: rest)
  | cons (node : Node) {rest others : Forest} (h : Forest.Reordered rest others) :
    Forest.Reordered (node :: rest) (node :: others)
  | inside (modifier : Option Modifier) {children others : Forest}
    (h : Forest.Reordered children others) (rest : Forest) :
    Forest.Reordered (.group modifier children :: rest) (.group modifier others :: rest)

theorem Forest.Reordered.leaves_perm {forest other : Forest} (h : Forest.Reordered forest other) :
    (Forest.leaves forest).Perm (Forest.leaves other) := by
  induction h with
  | refl forest => exact .refl _
  | trans _ _ ih ih' => exact ih.trans ih'
  | swap node next rest =>
    rw [leaves_cons node (next :: rest), leaves_cons next rest, leaves_cons next (node :: rest),
      leaves_cons node rest, ← List.append_assoc, ← List.append_assoc]
    exact List.perm_append_comm.append_right _
  | @cons node rest others _ ih =>
    rw [leaves_cons node rest, leaves_cons node others]
    exact ih.append_left _
  | @inside modifier children others _ rest ih =>
    rw [leaves_cons (.group modifier children) rest, leaves_cons (.group modifier others) rest,
      leaves_group, leaves_group]
    exact ih.append_right _

/-- Cleaning does not see the order of siblings. -/
theorem Forest.Reordered.isClean {forest other : Forest} (h : Forest.Reordered forest other)
    (hclean : Forest.IsClean forest) : Forest.IsClean other :=
  hclean.of_leaves fun _ => h.leaves_perm.mem_iff.mpr

namespace Scan

/-! ## Entries of a flat scan -/

/-- In one list, entries that stand in both orders are the same. -/
theorem Entry.eq_of_le {a b : Entry} (ha : a.flat = a) (hb : b.flat = b) (hab : a.le b = true)
    (hba : b.le a = true) : a = b := by
  cases a with
  | tag text =>
    cases b with
    | tag text' => exact congrArg Entry.tag (Text.orders_le.antisymm hab hba)
    | group items => simp [le] at hab
  | group items =>
    cases b with
    | tag text => simp [le] at hba
    | group items' =>
      have htags : Item.tagsOf items = Item.tagsOf items' :=
        Text.orders_le.byFirst.antisymm hab hba
      rw [← ha, ← hb, flat, flat, flattened, flattened, htags]

variable {options : Options} {canonical : Text → Text}

theorem flat_of_mem_listTrees (hflat : options.flatten = true) {outer : List Modifier}
    {trees : List Tree} {entry : Entry} (h : entry ∈ listTrees options canonical outer trees) :
    entry.flat = entry := by
  have hoptions : { options with flatten := true } = options := by rw [← hflat]
  have hlisted := listTrees_flattened options canonical trees outer
  rw [hoptions] at hlisted
  rw [hlisted] at h
  obtain ⟨nested, -, rfl⟩ := List.mem_map.mp h
  cases nested with
  | tag text => rfl
  | group items => simp [Entry.flat, flattened, tagsOf_map_tag]

/-- **A sorted level forgets the order of its entries.** -/
theorem arrange_of_perm (hsort : options.sortLevels = true) (hkeep : options.dropRepeats = false)
    {entries others : List Entry} (hflat : ∀ entry ∈ entries, entry.flat = entry)
    (hperm : entries.Perm others) : arrange options entries = arrange options others := by
  have hsorted : entries.mergeSort Entry.le = others.mergeSort Entry.le :=
    mergeSort_congr Entry.le_total (fun _ _ _ => Entry.le_trans)
      (fun a ha b hb => Entry.eq_of_le (hflat a ha) (hflat b hb)) hperm
  simp only [arrange, hsort, hkeep, if_true, Bool.false_eq_true, if_false, hsorted]

/-! ## Entries of a forest -/

variable (options canonical)

/-- What the limit leaves of a level of a forest contributes to it, in the order of the forest. -/
def entriesOf (outer : List Modifier) (depth : Nat) (forest : Forest) : List Entry :=
  listTrees options canonical outer (Tree.cutOf options.limit depth (Forest.trees 0 forest))

/-- What a node contributes to a level of a forest. -/
def entryOf (outer : List Modifier) (depth : Nat) (node : Node) : Entry :=
  listTree options canonical outer ((node.tree 0).cut options.limit depth)

theorem entryOf_group (outer : List Modifier) (depth : Nat) (modifier : Option Modifier)
    (children : Forest) : entryOf options canonical outer depth (.group modifier children)
      = .group (wrap options modifier (if depth + 1 ≤ options.limit then
          arrange options (entriesOf options canonical (inner options outer modifier) (depth + 1)
            children)
        else arrange options [])) := by
  rw [entryOf, Node.tree, Tree.cut]
  split <;> rfl

/-- Where a node starts does not show in what it contributes. -/
theorem listTree_offset (outer : List Modifier) (depth : Nat) (node : Node) (offset : Nat) :
    listTree options canonical outer ((node.tree offset).cut options.limit depth)
      = entryOf options canonical outer depth node := by
  cases node with
  | leaf l => rfl
  | group modifier children =>
    rw [entryOf_group, Node.tree, Tree.cut]
    split <;> rfl

theorem listTrees_offset (outer : List Modifier) (depth : Nat) (forest : Forest) : ∀ offset,
    listTrees options canonical outer (Tree.cutOf options.limit depth (Forest.trees offset forest))
      = forest.map (entryOf options canonical outer depth) := by
  induction forest with
  | nil => intro offset; rfl
  | cons node rest ih =>
    intro offset
    rw [Forest.trees, Tree.cutOf, listTrees, listTree_offset, ih, List.map_cons]

theorem entriesOf_cons (outer : List Modifier) (depth : Nat) (node : Node) (rest : Forest) :
    entriesOf options canonical outer depth (node :: rest)
      = entryOf options canonical outer depth node
        :: entriesOf options canonical outer depth rest := by
  simp only [entriesOf, listTrees_offset, List.map_cons]

variable {options}

/-- **However siblings are put, every level has the same entries.** -/
theorem entriesOf_perm (hflat : options.flatten = true)
    (hsort : options.sortLevels = true) (hkeep : options.dropRepeats = false)
    {forest other : Forest} (h : Forest.Reordered forest other) : ∀ outer depth,
    (entriesOf options canonical outer depth forest).Perm
      (entriesOf options canonical outer depth other) := by
  induction h with
  | refl forest => intro outer depth; exact .refl _
  | trans _ _ ih ih' =>
    intro outer depth
    exact (ih outer depth).trans (ih' outer depth)
  | swap node next rest =>
    intro outer depth
    simp only [entriesOf_cons]
    exact .swap _ _ _
  | cons node _ ih =>
    intro outer depth
    rw [entriesOf_cons, entriesOf_cons]
    exact (ih outer depth).cons _
  | @inside modifier children others _ rest ih =>
    intro outer depth
    have harranged : arrange options
        (entriesOf options canonical (inner options outer modifier) (depth + 1) children)
          = arrange options
              (entriesOf options canonical (inner options outer modifier) (depth + 1) others) :=
      arrange_of_perm hsort hkeep (fun _ => flat_of_mem_listTrees hflat) (ih _ _)
    rw [entriesOf_cons, entriesOf_cons, entryOf_group, entryOf_group, harranged]

/-! ## Levels in order -/

/-- The items of a level in order: groups in front, each of them one block, by what they print, and
then tags by their text. -/
def InOrder (entries : List Entry) (items : List Item) : Prop :=
  ∃ (groups : List (List Item)) (tags : List Text),
    (groups.map Entry.group ++ tags.map Entry.tag).Perm entries
      ∧ items = groups.flatten ++ tags.map Item.tag
      ∧ (groups.Pairwise fun a b => leByFirst Text.le (Item.tagsOf a) (Item.tagsOf b) = true)
      ∧ tags.Pairwise fun a b => Text.le a b = true

/-- Entries that are in order are groups and then tags. -/
theorem exists_of_pairwise_le {entries : List Entry}
    (h : entries.Pairwise fun a b => a.le b = true) :
    ∃ (groups : List (List Item)) (tags : List Text),
      entries = groups.map Entry.group ++ tags.map Entry.tag
        ∧ (groups.Pairwise fun a b => leByFirst Text.le (Item.tagsOf a) (Item.tagsOf b) = true)
        ∧ tags.Pairwise fun a b => Text.le a b = true := by
  induction entries with
  | nil => exact ⟨[], [], rfl, .nil, .nil⟩
  | cons entry rest ih =>
    rw [List.pairwise_cons] at h
    obtain ⟨groups, tags, rfl, hgroups, htags⟩ := ih h.2
    cases entry with
    | group items =>
      refine ⟨items :: groups, tags, rfl, List.pairwise_cons.mpr ⟨?_, hgroups⟩, htags⟩
      intro b hb
      exact h.1 (.group b) (List.mem_append_left _ (List.mem_map_of_mem hb))
    | tag text =>
      -- no group stands behind a tag
      cases groups with
      | cons items _ => exact absurd (h.1 (.group items) (by simp)) (by simp [Entry.le])
      | nil =>
        refine ⟨[], text :: tags, rfl, .nil, List.pairwise_cons.mpr ⟨?_, htags⟩⟩
        intro b hb
        exact h.1 (.tag b) (List.mem_append_right _ (List.mem_map_of_mem hb))

/-- **A sorted level is in order.** -/
theorem arrange_inOrder (hsort : options.sortLevels = true) (hkeep : options.dropRepeats = false)
    (entries : List Entry) : InOrder entries (arrange options entries) := by
  have hsorted : (entries.mergeSort Entry.le).Pairwise fun a b => a.le b = true := by
    refine List.pairwise_mergeSort ?_ Entry.le_total entries
    intro a b c hab hbc
    exact Entry.le_trans hab hbc
  obtain ⟨groups, tags, heq, hgroups, htags⟩ := exists_of_pairwise_le hsorted
  refine ⟨groups, tags, heq ▸ List.mergeSort_perm entries Entry.le, ?_, hgroups, htags⟩
  simp only [arrange, hsort, hkeep, if_true, Bool.false_eq_true, if_false, heq, List.flatMap_append,
    List.flatMap_map, Entry.items, List.flatMap_id', ← List.map_eq_flatMap]

/-! ## Sorted and unsorted -/

/-- The same tag, or two groups that print the same strings in some order. -/
inductive Entry.Permuted : Entry → Entry → Prop
  | tag (text : Text) : Entry.Permuted (.tag text) (.tag text)
  | group {items others : List Item} (h : (Item.tagsOf items).Perm (Item.tagsOf others)) :
    Entry.Permuted (.group items) (.group others)

theorem Entry.Permuted.tags_perm {a b : Entry} (h : a.Permuted b) : a.tags.Perm b.tags := by
  cases h with
  | tag text => exact .refl _
  | group h => exact h

/-- Levels whose entries print the same strings do so as well, however they are sorted. -/
theorem tagsOf_arrange_perm (options options' : Options) (hkeep : options.dropRepeats = false)
    (hkeep' : options'.dropRepeats = false) {entries others : List Entry}
    (h : List.Forall₂ Entry.Permuted entries others) :
    (Item.tagsOf (arrange options entries)).Perm (Item.tagsOf (arrange options' others)) := by
  have hentries : (entries.flatMap Entry.tags).Perm (others.flatMap Entry.tags) := by
    induction h with
    | nil => exact .refl _
    | cons hab _ ih => exact hab.tags_perm.append ih
  exact ((undisturbed_perm hkeep).arrange entries).trans
    (hentries.trans ((undisturbed_perm hkeep').arrange others).symm)

/-- **Sorting moves strings inside the groups of a level, and no string out of its group.** -/
theorem listTrees_permuted (hkeep : options.dropRepeats = false) (trees : List Tree) : ∀ outer,
    List.Forall₂ Entry.Permuted
      (listTrees { options with sortLevels := false } canonical outer trees)
      (listTrees options canonical outer trees) := by
  induction trees using Tree.inductLevels with
  | nil => intro outer; exact .nil
  | leaf token rest ih => intro outer; exact .cons (.tag _) (ih outer)
  | group token children rest ihChildren ihRest =>
    intro outer
    refine .cons (.group ?_) (ihRest outer)
    rw [tagsOf_wrap _ canonical, tagsOf_wrap _ canonical]
    have hinside := tagsOf_arrange_perm { options with sortLevels := false } options hkeep hkeep
      (ihChildren (inner options outer token.modifier))
    exact (hinside.append_right _).append_left _

/-! ## Scans -/

variable (options)

/-- **A sorted flat scan ignores the order of siblings.** If repeats are kept and depth is no error,
the scan of a forest is the same however siblings are put at any level. Every level that it scans is
a permutation of what it is without sorting: each group is one block of the strings that it had,
all groups stand in front of all tags, groups are ordered by what they print and tags by their
text. -/
theorem scan_sorted (hflat : options.flatten = true) (hsort : options.sortLevels = true)
    (hkeep : options.dropRepeats = false) (hlenient : options.failOnDepth = false) :
    (∀ forest other : Forest, Forest.Reordered forest other → Forest.IsClean forest →
      ∃ items, scan options canonical (Forest.render forest) = .ok items
        ∧ scan options canonical (Forest.render other) = .ok items)
      ∧ ∀ nesting outer trees, ∃ entries unsorted,
          scanTrees options canonical nesting outer trees = .ok entries
            ∧ scanTrees { options with sortLevels := false } canonical nesting outer trees
              = .ok unsorted
            ∧ List.Forall₂ Entry.Permuted unsorted entries
            ∧ (Item.tagsOf (arrange { options with sortLevels := false } unsorted)).Perm
                (Item.tagsOf (arrange options entries))
            ∧ InOrder entries (arrange options entries) := by
  constructor
  · intro forest other hreordered hclean
    have hscan (forest : Forest) (hclean : Forest.IsClean forest) :
        scan options canonical (Forest.render forest)
          = .ok (arrange options (entriesOf options canonical [] options.baseDepth forest)) := by
      rw [scan_eq, scanTrees_lenient canonical hlenient,
        cleanSearch_render hclean.composed hclean.noNul, Tree.ofText_render]
      rfl
    have hperm := entriesOf_perm canonical hflat hsort hkeep hreordered [] options.baseDepth
    refine ⟨_, hscan forest hclean, ?_⟩
    rw [hscan other (hreordered.isClean hclean)]
    exact congrArg Except.ok
      (arrange_of_perm hsort hkeep (fun _ => flat_of_mem_listTrees hflat) hperm).symm
  · intro nesting outer trees
    let unsorted : Options := { options with sortLevels := false }
    have hlisted := scanTrees_lenient canonical hlenient nesting outer trees
    have hunsorted : unsorted.failOnDepth = false := hlenient
    have hunlisted := scanTrees_lenient canonical hunsorted nesting outer trees
    have hpermuted := listTrees_permuted canonical hkeep
      (Tree.cutOf options.limit (options.baseDepth + nesting) trees) outer
    exact ⟨_, _, hlisted, hunlisted, hpermuted,
      tagsOf_arrange_perm unsorted options hkeep hkeep hpermuted, arrange_inOrder hsort hkeep _⟩

/-- Siblings that change places on two levels, `dog ( cat dog ) -( cat )` and
`-( cat ) ( dog cat ) dog`: both forests are scanned alike. -/
theorem scan_sorted_siblings :
    let options : Options := { sortLevels := true, distributeModifiers := true, depthLimit := 1 }
    let cat := Node.written "cat" (by decide +kernel)
    let dog := Node.written "dog" (by decide +kernel)
    let forest : Forest := [dog, .group none [cat, dog], .group (some .mustNot) [cat]]
    let other : Forest := [.group (some .mustNot) [cat], .group none [dog, cat], dog]
    Forest.Reordered forest other ∧ Forest.IsClean forest
      ∧ ∃ items, scan options id (Forest.render forest) = .ok items
        ∧ scan options id (Forest.render other) = .ok items := by
  intro options cat dog forest other
  have hreordered : Forest.Reordered forest other := by
    refine .trans (.swap _ _ _) (.trans (.cons _ (.swap _ _ _)) (.trans (.swap _ _ _) (.cons _ ?_)))
    exact .inside none (.swap _ _ _) _
  have hclean : Forest.IsClean forest := ⟨by decide +kernel, by decide +kernel⟩
  exact ⟨hreordered, hclean, (scan_sorted options id rfl rfl rfl rfl).1 forest other hreordered
    hclean⟩

end Scan

end TagSearch
