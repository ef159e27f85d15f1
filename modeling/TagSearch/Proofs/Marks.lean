import TagSearch.Proofs.Flattening
import TagSearch.Proofs.Places

/-!
# What a scan writes

Read from left to right, a search is a row of marks: groups that open, leaves in their places, and
groups that close. A scan writes each mark in one way, wherever it stands (`Mark.written`), and
arranges what it has written level by level. Arranging may put strings elsewhere and leave repeats
out. `Undisturbed` compares lists of strings in a way that does not see this, and seen so a scan is
the marks as they are written (`tagsOf_scan`):

* it is equal to them, if no level is sorted and no repeats are dropped (`undisturbed_eq`);
* it is a permutation of them, if no repeats are dropped (`undisturbed_perm`);
* it always has the same strings (`undisturbed_mem`).
-/

namespace TagSearch

open Text

/-! ## Marks -/

/-- What stands at one point of a search. -/
inductive Mark where
  | opening (group : Token)
  | leaf (place : Place)
  | closing

/-- The leaf of a mark, in its place. -/
def Mark.place? : Mark → Option Place
  | leaf place => some place
  | _ => none

namespace Tree

mutual

/-- The marks of a tree inside `groups`, in document order. -/
def marks (groups : List Token) : Tree → List Mark
  | leaf token => [.leaf ⟨groups, token⟩]
  | group token children => .opening token :: (marksOf (groups ++ [token]) children ++ [.closing])

/-- The marks of some trees inside `groups`, in document order. -/
def marksOf (groups : List Token) : List Tree → List Mark
  | [] => []
  | tree :: rest => tree.marks groups ++ marksOf groups rest

end

/-- The leaves among the marks are the leaves in their places. -/
theorem filterMap_marksOf (trees : List Tree) :
    ∀ groups, (marksOf groups trees).filterMap Mark.place? = placesOf groups trees := by
  induction trees using inductLevels with
  | nil => intro groups; rfl
  | leaf token rest ih =>
    intro groups
    rw [marksOf, marks, List.filterMap_append, ih groups, placesOf_leaf]
    rfl
  | group token children rest ihChildren ihRest =>
    intro groups
    rw [marksOf, marks, List.filterMap_append, ihRest groups, placesOf_group,
      ← ihChildren (groups ++ [token]), List.filterMap_cons_none rfl, List.filterMap_append]
    exact congrArg (· ++ _) (List.append_nil _)

/-- The leaves that a limit leaves are those not past it. -/
theorem filterMap_marksOf_cutOf (limit base : Nat) (trees : List Tree) :
    (marksOf [] (cutOf limit base trees)).filterMap Mark.place?
      = (placesOf [] trees).filter fun place =>
          place.groups = [] ∨ base + place.groups.length ≤ limit := by
  rw [filterMap_marksOf]
  refine (placesOf_cutOf limit base trees []).trans ?_
  simp only [List.length_nil, Nat.le_zero, List.length_eq_zero_iff]

/-- A leaf that a limit leaves of a text is a token of its level, and no group. -/
theorem read_of_mem_marksOf {limit base : Nat} {s : Text} {place : Place}
    (h : .leaf place ∈ marksOf [] (cutOf limit base (ofText s))) :
    (∃ level, place.leaf ∈ tokenize level) ∧ ∀ source, place.leaf.body ≠ .group source := by
  have hmem : place ∈ (marksOf [] (cutOf limit base (ofText s))).filterMap Mark.place? :=
    List.mem_filterMap.mpr ⟨_, h, rfl⟩
  rw [filterMap_marksOf_cutOf] at hmem
  exact read_of_mem_places (List.mem_filter.mp hmem).1

end Tree

namespace Scan

/-! ## Arranging -/

/-- The tags of an entry, from left to right. -/
def Entry.tags (entry : Entry) : List Text :=
  Item.tagsOf entry.items

theorem tagsOf_flatMap_items (entries : List Entry) :
    Item.tagsOf (entries.flatMap Entry.items) = entries.flatMap Entry.tags := by
  induction entries with
  | nil => rfl
  | cons entry rest ih => rw [List.flatMap_cons, Item.tagsOf_append, ih, List.flatMap_cons]; rfl

theorem Entry.alike_self (entry : Entry) : entry.alike entry = true := by
  cases entry <;> simp [alike]

/-- Entries that are alike print the same strings. -/
theorem Entry.mem_tags_of_alike {a b : Entry} (h : a.alike b = true) {w : Text}
    (hw : w ∈ a.tags) : w ∈ b.tags := by
  cases a with
  | tag text =>
    cases b with
    | tag text' => rwa [← beq_iff_eq.mp (show (text == text') = true from h)]
    | group items => simp [alike] at h
  | group items =>
    cases b with
    | tag text => simp [alike] at h
    | group items' =>
      simp only [alike, Bool.and_eq_true, List.all_eq_true, List.contains_iff_mem] at h
      exact h.1 w hw

variable {options : Options}

/-- A comparison of lists of strings that does not see what arranging a level changes. -/
structure Undisturbed (options : Options) (R : List Text → List Text → Prop) : Prop where
  refl (ts : List Text) : R ts ts
  trans {as bs cs : List Text} (h : R as bs) (h' : R bs cs) : R as cs
  append {as bs cs ds : List Text} (h : R as bs) (h' : R cs ds) : R (as ++ cs) (bs ++ ds)
  arrange (entries : List Entry) :
    R (Item.tagsOf (arrange options entries)) (entries.flatMap Entry.tags)

theorem undisturbed_eq (hkeep : options.dropRepeats = false) (hsort : options.sortLevels = false) :
    Undisturbed options (· = ·) where
  refl _ := rfl
  trans := Eq.trans
  append h h' := congrArg₂ (· ++ ·) h h'
  arrange entries := by
    simp only [Scan.arrange, hkeep, hsort, Bool.false_eq_true, if_false]
    exact tagsOf_flatMap_items entries

theorem undisturbed_perm (hkeep : options.dropRepeats = false) : Undisturbed options List.Perm where
  refl := List.Perm.refl
  trans := List.Perm.trans
  append := List.Perm.append
  arrange entries := by
    simp only [Scan.arrange, hkeep, Bool.false_eq_true, if_false, tagsOf_flatMap_items]
    split
    · exact (List.mergeSort_perm entries Entry.le).flatMap_right Entry.tags
    · exact List.Perm.refl _

/-- **No string is lost by dropping repeats and sorting.** -/
theorem undisturbed_mem : Undisturbed options fun as bs => ∀ w, w ∈ as ↔ w ∈ bs where
  refl _ _ := Iff.rfl
  trans h h' w := (h w).trans (h' w)
  append h h' w := by rw [List.mem_append, List.mem_append, h w, h' w]
  arrange entries w := by
    have hsorted : w ∈ Item.tagsOf (Scan.arrange options entries) ↔ ∃ entry ∈
        (if options.dropRepeats then entries.eraseDupsBy Entry.alike else entries),
        w ∈ entry.tags := by
      rw [Scan.arrange, tagsOf_flatMap_items, List.mem_flatMap]
      split <;> simp only [List.mem_mergeSort]
    rw [hsorted, List.mem_flatMap]
    split
    · constructor
      · rintro ⟨entry, hentry, hw⟩
        exact ⟨entry, (eraseDupsBy_sublist entries).subset hentry, hw⟩
      · rintro ⟨entry, hentry, hw⟩
        obtain ⟨kept, hkept, halike⟩ :=
          exists_of_mem_eraseDupsBy Entry.alike_self entries entry hentry
        exact ⟨kept, hkept, Entry.mem_tags_of_alike halike hw⟩
    · exact Iff.rfl

/-! ## Writing -/

variable (options) (canonical : Text → Text)

/-- The modifiers in force inside some groups. -/
def outerOf (groups : List Token) : List Modifier :=
  groups.foldl (fun outer group => inner options outer group.modifier) []

theorem outerOf_concat (groups : List Token) (group : Token) :
    outerOf options (groups ++ [group]) = inner options (outerOf options groups) group.modifier :=
  List.foldl_concat ..

/-- What a scan writes for a mark, if anything. -/
def written : Mark → Option Text
  | .opening group =>
    let sign := groupSign options group.modifier
    if options.delimitGroups then some (sign ++ ['('])
    else if sign.isEmpty then none else some sign
  | .leaf place => some (tagText options canonical (outerOf options place.groups) place.leaf)
  | .closing => if options.delimitGroups then some [')'] else none

theorem tagsOf_wrap (group : Token) (items : List Item) :
    Item.tagsOf (wrap options group.modifier items)
      = (written options canonical (.opening group)).toList
        ++ (Item.tagsOf items ++ (written options canonical .closing).toList) := by
  have hnest (inside : List Item) :
      Item.tagsOf (if options.flatten then inside else [.nested inside]) = Item.tagsOf inside := by
    split <;> simp [Item.tagsOf, Item.tags]
  unfold wrap written
  dsimp only
  split
  · rw [hnest, Item.tagsOf_append, Item.tagsOf, Item.tags]
    simp [Item.tagsOf, Item.tags]
  · split
    · rw [hnest]
      simp
    · rw [Item.tagsOf, Item.tags, hnest]
      simp

variable {options} {R : List Text → List Text → Prop}

/-- **The entries of a level print its marks as they are written.** -/
theorem tags_listTrees (hR : Undisturbed options R) (trees : List Tree) : ∀ groups,
    R ((listTrees options canonical (outerOf options groups) trees).flatMap Entry.tags)
      ((Tree.marksOf groups trees).filterMap (written options canonical)) := by
  induction trees using Tree.inductLevels with
  | nil => intro groups; exact hR.refl _
  | leaf token rest ih =>
    intro groups
    rw [listTrees, List.flatMap_cons, Tree.marksOf, List.filterMap_append]
    exact hR.append (hR.refl _) (ih groups)
  | group token children rest ihChildren ihRest =>
    intro groups
    have hinside := hR.trans (hR.arrange _) (ihChildren (groups ++ [token]))
    rw [outerOf_concat] at hinside
    have hgroup := hR.append (hR.refl (written options canonical (.opening token)).toList)
      (hR.append hinside (hR.refl (written options canonical .closing).toList))
    rw [← tagsOf_wrap] at hgroup
    have hmarks : ((Tree.group token children).marks groups).filterMap (written options canonical)
        = (written options canonical (.opening token)).toList
          ++ ((Tree.marksOf (groups ++ [token]) children).filterMap (written options canonical)
            ++ (written options canonical .closing).toList) := by
      simp only [Tree.marks, List.filterMap_eq_flatMap_toList, List.flatMap_cons,
        List.flatMap_append, List.flatMap_nil, List.append_nil]
    rw [listTrees, List.flatMap_cons, Tree.marksOf, List.filterMap_append, hmarks]
    exact hR.append hgroup (ihRest groups)

/-- **A scan writes the marks of what the limit has left.** -/
theorem tagsOf_scan (hR : Undisturbed options R) {search : Text} {items : List Item}
    (h : scan options canonical search = .ok items) :
    R (Item.tagsOf items)
      ((Tree.marksOf [] (Tree.cutOf options.limit options.baseDepth
        (Tree.ofText (cleanSearch search)))).filterMap (written options canonical)) := by
  rw [scan_eq, scanTrees_eq] at h
  split at h
  · cases h
  · cases h
    exact hR.trans (hR.arrange _) (tags_listTrees canonical hR _ [])

end Scan

end TagSearch
