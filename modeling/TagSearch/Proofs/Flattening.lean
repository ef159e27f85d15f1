import TagSearch.Proofs.CanonicalForm
import TagSearch.Proofs.Strictness

/-!
# Nested and flat scans print the same

A scan that keeps its groups nested and one that puts everything into one list differ in the shape
of what they yield, and in nothing else. All decisions of a level, which entries repeat one another
and in which order they stand, are made on what the entries print, and `flattened` leaves that
alone. So flattening goes past every step of a level:

* `arrange_flattened`: past dropping repeats and sorting,
* `wrap_flattened`: past marking a group and nesting it,
* `listTrees_flattened`: past the levels inside,
* `scan_flattened`: past the whole scan, whatever the other options are.
-/

namespace TagSearch.Scan

open Text

/-! ## Items and entries -/

/-- The tags of some items in one list, with nothing nested. -/
def flattened (items : List Item) : List Item :=
  (Item.tagsOf items).map .tag

theorem Item.tagsOf_append (first second : List Item) :
    Item.tagsOf (first ++ second) = Item.tagsOf first ++ Item.tagsOf second := by
  induction first with
  | nil => rfl
  | cons item rest ih => rw [List.cons_append, Item.tagsOf, ih, Item.tagsOf, List.append_assoc]

@[simp] theorem tagsOf_flattened (items : List Item) :
    Item.tagsOf (flattened items) = Item.tagsOf items :=
  tagsOf_map_tag _

theorem flattened_append (first second : List Item) :
    flattened (first ++ second) = flattened first ++ flattened second := by
  rw [flattened, Item.tagsOf_append, List.map_append]
  rfl

theorem flattened_tag_cons (text : Text) (items : List Item) :
    flattened (.tag text :: items) = .tag text :: flattened items := rfl

/-- Nesting shows in no flattened list. -/
theorem flattened_nested (items : List Item) : flattened [.nested items] = flattened items := by
  simp [flattened, Item.tagsOf, Item.tags]

/-- The entry with its items in one list. -/
def Entry.flat : Entry → Entry
  | tag text => tag text
  | group items => group (flattened items)

theorem Entry.items_flat (entry : Entry) : entry.flat.items = flattened entry.items := by
  cases entry <;> rfl

theorem Entry.alike_flat (a b : Entry) : alike a.flat b.flat = alike a b := by
  cases a <;> cases b <;> simp [flat, alike]

theorem Entry.le_flat (a b : Entry) : le a.flat b.flat = le a b := by
  cases a <;> cases b <;> simp [flat, le]

/-! ## Levels -/

variable (options : Options)

theorem flatMap_items_flat (entries : List Entry) :
    (entries.map Entry.flat).flatMap Entry.items = flattened (entries.flatMap Entry.items) := by
  induction entries with
  | nil => rfl
  | cons entry rest ih =>
    rw [List.map_cons, List.flatMap_cons, ih, Entry.items_flat, ← flattened_append,
      ← List.flatMap_cons]

/-- **A level keeps the same entries in the same order, flat or not.** -/
theorem arrange_flattened (entries : List Entry) :
    arrange options (entries.map Entry.flat) = flattened (arrange options entries) := by
  have hkept : (entries.map Entry.flat).eraseDupsBy Entry.alike
      = (entries.eraseDupsBy Entry.alike).map Entry.flat :=
    eraseDupsBy_map Entry.flat entries Entry.alike_flat
  have hsorted (kept : List Entry) :
      (kept.map Entry.flat).mergeSort Entry.le = (kept.mergeSort Entry.le).map Entry.flat :=
    (List.map_mergeSort fun a _ b _ => (Entry.le_flat a b).symm).symm
  unfold arrange
  rw [hkept, ← flatMap_items_flat]
  split <;> split <;> simp only [hsorted]

/-- **A group gets the same marks in the same places, flat or not.** -/
theorem wrap_flattened (modifier : Option Modifier) (items : List Item) :
    wrap { options with flatten := true } modifier (flattened items)
      = flattened (wrap { options with flatten := false } modifier items) := by
  have hsign : groupSign { options with flatten := true } modifier
      = groupSign { options with flatten := false } modifier := rfl
  simp only [wrap, hsign, if_true, Bool.false_eq_true, if_false]
  split
  · -- parentheses stand inside the nest
    rw [flattened_nested, flattened_append, flattened_tag_cons]
    rfl
  · split
    · exact (flattened_nested items).symm
    · -- a lone sign stands in front of it
      rw [flattened_tag_cons, flattened_nested]

variable (canonical : Text → Text)

mutual

theorem listTree_flattened : ∀ (tree : Tree) (outer : List Modifier),
    listTree { options with flatten := true } canonical outer tree
      = (listTree { options with flatten := false } canonical outer tree).flat
  | .leaf token, outer => rfl
  | .group token children, outer => by
    rw [listTree, listTree, listTrees_flattened children, arrange_flattened]
    exact congrArg Entry.group (wrap_flattened options token.modifier _)

/-- A level has the same entries flat as nested, but for their nesting. -/
theorem listTrees_flattened : ∀ (trees : List Tree) (outer : List Modifier),
    listTrees { options with flatten := true } canonical outer trees
      = (listTrees { options with flatten := false } canonical outer trees).map Entry.flat
  | [], outer => rfl
  | tree :: rest, outer => by
    rw [listTrees, listTrees, List.map_cons, listTree_flattened tree, listTrees_flattened rest]

end

/-! ## Searches -/

theorem scan_flattened (search : Text) :
    scan { options with flatten := true } canonical search
      = flattened <$> scan { options with flatten := false } canonical search := by
  rw [scan_eq, scan_eq, scanTrees_eq, scanTrees_eq, listTrees_flattened]
  -- the limit acts on the trees alone, so it fails both scans or cuts the same off both
  have hsame (depth : Nat) : Overruns { options with flatten := true } 0 depth
      ↔ Overruns { options with flatten := false } 0 depth := Iff.rfl
  by_cases hover : Overruns { options with flatten := false } 0
      (Tree.depthOf (Tree.ofText (cleanSearch search)))
  · rw [if_pos hover, if_pos ((hsame _).mpr hover)]
    rfl
  · rw [if_neg hover, if_neg (mt (hsame _).mp hover)]
    exact congrArg Except.ok (arrange_flattened _ _)

/-- **Flattening changes nothing but the nesting.** Whatever the other options are, the flat scan of
a search fails as the nested scan does, or lists the tags of the nested scan in their order. So both
canonical forms of a search are printed as the same text. -/
theorem scan_prints_alike (search : Text) :
    scan { options with flatten := true } canonical search
        = (fun items => (Item.tagsOf items).map .tag)
            <$> scan { options with flatten := false } canonical search
      ∧ ∃ text, ∀ flatten, (fun items => unwords (Item.tagsOf items))
          <$> normalizeGrouped canonical flatten search = .ok text := by
  refine ⟨scan_flattened options canonical search, ?_⟩
  obtain ⟨items, hnested⟩ := scan_silent (canonicalOptions false) canonical rfl search
  have hflat : normalizeGrouped canonical true search = .ok (flattened items) := by
    have hscan := scan_flattened (canonicalOptions false) canonical search
    rw [show { canonicalOptions false with flatten := false } = canonicalOptions false from rfl,
      hnested] at hscan
    exact hscan
  refine ⟨unwords (Item.tagsOf items), fun flatten => ?_⟩
  cases flatten with
  | true =>
    rw [hflat, ← tagsOf_flattened]
    rfl
  | false =>
    rw [normalizeGrouped, hnested]
    rfl

end TagSearch.Scan
