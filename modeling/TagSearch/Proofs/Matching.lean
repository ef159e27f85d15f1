import TagSearch.Proofs.Naming
import TagSearch.Proofs.Ordering
import TagSearch.Proofs.Places
import TagSearch.Proofs.Repeats

/-!
# Looking metatags up

The lexer reads a metatag as a name, a value and whether the value was quoted. A lookup knows
nothing of this: it cuts the text of a token at the first colon and takes the quotes off what
follows. Both come to the same (`Token.Reads.match?_eq`), whether quotes are closed, left open or
part of a value, and a plain tag is never taken for a metatag. So a lookup is a selection from the
metatags that the lexer has read (`Lookup.assignments`), and stopping at the first match is taking
the first of the selection.
-/

namespace TagSearch

open Text

/-- The name of a metatag, with its modifier in front, and its value, unless this is blank. -/
def Token.assignment? (token : Token) : Option (Text × Text) :=
  match token.body with
  | .metatag name value _ =>
    if isWhite value then none else some (Modifier.text token.modifier ++ name, value)
  | _ => none

/-- **A lookup matches the metatags that the lexer has read.** -/
theorem Token.Reads.match?_eq {token : Token} {rest : Text} (h : token.Reads rest)
    (hne : token.text ≠ []) (hleaf : ∀ source, token.body ≠ .group source) {names : List Text}
    (hnames : ∀ name ∈ names, Lookup.IsName name) :
    Lookup.match? names token = token.assignment?.filter fun found => names.contains found.1 := by
  cases hbody : token.body with
  | group source => exact absurd hbody (hleaf source)
  | tag text =>
    rw [Lookup.match?, Token.assignment?, hbody]
    cases hcut : cut? ':' token.text with
    | none => rfl
    | some pair =>
      have hname : pair.1 ∉ names := fun hmem => h.cut_tag hne hbody hcut (hnames _ hmem)
      simp [hname]
  | metatag name value quoted =>
    rw [h.match?_metatag hne hbody, Token.assignment?, hbody]
    dsimp only
    cases isWhite value with
    | true => simp
    | false => simp [Option.filter]

namespace Lookup

/-- The metatags of a search, at the top and with `recurse` also inside up to ten groups, by name
and value in document order. -/
def assignments (recurse : Bool) (search : Text) : List (Text × Text) :=
  let places := Tree.placesOf [] (Tree.ofText (cleanSearch search))
  let reached := places.filter fun place => place.groups.length ≤ if recurse then 10 else 0
  reached.filterMap fun place => place.leaf.assignment?

variable {names : List Text}

/-- The matches of a search are the metatags that have one of the names. -/
theorem allMatches_eq (hnames : ∀ name ∈ names, IsName name) (recurse : Bool) (search : Text) :
    allMatches names recurse search
      = (assignments recurse search).filter fun found => names.contains found.1 := by
  rw [allMatches, visited, Tree.leavesOf_eq _ [], List.filterMap_map, assignments,
    List.filter_filterMap]
  simp only [List.length_nil, Nat.zero_add]
  refine List.filterMap_congr ?_
  intro place hplace
  obtain ⟨⟨level, hlevel⟩, hleaf⟩ := Tree.read_of_mem_places (List.mem_filter.mp hplace).1
  obtain ⟨⟨rest, hreads⟩, hne⟩ := exists_reads_of_mem_tokensFrom hlevel
  exact hreads.match?_eq hne hleaf hnames

/-- Of what any of the names selects, a name has all that is its own, if it is one of them. -/
theorem filter_selected (found : List (Text × Text)) (name : Text) :
    (found.filter fun pair => names.contains pair.1).filter (·.1 == name)
      = if name ∈ names then found.filter (·.1 == name) else [] := by
  rw [List.filter_filter]
  split
  · next hname =>
    refine List.filter_congr ?_
    intro pair _
    by_cases heq : pair.1 = name <;> simp [heq, hname]
  · next hname =>
    refine List.filter_eq_nil_iff.mpr ?_
    intro pair _
    by_cases heq : pair.1 = name <;> simp [heq, hname]

theorem metatag?_eq_head? (recurse : Bool) (search : Text) :
    metatag? names recurse search = ((allMatches names recurse search).map Prod.snd).head? := by
  rw [metatag?, allMatches, List.map_filterMap, List.head?_filterMap]

/-- Each name that has a value, once and in order. -/
theorem metatags_sorted (recurse : Bool) (search : Text) :
    ((metatags names recurse search).map Prod.fst).Pairwise
      fun a b => Text.le a b = true ∧ a ≠ b := by
  have hkeys : (metatags names recurse search).map Prod.fst
      = (Text.sort ((allMatches names recurse search).map Prod.fst)).eraseDups := by
    rw [metatags, List.map_map]
    exact List.map_id _
  rw [hkeys]
  exact ((orders_le.sorted _).sublist (eraseDupsBy_sublist _)).and (nodup_eraseDups _)

/-- A name has the values that it was matched with. -/
theorem mem_metatags_iff (recurse : Bool) (search name : Text) (values : List Text) :
    (name, values) ∈ metatags names recurse search ↔ values ≠ [] ∧
      values = ((allMatches names recurse search).filter (·.1 == name)).map Prod.snd := by
  have hfound : name ∈ (allMatches names recurse search).map Prod.fst
      ↔ ((allMatches names recurse search).filter (·.1 == name)).map Prod.snd ≠ [] := by
    simp [List.filter_eq_nil_iff]
  rw [metatags, List.mem_map]
  simp only [List.mem_eraseDups, mem_sort, Prod.mk.injEq]
  constructor
  · rintro ⟨_, hname, rfl, rfl⟩
    exact ⟨hfound.mp hname, rfl⟩
  · rintro ⟨hne, rfl⟩
    exact ⟨name, hfound.mpr hne, rfl, rfl⟩

/-- There is a first value if there is a name with values. -/
theorem hasMetatag_iff (recurse : Bool) (search : Text) :
    hasMetatag names recurse search = true ↔ metatags names recurse search ≠ [] := by
  have hnone : metatags names recurse search = [] ↔ allMatches names recurse search = [] := by
    rw [metatags, List.map_eq_nil_iff]
    simp only [List.eq_nil_iff_forall_not_mem, List.mem_eraseDups, mem_sort, List.mem_map]
    constructor
    · intro h found hfound
      exact h found.1 ⟨found, hfound, rfl⟩
    · rintro h _ ⟨found, hfound, -⟩
      exact h found hfound
  rw [hasMetatag, metatag?_eq_head?, List.isSome_head?, ne_eq, List.map_eq_nil_iff, ne_eq, hnone]

/-- **Looking metatags up is selecting from those that the lexer has read.** For names as metatags
have them, each name that has values comes once, in order, with its values in document order; the
first value is that of the earliest metatag with any of the names; and there is one exactly if some
name has values. -/
theorem metatags_selected (names : List Text) (recurse : Bool) (search : Text)
    (hnames : ∀ name ∈ names, IsName name) :
    let found := assignments recurse search
    let looked := metatags names recurse search
    ((looked.map Prod.fst).Pairwise fun a b => Text.le a b = true ∧ a ≠ b)
      ∧ (∀ name values, (name, values) ∈ looked ↔ name ∈ names ∧ values ≠ []
          ∧ values = (found.filter (·.1 == name)).map Prod.snd)
      ∧ metatag? names recurse search
          = ((found.filter fun pair => names.contains pair.1).map Prod.snd).head?
      ∧ (hasMetatag names recurse search = true ↔ looked ≠ []) := by
  intro found looked
  refine ⟨metatags_sorted recurse search, ?_, ?_, hasMetatag_iff recurse search⟩
  · intro name values
    rw [mem_metatags_iff, allMatches_eq hnames, filter_selected]
    split
    · next hname =>
      constructor
      · intro h
        exact ⟨hname, h⟩
      · rintro ⟨-, h⟩
        exact h
    · next hname =>
      constructor
      · rintro ⟨hne, rfl⟩
        exact absurd rfl hne
      · rintro ⟨hmem, -⟩
        exact absurd hmem hname
  · rw [metatag?_eq_head?, allMatches_eq hnames]

/-- A quote inside a value, one that is never closed, a blank value, a name in front of two colons
and a metatag inside two groups. -/
theorem metatags_selected_quotes :
    let names := ["note", "-order"].map String.toList
    let search :=
      "order:id -order: note:a\"b\" ( -( -order:score ) note:\"c d\" ) x:note:y note:\"e".toList
    (∀ name ∈ names, IsName name)
      ∧ ("note".toList, ["a\"b\"", "c d", "\"e"].map String.toList) ∈ metatags names true search
      ∧ ("-order".toList, ["score".toList]) ∈ metatags names true search
      ∧ metatag? names true search = some "a\"b\"".toList
      ∧ hasMetatag names true search = true := by
  intro names search
  have hnames : ∀ name ∈ names, IsName name := by
    intro name hname
    simp only [names, List.map_cons, List.map_nil, List.mem_cons, List.not_mem_nil,
      or_false] at hname
    rcases hname with rfl | rfl
    · exact ⟨none, "note".toList, List.all_eq_true.mp (by decide), rfl⟩
    · exact ⟨some .mustNot, "order".toList, List.all_eq_true.mp (by decide), rfl⟩
  obtain ⟨-, hvalues, hfirst, hany⟩ := metatags_selected names true search hnames
  have hnote := (hvalues "note".toList (["a\"b\"", "c d", "\"e"].map String.toList)).mpr
    (by decide +kernel)
  have horder := (hvalues "-order".toList ["score".toList]).mpr (by decide +kernel)
  exact ⟨hnames, hnote, horder, hfirst.trans (by decide +kernel),
    hany.mpr (List.ne_nil_of_mem hnote)⟩

end Lookup

end TagSearch
