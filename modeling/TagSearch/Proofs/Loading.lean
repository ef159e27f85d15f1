import TagSearch.Proofs.Persistence

/-!
# Adding aliases in any order

The pairs of an alias file come in no particular order, and each is checked against those that were
added before it: a circle is found at whichever of its pairs comes last. Which pair is refused
depends on the order, but not whether one is.

`Holds` ties a table to the pairs that went into it, `Holds.add` is the step and `Holds.addAll` the
run. A table that holds pairs shows that they are consistent (`Holds.consistent`), and consistent
pairs never stop the run (`Consistent.add`, `Consistent.addAll`), so `exists_addAll_iff` says of a
list of pairs what no order of it can change.
-/

namespace TagSearch.AliasTable

open Text

variable {table edited loaded : AliasTable} {name canonical : Text}
  {pairs added rest order : List (Text × Text)}

/-- An alias is accepted if both names can be aliased and either the alias is there already with that
tag, or it is new and closes no circle. -/
theorem add_eq_ok_iff : table.add name canonical = .ok edited ↔
    IsName (tagName name) ∧ IsName (tagName canonical)
      ∧ (table.StandsFor (tagName name) (tagName canonical) ∧ edited = table
        ∨ table.next? (tagName name) = none
          ∧ table.wouldCircle (tagName name) (tagName canonical) = false
          ∧ edited = ⟨table.pairs ++ [(tagName name, tagName canonical)],
              table.index.add (tagName canonical) (tagName name)⟩) := by
  simp only [add, StandsFor, ← isValidName_iff]
  cases isValidName (tagName name) with
  | false => simp
  | true =>
    cases isValidName (tagName canonical) with
    | false => simp
    | true =>
      cases table.next? (tagName name) with
      | none =>
        cases table.wouldCircle (tagName name) (tagName canonical) <;>
          simp [eq_comm (b := edited)]
      | some existing =>
        by_cases h : existing = tagName canonical <;> simp [h, eq_comm (b := edited)]

/-! ## What pairs say -/

/-- One of the pairs makes a name an alias of a tag, both in the form in which they are stored. -/
def Says (pairs : List (Text × Text)) (name canonical : Text) : Prop :=
  ∃ pair ∈ pairs, tagName pair.1 = name ∧ tagName pair.2 = canonical

/-- Pairs that can be the aliases of one table. -/
structure Consistent (pairs : List (Text × Text)) : Prop where
  named : ∀ pair ∈ pairs, IsName (tagName pair.1) ∧ IsName (tagName pair.2)
  /-- No name is an alias of two tags. -/
  unique : ∀ {name canonical other},
    Says pairs name canonical → Says pairs name other → canonical = other
  /-- No name is its own alias, by way of others or directly. -/
  acyclic : ∀ name, ¬ Relation.TransGen (Says pairs) name name

theorem says_append : Says (added ++ rest) name canonical
    ↔ Says added name canonical ∨ Says rest name canonical := by
  simp [Says, or_and_right, exists_or]

theorem says_singleton {pair : Text × Text} :
    Says [pair] name canonical ↔ name = tagName pair.1 ∧ canonical = tagName pair.2 := by
  simp [Says, eq_comm]

/-- What pairs say does not depend on their order. -/
theorem says_of_perm (h : order.Perm pairs) : Says order = Says pairs := by
  funext name canonical
  simp [Says, h.mem_iff]

theorem Consistent.of_perm (hpairs : Consistent pairs) (h : order.Perm pairs) :
    Consistent order where
  named := fun pair hpair => hpairs.named pair (h.mem_iff.mp hpair)
  unique := by
    rw [says_of_perm h]
    exact hpairs.unique
  acyclic := by
    rw [says_of_perm h]
    exact hpairs.acyclic

/-! ## Tables and the pairs they were made from -/

/-- A table made from pairs: a forest in which a name stands for a tag just if a pair says so. -/
structure Holds (table : AliasTable) (pairs : List (Text × Text)) : Prop where
  forest : table.IsForest
  named : ∀ pair ∈ pairs, IsName (tagName pair.1) ∧ IsName (tagName pair.2)
  standsFor_iff : ∀ name canonical, table.StandsFor name canonical ↔ Says pairs name canonical

theorem holds_empty : Holds {} [] where
  forest := isForest_empty
  named := by simp
  standsFor_iff := by simp [StandsFor, next?, Says]

/-- **A pair that is accepted adds what it says,** whether it is new or not. -/
theorem Holds.add (h : table.Holds added) (hadd : table.add name canonical = .ok edited) :
    edited.Holds (added ++ [(name, canonical)]) := by
  obtain ⟨hname, hcanonical, hcase⟩ := add_eq_ok_iff.mp hadd
  have hnamed : ∀ pair ∈ added ++ [(name, canonical)],
      IsName (tagName pair.1) ∧ IsName (tagName pair.2) := by
    intro pair hpair
    rcases List.mem_append.mp hpair with hpair | hpair
    · exact h.named pair hpair
    · rw [List.mem_singleton.mp hpair]
      exact ⟨hname, hcanonical⟩
  rcases hcase with ⟨hstands, rfl⟩ | ⟨hnew, hcircle, rfl⟩
  · refine ⟨h.forest, hnamed, fun other tag => ?_⟩
    rw [says_append, says_singleton, h.standsFor_iff, iff_self_or]
    rintro ⟨rfl, rfl⟩
    exact (h.standsFor_iff _ _).mp hstands
  · refine ⟨h.forest.added hname hcanonical hnew hcircle, hnamed, fun other tag => ?_⟩
    rw [says_append, says_singleton, ← h.standsFor_iff, StandsFor, next?_concat _ hnew, StandsFor]
    by_cases hother : other = tagName name
    · subst hother
      simp [hnew, eq_comm]
    · simp [hother]

/-- **Pairs that are all accepted make a table of what they say.** -/
theorem Holds.addAll (h : table.Holds added) (hrest : table.addAll rest = .ok loaded) :
    loaded.Holds (added ++ rest) := by
  induction rest generalizing table added with
  | nil =>
    cases hrest
    simpa using h
  | cons pair rest ih =>
    rw [AliasTable.addAll, List.foldlM_cons] at hrest
    obtain ⟨next, hnext, hrest⟩ := exists_ok_of_bind hrest
    simpa using ih (h.add hnext) hrest

theorem Holds.consistent (h : table.Holds pairs) : Consistent pairs where
  named := h.named
  unique := fun hcanonical hother =>
    StandsFor.unique ((h.standsFor_iff _ _).mpr hcanonical) ((h.standsFor_iff _ _).mpr hother)
  acyclic := fun name hcycle =>
    h.forest.acyclic name
      (Relation.TransGen.mono (fun _ _ => (h.standsFor_iff _ _).mpr) _ _ hcycle)

/-- **The next of some consistent pairs is accepted.** -/
theorem Consistent.add (hpairs : Consistent (added ++ (name, canonical) :: rest))
    (h : table.Holds added) : ∃ edited, table.add name canonical = .ok edited := by
  have hnames := hpairs.named (name, canonical) (by simp)
  have hpair : Says (added ++ (name, canonical) :: rest) (tagName name) (tagName canonical) :=
    ⟨(name, canonical), by simp, rfl, rfl⟩
  have hstands : ∀ {a b}, table.StandsFor a b → Says (added ++ (name, canonical) :: rest) a b :=
    fun hab => says_append.mpr (Or.inl ((h.standsFor_iff _ _).mp hab))
  cases hnext : table.next? (tagName name) with
  | some existing =>
    obtain rfl : existing = tagName canonical := hpairs.unique (hstands hnext) hpair
    exact ⟨table, add_eq_ok_iff.mpr ⟨hnames.1, hnames.2, Or.inl ⟨hnext, rfl⟩⟩⟩
  | none =>
    have hcircle : table.wouldCircle (tagName name) (tagName canonical) = false := by
      rw [Bool.eq_false_iff, Ne, h.forest.wouldCircle_iff]
      -- a walk back to the name would close a circle with the pair
      rintro (heq | hback)
      · exact hpairs.acyclic _ (Relation.TransGen.single (heq ▸ hpair))
      · exact hpairs.acyclic _ (Relation.TransGen.head hpair
          (Relation.TransGen.mono (fun _ _ => hstands) _ _ hback))
    exact ⟨_, add_eq_ok_iff.mpr ⟨hnames.1, hnames.2, Or.inr ⟨hnext, hcircle, rfl⟩⟩⟩

theorem Consistent.addAll (hpairs : Consistent (added ++ rest)) (h : table.Holds added) :
    ∃ loaded, table.addAll rest = .ok loaded := by
  induction rest generalizing table added with
  | nil => exact ⟨table, rfl⟩
  | cons pair rest ih =>
    obtain ⟨next, hnext⟩ := hpairs.add h
    obtain ⟨loaded, hloaded⟩ := ih (by simpa using hpairs) (h.add hnext)
    refine ⟨loaded, ?_⟩
    rw [AliasTable.addAll, List.foldlM_cons, hnext]
    exact hloaded

/-- **Pairs make a table exactly if they are consistent.** -/
theorem exists_addAll_iff :
    (∃ table, ({} : AliasTable).addAll pairs = .ok table) ↔ Consistent pairs :=
  ⟨fun ⟨_, htable⟩ => (holds_empty.addAll htable).consistent,
    fun hpairs => Consistent.addAll (show Consistent ([] ++ pairs) from hpairs) holds_empty⟩

/-! ## Tables made from the same pairs -/

/-- Tables that were made from the same pairs list the same aliases. -/
theorem Holds.pairs_perm (h : table.Holds pairs) (hloaded : loaded.Holds pairs) :
    loaded.pairs.Perm table.pairs := by
  rw [List.perm_ext_iff_of_nodup hloaded.forest.keys.of_map h.forest.keys.of_map]
  intro pair
  rw [← standsFor_iff_mem hloaded.forest.keys, ← standsFor_iff_mem h.forest.keys,
    h.standsFor_iff, hloaded.standsFor_iff]

theorem Holds.aliasesOf_eq (h : table.Holds pairs) (hloaded : loaded.Holds pairs)
    (canonical : Text) : loaded.aliasesOf canonical = table.aliasesOf canonical := by
  refine orders_le.mergeSort_eq_of_perm ?_
  rw [List.perm_ext_iff_of_nodup (hloaded.forest.apart canonical) (h.forest.apart canonical)]
  intro name
  rw [hloaded.forest.mirrored, h.forest.mirrored, h.standsFor_iff, hloaded.standsFor_iff]

/-- **The order of its pairs does not matter for an alias table.** Adding pairs one by one to an empty
table succeeds exactly if all names can be aliased in the form in which they are stored, no name
is an alias of two tags, and no name comes back to itself; so it does for a file with these pairs.
Then the table has just the aliases that the pairs name. In another order it succeeds as well or
fails as well, and the two tables list the same aliases, forwards and backwards, and resolve every
name alike. -/
theorem addAll_in_any_order (pairs : List (Text × Text)) :
    ((∃ table, ({} : AliasTable).addAll pairs = .ok table) ↔ Consistent pairs)
      ∧ (∀ file, readPairs? file = some pairs →
          ((∃ table, ofFile file = .ok table) ↔ Consistent pairs))
      ∧ (∀ table, ({} : AliasTable).addAll pairs = .ok table →
          ∀ name canonical, (name, canonical) ∈ table.list ↔ Says pairs name canonical)
      ∧ ∀ order : List (Text × Text), order.Perm pairs →
          ((∃ loaded, ({} : AliasTable).addAll order = .ok loaded)
              ↔ ∃ table, ({} : AliasTable).addAll pairs = .ok table)
            ∧ ∀ table loaded, ({} : AliasTable).addAll pairs = .ok table →
                ({} : AliasTable).addAll order = .ok loaded →
                loaded.list = table.list
                  ∧ (∀ canonical, loaded.aliasesOf canonical = table.aliasesOf canonical)
                  ∧ ∀ name, loaded.canonicalize name = table.canonicalize name := by
  refine ⟨exists_addAll_iff, fun file hfile => ?_, fun table htable name canonical => ?_,
    fun order horder => ⟨?_, fun table loaded htable hloaded => ?_⟩⟩
  · rw [← exists_addAll_iff, ofFile, hfile]
    dsimp only
    split <;> simp_all
  · have htable : table.Holds pairs := holds_empty.addAll htable
    rw [(list_perm table).mem_iff, ← standsFor_iff_mem htable.forest.keys, htable.standsFor_iff]
  · rw [exists_addAll_iff, exists_addAll_iff]
    exact ⟨fun h => h.of_perm horder.symm, fun h => h.of_perm horder⟩
  · have htable : table.Holds pairs := holds_empty.addAll htable
    have hloaded : loaded.Holds pairs := by
      obtain ⟨hforest, -, hstands⟩ : loaded.Holds order := holds_empty.addAll hloaded
      exact ⟨hforest, htable.named, by rwa [says_of_perm horder] at hstands⟩
    have hperm := htable.pairs_perm hloaded
    exact ⟨(list_eq_iff htable.forest.keys).mpr hperm, htable.aliasesOf_eq hloaded,
      canonicalize_of_perm htable.forest.keys hperm⟩

/-- A chain with an alias that is there twice, as one name in two spellings. -/
def spelledPairs : List (Text × Text) :=
  [("Kitty Cat".toList, "cat".toList), ("CAT".toList, "Felis  catus".toList),
    ("kitty_cat".toList, "Cat".toList)]

/-- The two spellings agree, whichever comes first; and with an alias that leads back no order
does. -/
theorem addAll_in_any_order_cats :
    let back := ("felis_catus".toList, "KITTY cat".toList) :: spelledPairs
    spelledPairs.reverse.Perm spelledPairs ∧ back.reverse.Perm back
      ∧ (∃ table loaded, ({} : AliasTable).addAll spelledPairs = .ok table
          ∧ ({} : AliasTable).addAll spelledPairs.reverse = .ok loaded ∧ loaded.list = table.list)
      ∧ ¬ ∃ loaded, ({} : AliasTable).addAll back.reverse = .ok loaded := by
  intro back
  obtain ⟨_, _, _, horder⟩ := addAll_in_any_order spelledPairs
  obtain ⟨_, _, _, hback⟩ := addAll_in_any_order back
  obtain ⟨hiff, hsame⟩ := horder _ (List.reverse_perm spelledPairs)
  have hloads : (({} : AliasTable).addAll spelledPairs).isOk = true := by decide +kernel
  have hfails : (({} : AliasTable).addAll back).isOk = false := by decide +kernel
  have htable : ∃ table, ({} : AliasTable).addAll spelledPairs = .ok table := by
    cases h : ({} : AliasTable).addAll spelledPairs with
    | ok table => exact ⟨table, rfl⟩
    | error error => simp [h, Except.isOk, Except.toBool] at hloads
  obtain ⟨loaded, hloaded⟩ := hiff.mpr htable
  obtain ⟨table, htable⟩ := htable
  refine ⟨List.reverse_perm _, List.reverse_perm _,
    ⟨table, loaded, htable, hloaded, (hsame table loaded htable hloaded).1⟩, fun h => ?_⟩
  obtain ⟨table, htable⟩ := ((hback _ (List.reverse_perm back)).1).mp h
  simp [htable, Except.isOk, Except.toBool] at hfails

end TagSearch.AliasTable
