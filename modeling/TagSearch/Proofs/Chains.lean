import Mathlib.Data.List.Nodup
import Mathlib.Data.List.Perm.Subperm
import Mathlib.Logic.Relation
import Mathlib.Order.WellFounded
import TagSearch.Alias
import TagSearch.Proofs.Ordering
import TagSearch.Proofs.Runs

/-!
# Chains of aliases

An alias table is a forest: every chain of aliases comes to an end, and no name is its own alias by
way of others. This holds after any sequence of edits, refused ones included.

`Edited` lists what an accepted edit does to a table. `IsForest` is what every edit keeps: that the
chains end is kept by a new alias since the walk that looks for a circle would have found one
(`acc_of_not_reaches`). The bound on the number of steps is enough since a chain that goes on for as
many steps as there are aliases would have to pass one of them twice (`lt_of_follow_isAlias`).
-/

namespace TagSearch

open Text

/-! ## Aliases by tag -/

namespace AliasIndex

variable {canonical other name : Text}

theorem lookup_of_not_mem : ∀ {entries : List (Text × List Text)},
    canonical ∉ entries.map Prod.fst → lookup canonical entries = []
  | [], _ => rfl
  | (tag, names) :: rest, h => by
    simp only [List.map_cons, List.mem_cons, not_or] at h
    rw [lookup, if_neg (Ne.symm h.1), lookup_of_not_mem h.2]

theorem lookup_addTo (canonical name other : Text) : ∀ entries : List (Text × List Text),
    lookup other (addTo canonical name entries)
      = if other = canonical then (lookup other entries).insert name else lookup other entries
  | [] => by simp [addTo, lookup, eq_comm]
  | (tag, names) :: rest => by
    have ih := lookup_addTo canonical name other rest
    by_cases htag : tag = canonical
    · subst htag
      by_cases hother : tag = other
      · simp [addTo, lookup, hother]
      · simp [addTo, lookup, hother, Ne.symm hother]
    · by_cases hother : tag = other
      · subst hother
        simp [addTo, lookup, htag]
      · simp [addTo, lookup, htag, hother, ih]

theorem lookup_dropFrom (canonical name other : Text) : ∀ {entries : List (Text × List Text)},
    (entries.map Prod.fst).Nodup →
    lookup other (dropFrom canonical name entries)
      = if other = canonical then (lookup other entries).filter (· != name)
        else lookup other entries
  | [], _ => by simp [dropFrom, lookup]
  | (tag, names) :: rest, h => by
    simp only [List.map_cons, List.nodup_cons] at h
    have ih := lookup_dropFrom canonical name other h.2
    by_cases htag : tag = canonical
    · subst htag
      by_cases hother : tag = other
      · subst hother
        -- a tag without aliases is dropped, and no other entry is about that tag
        by_cases hempty : (names.filter (· != name)).isEmpty = true
        · simp only [dropFrom, if_true, hempty, lookup, lookup_of_not_mem h.1]
          exact (List.isEmpty_iff.mp hempty).symm
        · simp only [dropFrom, if_true, hempty, Bool.false_eq_true, if_false, lookup]
      · simp only [dropFrom, if_true]
        split <;> simp [lookup, hother, Ne.symm hother]
    · by_cases hother : tag = other
      · subst hother
        simp [dropFrom, lookup, htag]
      · simp [dropFrom, lookup, htag, hother, ih]

/-- Adding an alias of a tag changes the aliases of that tag and no other. -/
theorem get_add (index : AliasIndex) (canonical name other : Text) :
    (index.add canonical name).get other
      = if other = canonical then (index.get other).insert name else index.get other :=
  lookup_addTo canonical name other index.entries

theorem get_drop {index : AliasIndex} (h : (index.entries.map Prod.fst).Nodup)
    (canonical name other : Text) :
    (index.drop canonical name).get other
      = if other = canonical then (index.get other).filter (· != name) else index.get other :=
  lookup_dropFrom canonical name other h

theorem mem_tags_addTo (canonical name other : Text) : ∀ {entries : List (Text × List Text)},
    other ∈ (addTo canonical name entries).map Prod.fst →
      other = canonical ∨ other ∈ entries.map Prod.fst
  | [], h => by simpa [addTo] using h
  | (tag, names) :: rest, h => by
    by_cases htag : tag = canonical
    · rw [addTo, if_pos htag] at h
      exact Or.inr h
    · rw [addTo, if_neg htag, List.map_cons, List.mem_cons] at h
      rcases h with rfl | h
      · exact Or.inr (by simp)
      · exact (mem_tags_addTo canonical name other h).imp_right (by simp +contextual)

theorem nodup_addTo (canonical name : Text) : ∀ {entries : List (Text × List Text)},
    (entries.map Prod.fst).Nodup → ((addTo canonical name entries).map Prod.fst).Nodup
  | [], _ => by simp [addTo]
  | (tag, names) :: rest, h => by
    by_cases htag : tag = canonical
    · rw [addTo, if_pos htag]
      exact h
    · simp only [List.map_cons, List.nodup_cons] at h
      rw [addTo, if_neg htag, List.map_cons, List.nodup_cons]
      refine ⟨fun hmem => ?_, nodup_addTo canonical name h.2⟩
      exact (mem_tags_addTo canonical name tag hmem).elim htag h.1

theorem dropFrom_tags_sublist (canonical name : Text) : ∀ entries : List (Text × List Text),
    ((dropFrom canonical name entries).map Prod.fst).Sublist (entries.map Prod.fst)
  | [] => List.Sublist.refl _
  | (tag, names) :: rest => by
    unfold dropFrom
    split
    · dsimp only
      split
      · exact List.sublist_cons_self _ _
      · exact List.Sublist.refl _
    · exact (dropFrom_tags_sublist canonical name rest).cons_cons tag

end AliasIndex

namespace AliasTable

variable {table edited : AliasTable} {name canonical target : Text}

/-! ## Looking up -/

/-- A name is a direct alias of a tag. -/
def StandsFor (table : AliasTable) (name canonical : Text) : Prop :=
  table.next? name = some canonical

theorem mem_of_standsFor (h : table.StandsFor name canonical) :
    (name, canonical) ∈ table.pairs := by
  obtain ⟨pair, hfind, hsnd⟩ := Option.map_eq_some_iff.mp h
  have hfst : pair.1 = name := by simpa using List.find?_some hfind
  rw [← hfst, ← hsnd]
  exact List.mem_of_find?_eq_some hfind

/-- Adding a pair of a new name adds one answer. -/
theorem next?_concat (index : AliasIndex) (h : table.next? name = none) (other : Text) :
    next? ⟨table.pairs ++ [(name, canonical)], index⟩ other
      = if other = name then some canonical else table.next? other := by
  unfold next? at h ⊢
  rw [List.find?_append]
  by_cases hother : other = name
  · subst hother
    rw [Option.map_eq_none_iff.mp h]
    simp
  · simp [hother, Ne.symm hother]

/-- Removing the pairs of a name removes its answer. -/
theorem next?_filter (index : AliasIndex) (name other : Text) :
    next? ⟨table.pairs.filter fun pair => pair.1 != name, index⟩ other
      = if other = name then none else table.next? other := by
  unfold next?
  rw [List.find?_filter]
  by_cases hother : other = name
  · subst hother
    simp
  · rw [if_neg hother]
    congr 2
    funext pair
    by_cases hpair : pair.1 = other
    · simp [hpair, hother]
    · simp [hpair]

/-! ## Edits -/

/-- What is asked of a table. -/
inductive Edit where
  | add (name canonical : Text)
  | remove (name : Text)
  deriving DecidableEq, Repr

/-- What a table answers to an edit. -/
def edit (table : AliasTable) : Edit → Except AliasError AliasTable
  | .add name canonical => table.add name canonical
  | .remove name => table.remove name

/-- The table after an edit. An edit that is refused leaves it as it is. -/
def after (table : AliasTable) (change : Edit) : AliasTable :=
  match table.edit change with
  | .ok edited => edited
  | .error _ => table

/-- A name that can be aliased: it is not empty, bears no modifier and is no wildcard. -/
structure IsName (name : Text) : Prop where
  nonempty : name ≠ []
  bare : name.head? ≠ some '-' ∧ name.head? ≠ some '~'
  literal : '*' ∉ name

theorem isValidName_iff : isValidName name = true ↔ IsName name := by
  cases name with
  | nil => simp [isValidName, show ¬IsName [] from fun h => h.nonempty rfl]
  | cons c rest =>
    simp only [isValidName, Bool.and_eq_true, bne_iff_ne, Bool.not_eq_true',
      List.contains_eq_mem, decide_eq_false_iff_not]
    constructor
    · rintro ⟨⟨hmust, hshould⟩, hstar⟩
      exact ⟨by simp, by simpa using ⟨hmust, hshould⟩, hstar⟩
    · intro h
      exact ⟨by simpa using h.bare, h.literal⟩

/-- What an accepted edit does to a table. -/
inductive Edited (table : AliasTable) : AliasTable → Prop
  /-- The alias was there already. -/
  | same : Edited table table
  | added {name canonical : Text} (hname : IsName name) (hcanonical : IsName canonical)
    (hnew : table.next? name = none) (hcircle : table.wouldCircle name canonical = false) :
    Edited table ⟨table.pairs ++ [(name, canonical)], table.index.add canonical name⟩
  | removed {name canonical : Text} (hold : table.next? name = some canonical) :
    Edited table ⟨table.pairs.filter fun pair => pair.1 != name, table.index.drop canonical name⟩

/-- **An accepted edit does one of these things.** -/
theorem edited_of_edit {change : Edit} (h : table.edit change = .ok edited) :
    table.Edited edited := by
  cases change with
  | add name canonical =>
    simp only [edit, add] at h
    split at h
    · simp at h
    · next hname =>
      split at h
      · simp at h
      · next hcanonical =>
        split at h
        · split at h
          · cases h
            exact .same
          · simp at h
        · next hnew =>
          split at h
          · simp at h
          · next hcircle =>
            cases h
            exact .added (isValidName_iff.mp (by simpa using hname))
              (isValidName_iff.mp (by simpa using hcanonical)) hnew (by simpa using hcircle)
  | remove name =>
    simp only [edit, remove] at h
    split at h
    · next canonical hold =>
      cases h
      exact .removed hold
    · simp at h

/-- A new alias is refused for a circle exactly if the walk from its tag comes to it. -/
theorem add_circular_iff (hname : IsName (tagName name)) (hcanonical : IsName (tagName canonical))
    (hnew : table.next? (tagName name) = none) :
    (∃ refused tag, table.add name canonical = .error (.circular refused tag))
      ↔ table.wouldCircle (tagName name) (tagName canonical) = true := by
  simp only [add, isValidName_iff.mpr hname, isValidName_iff.mpr hcanonical, hnew, Bool.not_true,
    Bool.false_eq_true, if_false]
  split <;> simp_all

/-! ## Walking along a chain -/

theorem follow_of_none (h : table.next? name = none) (steps : Nat) :
    table.follow steps name = name := by
  cases steps with
  | zero => rfl
  | succ steps => simp [follow, h]

theorem follow_of_standsFor (h : table.StandsFor name canonical) (steps : Nat) :
    table.follow (steps + 1) name = table.follow steps canonical := by
  have h : table.next? name = some canonical := h
  simp [follow, h]

theorem follow_chain (table : AliasTable) (steps : Nat) (name : Text) :
    Relation.ReflTransGen table.StandsFor name (table.follow steps name) := by
  induction steps generalizing name with
  | zero => exact Relation.ReflTransGen.refl
  | succ steps ih =>
    cases h : table.next? name with
    | none =>
      rw [follow_of_none h]
    | some next =>
      rw [follow_of_standsFor h]
      exact Relation.ReflTransGen.head h (ih next)

/-- A chain goes on in one way only, so that whatever it comes to lies behind its first step. -/
theorem StandsFor.unique {other : Text} (h : table.StandsFor name canonical)
    (hother : table.StandsFor name other) : canonical = other :=
  Option.some.inj (h.symm.trans hother)

/-- The walk finds what the chain comes to, however few steps it is given. -/
theorem reaches_of_transGen (h : Relation.TransGen table.StandsFor name target) (steps : Nat) :
    table.reaches target steps name = true := by
  induction steps generalizing name with
  | zero => rfl
  | succ steps ih =>
    obtain ⟨next, hnext, hrest⟩ := Relation.TransGen.head'_iff.mp h
    have hnext : table.next? name = some next := hnext
    simp only [reaches, hnext, Bool.or_eq_true, beq_iff_eq]
    rcases Relation.reflTransGen_iff_eq_or_transGen.mp hrest with rfl | hrest
    · exact Or.inl rfl
    · exact Or.inr (ih hrest)

/-- A walk that says so either found its target or has steps left to go. -/
theorem transGen_or_of_reaches {steps : Nat} (h : table.reaches target steps name = true) :
    Relation.TransGen table.StandsFor name target
      ∨ ∀ taken < steps, ∃ next, table.StandsFor (table.follow taken name) next := by
  induction steps generalizing name with
  | zero => exact Or.inr fun taken htaken => absurd htaken (Nat.not_lt_zero _)
  | succ steps ih =>
    cases hnext : table.next? name with
    | none => simp [reaches, hnext] at h
    | some next =>
      simp only [reaches, hnext, Bool.or_eq_true, beq_iff_eq] at h
      rcases h with rfl | h
      · exact Or.inl (Relation.TransGen.single hnext)
      · rcases ih h with hfound | hgoes
        · exact Or.inl (Relation.TransGen.head hnext hfound)
        · refine Or.inr fun taken htaken => ?_
          cases taken with
          | zero => exact ⟨next, hnext⟩
          | succ taken =>
            rw [follow_of_standsFor hnext]
            exact hgoes taken (Nat.lt_of_succ_lt_succ htaken)

/-! ## Forests -/

/-- The next name of a chain comes before a name. -/
def Before (table : AliasTable) (next name : Text) : Prop :=
  table.StandsFor name next

/-- What every edit of an alias table keeps. -/
structure IsForest (table : AliasTable) : Prop where
  /-- No name is an alias twice. -/
  keys : (table.pairs.map Prod.fst).Nodup
  named : ∀ pair ∈ table.pairs, IsName pair.1 ∧ IsName pair.2
  /-- Every chain comes to an end. -/
  ends : WellFounded table.Before
  /-- No tag has two entries, and no alias is listed twice. -/
  tags : (table.index.entries.map Prod.fst).Nodup
  apart : ∀ canonical, (table.index.get canonical).Nodup
  /-- The aliases by tag are the aliases. -/
  mirrored : ∀ name canonical,
    name ∈ table.index.get canonical ↔ table.StandsFor name canonical

theorem isForest_empty : IsForest {} where
  keys := List.nodup_nil
  named := by simp
  ends := ⟨fun _ => ⟨_, fun _ h => by simp [Before, StandsFor, next?] at h⟩⟩
  tags := List.nodup_nil
  apart := fun _ => List.nodup_nil
  mirrored := by simp [AliasIndex.get, AliasIndex.lookup, StandsFor, next?]

/-- A walk that does not come to a name goes on as before once that name is an alias. -/
theorem acc_of_not_reaches (hgrown : ∀ other, edited.next? other
      = if other = target then some canonical else table.next? other)
    {steps : Nat} (hne : name ≠ target) (h : table.reaches target steps name = false) :
    Acc edited.Before name := by
  induction steps generalizing name with
  | zero => simp [reaches] at h
  | succ steps ih =>
    refine ⟨_, fun next hnext => ?_⟩
    have hnext : edited.next? name = some next := hnext
    rw [hgrown, if_neg hne] at hnext
    simp only [reaches, hnext, Bool.or_eq_false_iff, beq_eq_false_iff_ne] at h
    exact ih h.1 h.2

/-- A new alias whose chain does not come back leaves all chains with an end. -/
theorem wellFounded_added (hends : WellFounded table.Before)
    (hgrown : ∀ other, edited.next? other
      = if other = name then some canonical else table.next? other)
    (hcircle : table.wouldCircle name canonical = false) : WellFounded edited.Before := by
  simp only [wouldCircle, Bool.or_eq_false_iff, beq_eq_false_iff_ne] at hcircle
  have hcanonical : Acc edited.Before canonical :=
    acc_of_not_reaches hgrown (Ne.symm hcircle.1) hcircle.2
  refine ⟨fun start => ?_⟩
  induction start using hends.induction with
  | _ start ih =>
    refine ⟨_, fun next hnext => ?_⟩
    have hnext : edited.next? start = some next := hnext
    rw [hgrown] at hnext
    split at hnext
    · cases hnext
      exact hcanonical
    · exact ih next hnext

theorem not_mem_keys_of_none (h : table.next? name = none) : name ∉ table.pairs.map Prod.fst := by
  intro hmem
  obtain ⟨pair, hpair, rfl⟩ := List.mem_map.mp hmem
  have hfind := List.find?_eq_none.mp (Option.map_eq_none_iff.mp h) pair hpair
  simp at hfind

theorem IsForest.added (h : table.IsForest) (hname : IsName name) (hcanonical : IsName canonical)
    (hnew : table.next? name = none) (hcircle : table.wouldCircle name canonical = false) :
    IsForest ⟨table.pairs ++ [(name, canonical)], table.index.add canonical name⟩ where
  keys := by
    rw [List.map_append, List.map_cons, List.map_nil, List.nodup_append_comm]
    exact List.nodup_cons.mpr ⟨not_mem_keys_of_none hnew, h.keys⟩
  named := by
    intro pair hpair
    rcases List.mem_append.mp hpair with hpair | hpair
    · exact h.named pair hpair
    · rw [List.mem_singleton.mp hpair]
      exact ⟨hname, hcanonical⟩
  ends := wellFounded_added h.ends (next?_concat _ hnew) hcircle
  tags := AliasIndex.nodup_addTo canonical name h.tags
  apart := by
    intro other
    rw [AliasIndex.get_add]
    split
    · exact (h.apart other).insert
    · exact h.apart other
  mirrored := by
    intro listed tag
    have hold : listed ∈ table.index.get tag ↔ table.next? listed = some tag :=
      h.mirrored listed tag
    rw [StandsFor, next?_concat _ hnew, AliasIndex.get_add]
    by_cases hlisted : listed = name
    · subst hlisted
      -- the name was no alias, so it was listed under no tag
      have hnone : listed ∉ table.index.get tag := by
        rw [hold, hnew]
        simp
      by_cases htag : tag = canonical
      · simp [htag]
      · simp [htag, hnone, Ne.symm htag]
    · rw [if_neg hlisted]
      by_cases htag : tag = canonical
      · rw [if_pos htag, List.mem_insert_iff]
        simpa [hlisted] using hold
      · rw [if_neg htag]
        exact hold

theorem IsForest.removed (h : table.IsForest) (hold : table.next? name = some canonical) :
    IsForest ⟨table.pairs.filter fun pair => pair.1 != name,
      table.index.drop canonical name⟩ where
  keys := h.keys.sublist (List.filter_sublist.map Prod.fst)
  named := fun pair hpair => h.named pair (List.mem_of_mem_filter hpair)
  ends := by
    refine Subrelation.wf (fun {next start} hnext => ?_) h.ends
    have hnext : next? ⟨table.pairs.filter _, table.index.drop canonical name⟩ start
      = some next := hnext
    rw [next?_filter] at hnext
    split at hnext
    · simp at hnext
    · exact hnext
  tags := h.tags.sublist (AliasIndex.dropFrom_tags_sublist canonical name _)
  apart := by
    intro other
    rw [AliasIndex.get_drop h.tags]
    split
    · exact (h.apart other).filter _
    · exact h.apart other
  mirrored := by
    intro listed tag
    have hmirrored : listed ∈ table.index.get tag ↔ table.next? listed = some tag :=
      h.mirrored listed tag
    rw [StandsFor, next?_filter, AliasIndex.get_drop h.tags]
    by_cases hlisted : listed = name
    · subst hlisted
      -- the name was listed under the one tag that it stood for
      by_cases htag : tag = canonical
      · simp [htag]
      · rw [if_neg htag, if_pos rfl]
        refine ⟨fun hmem => ?_, by simp⟩
        exact absurd (StandsFor.unique (hmirrored.mp hmem) hold) htag
    · rw [if_neg hlisted]
      by_cases htag : tag = canonical
      · rw [if_pos htag, List.mem_filter]
        simpa [hlisted] using hmirrored
      · rw [if_neg htag]
        exact hmirrored

/-- **An edit leaves a forest a forest.** -/
theorem IsForest.after (h : table.IsForest) (change : Edit) : (table.after change).IsForest := by
  unfold AliasTable.after
  split
  · next edited hedit =>
    cases edited_of_edit hedit with
    | same => exact h
    | added hname hcanonical hnew hcircle => exact h.added hname hcanonical hnew hcircle
    | removed hold => exact h.removed hold
  · exact h

/-- **A table is a forest after any history of edits.** -/
theorem isForest_of_edits (edits : List Edit) : (edits.foldl AliasTable.after {}).IsForest := by
  suffices h : ∀ table : AliasTable, table.IsForest → (edits.foldl AliasTable.after table).IsForest
    from h {} isForest_empty
  induction edits with
  | nil => exact fun _ h => h
  | cons change rest ih => exact fun table h => ih _ (h.after change)

/-! ## What a forest is good for -/

theorem IsForest.acyclic (h : table.IsForest) (name : Text) :
    ¬ Relation.TransGen table.StandsFor name name := by
  intro hcycle
  have hback : Relation.TransGen table.Before name name := Relation.transGen_swap.mpr hcycle
  exact h.ends.transGen.irrefl.irrefl name hback

/-- **A chain has fewer steps than there are aliases.** Every alias that it passes was not passed
before. -/
theorem IsForest.lt_of_follow_isAlias (h : table.IsForest) {steps : Nat} {next : Text}
    (hgoes : table.StandsFor (table.follow steps name) next) : steps < table.pairs.length := by
  suffices hpassed : ∀ passed : List Text, passed.Nodup →
      (∀ listed ∈ passed, listed ∈ table.pairs.map Prod.fst
        ∧ Relation.TransGen table.StandsFor listed name) →
      steps + passed.length < table.pairs.length
    from by simpa using hpassed [] List.nodup_nil (by simp)
  induction steps generalizing name with
  | zero =>
    intro passed hnodup hpassed
    have hname : name ∈ table.pairs.map Prod.fst :=
      List.mem_map_of_mem (f := Prod.fst) (mem_of_standsFor hgoes)
    have hnew : name ∉ passed := fun hmem => h.acyclic name (hpassed name hmem).2
    have hsubset : name :: passed ⊆ table.pairs.map Prod.fst := by
      intro listed hlisted
      rcases List.mem_cons.mp hlisted with rfl | hlisted
      · exact hname
      · exact (hpassed listed hlisted).1
    have hle := (List.subperm_of_subset (List.nodup_cons.mpr ⟨hnew, hnodup⟩) hsubset).length_le
    rw [List.length_cons, List.length_map] at hle
    omega
  | succ steps ih =>
    intro passed hnodup hpassed
    cases hnext : table.next? name with
    | none =>
      have hgoes : table.next? (table.follow (steps + 1) name) = some next := hgoes
      rw [follow_of_none hnext, hnext] at hgoes
      simp at hgoes
    | some second =>
      have hstep : table.StandsFor name second := hnext
      rw [follow_of_standsFor hstep] at hgoes
      have hnew : name ∉ passed := fun hmem => h.acyclic name (hpassed name hmem).2
      have hlt := ih hgoes (name :: passed) (List.nodup_cons.mpr ⟨hnew, hnodup⟩) (by
        intro listed hlisted
        rcases List.mem_cons.mp hlisted with rfl | hlisted
        · exact ⟨List.mem_map_of_mem (f := Prod.fst) (mem_of_standsFor hstep),
            Relation.TransGen.single hstep⟩
        · exact ⟨(hpassed listed hlisted).1, (hpassed listed hlisted).2.tail hstep⟩)
      rw [List.length_cons] at hlt
      omega

/-- The tag that a name stands for is no alias. -/
theorem IsForest.next?_canonicalize (h : table.IsForest) (name : Text) :
    table.next? (table.canonicalize name) = none := by
  cases hnext : table.next? (table.canonicalize name) with
  | none => rfl
  | some next =>
    have hlt : table.pairs.length + 1 < table.pairs.length := h.lt_of_follow_isAlias hnext
    omega

/-- **The walk finds a circle exactly if there would be one.** -/
theorem IsForest.wouldCircle_iff (h : table.IsForest) :
    table.wouldCircle name canonical = true
      ↔ canonical = name ∨ Relation.TransGen table.StandsFor canonical name := by
  simp only [wouldCircle, Bool.or_eq_true, beq_iff_eq]
  constructor
  · rintro (rfl | hreaches)
    · exact Or.inl rfl
    · rcases transGen_or_of_reaches hreaches with hfound | hgoes
      · exact Or.inr hfound
      · -- the walk had one step more than any chain has
        obtain ⟨next, hnext⟩ := hgoes table.pairs.length (Nat.lt_succ_self _)
        exact absurd (h.lt_of_follow_isAlias hnext) (Nat.lt_irrefl _)
  · rintro (rfl | hfound)
    · exact Or.inl rfl
    · exact Or.inr (reaches_of_transGen hfound _)

/-- **After any history of edits an alias table is a forest.** No name is its own alias by way of
others; every name stands for a tag at the end of its chain, which stands for itself; the aliases of
a tag are listed in order, each once; no name is blank, bears a modifier or is a wildcard; a refused
edit changes nothing; and a new alias is refused for a circle exactly if it would close one. -/
theorem edits_keep_forest (edits : List Edit) :
    let table := edits.foldl AliasTable.after {}
    (∀ name, ¬ Relation.TransGen table.StandsFor name name)
      ∧ (∀ name, Relation.ReflTransGen table.StandsFor name (table.canonicalize name)
          ∧ table.next? (table.canonicalize name) = none
          ∧ table.canonicalize (table.canonicalize name) = table.canonicalize name)
      ∧ (∀ canonical,
          (table.aliasesOf canonical).Pairwise (fun a b => Text.le a b = true ∧ a ≠ b)
            ∧ ∀ name, name ∈ table.aliasesOf canonical ↔ table.StandsFor name canonical)
      ∧ (∀ pair ∈ table.pairs, IsName pair.1 ∧ IsName pair.2)
      ∧ (∀ change error, table.edit change = .error error → table.after change = table)
      ∧ ∀ name canonical, IsName (tagName name) → IsName (tagName canonical) →
          table.next? (tagName name) = none →
          ((∃ refused tag, table.add name canonical = .error (.circular refused tag))
            ↔ tagName canonical = tagName name
              ∨ Relation.TransGen table.StandsFor (tagName canonical) (tagName name)) := by
  intro table
  have hforest : table.IsForest := isForest_of_edits edits
  refine ⟨hforest.acyclic, fun name => ?_, fun canonical => ?_, hforest.named, ?_, ?_⟩
  · have hend := hforest.next?_canonicalize name
    exact ⟨follow_chain table _ name, hend, follow_of_none hend _⟩
  · refine ⟨sort_strict (hforest.apart canonical), fun name => ?_⟩
    exact mem_sort.trans (hforest.mirrored name canonical)
  · intro change error herror
    simp only [AliasTable.after, herror]
  · intro name canonical hname hcanonical hnew
    exact (add_circular_iff hname hcanonical hnew).trans hforest.wouldCircle_iff

/-- A chain of two aliases, with edits on the way that are refused: a circle, a modifier and an alias
that is not there. -/
def catEdits : List Edit :=
  [.add "kitty".toList "cat".toList, .add "Cat".toList "Felis catus".toList,
    .add "felis_catus".toList "kitty".toList, .add "-tom".toList "cat".toList,
    .remove "dog".toList, .add "tom".toList "cat".toList, .remove "tom".toList]

/-- The end of the chain cannot become an alias of its start. -/
theorem edits_keep_forest_cats :
    let table := catEdits.foldl AliasTable.after {}
    IsName (tagName "felis_catus".toList) ∧ IsName (tagName "kitty".toList)
      ∧ table.next? (tagName "felis_catus".toList) = none
      ∧ (∃ refused tag, table.add "felis_catus".toList "kitty".toList
          = .error (.circular refused tag))
      ∧ table.canonicalize (table.canonicalize "kitty".toList)
          = table.canonicalize "kitty".toList := by
  intro table
  obtain ⟨_, hcanonical, _, _, _, hcircle⟩ := edits_keep_forest catEdits
  have hend : IsName (tagName "felis_catus".toList) := isValidName_iff.mp (by decide +kernel)
  have hstart : IsName (tagName "kitty".toList) := isValidName_iff.mp (by decide +kernel)
  have hnew : table.next? (tagName "felis_catus".toList) = none := by decide +kernel
  have hfirst : table.StandsFor (tagName "kitty".toList) "cat".toList := by
    show table.next? _ = _
    decide +kernel
  have hsecond : table.StandsFor "cat".toList (tagName "felis_catus".toList) := by
    show table.next? _ = _
    decide +kernel
  refine ⟨hend, hstart, hnew, ?_, (hcanonical _).2.2⟩
  exact (hcircle _ _ hend hstart hnew).mpr (Or.inr ((Relation.TransGen.single hfirst).tail hsecond))

end AliasTable

end TagSearch
