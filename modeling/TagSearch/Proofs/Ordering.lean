import TagSearch.Text.Basic

/-!
# Orders

Texts are compared at their first difference, and lists of texts in the same way. Both comparisons
are orders, and sorting by an order forgets in which order the items came.
-/

namespace TagSearch.Text

/-- Sorting forgets the order in which items came, if no two different ones of them are in both
orders. -/
theorem mergeSort_congr {α : Type} {le : α → α → Bool}
    (total : ∀ a b, (le a b || le b a) = true)
    (trans : ∀ a b c, le a b = true → le b c = true → le a c = true) {items others : List α}
    (antisymm : ∀ a ∈ items, ∀ b ∈ items, le a b = true → le b a = true → a = b)
    (hperm : items.Perm others) : items.mergeSort le = others.mergeSort le := by
  refine List.Perm.eq_of_pairwise ?_ (List.pairwise_mergeSort trans total items)
    (List.pairwise_mergeSort trans total others) ?_
  · intro a b ha hb
    exact antisymm a (List.mem_mergeSort.mp ha) b (hperm.mem_iff.mpr (List.mem_mergeSort.mp hb))
  · exact (List.mergeSort_perm items le).trans
      (hperm.trans (List.mergeSort_perm others le).symm)

/-- A comparison that puts any two different items into one order. -/
structure Orders {α : Type} (le : α → α → Bool) : Prop where
  total : ∀ a b, (le a b || le b a) = true
  trans : ∀ a b c, le a b = true → le b c = true → le a c = true
  antisymm : ∀ {a b}, le a b = true → le b a = true → a = b

namespace Orders

variable {α : Type} {le : α → α → Bool}

theorem refl (h : Orders le) (a : α) : le a a = true := by
  simpa using h.total a a

/-- A sorted list is in order. -/
theorem sorted (h : Orders le) (items : List α) :
    (items.mergeSort le).Pairwise fun a b => le a b = true :=
  List.pairwise_mergeSort h.trans h.total items

/-- **Sorting forgets the order in which items came.** -/
theorem mergeSort_eq_of_perm (h : Orders le) {items others : List α} (hperm : items.Perm others) :
    items.mergeSort le = others.mergeSort le :=
  mergeSort_congr h.total h.trans (fun _ _ _ _ => h.antisymm) hperm

variable [DecidableEq α]

theorem leByFirst_total (h : Orders le) : ∀ as bs : List α,
    (leByFirst le as bs || leByFirst le bs as) = true
  | [], _ => by simp [leByFirst]
  | _ :: _, [] => by simp [leByFirst]
  | a :: as, b :: bs => by
    by_cases hab : a = b
    · simpa [leByFirst, hab] using h.leByFirst_total as bs
    · simpa [leByFirst, hab, Ne.symm hab] using h.total a b

theorem leByFirst_antisymm (h : Orders le) : ∀ {as bs : List α},
    leByFirst le as bs = true → leByFirst le bs as = true → as = bs
  | [], [], _, _ => rfl
  | [], _ :: _, _, hba => by simp [leByFirst] at hba
  | _ :: _, [], hab, _ => by simp [leByFirst] at hab
  | a :: as, b :: bs, hab, hba => by
    by_cases heq : a = b
    · subst heq
      simp only [leByFirst, if_true] at hab hba
      rw [h.leByFirst_antisymm hab hba]
    · simp only [leByFirst, heq, Ne.symm heq, if_false] at hab hba
      exact absurd (h.antisymm hab hba) heq

theorem leByFirst_trans (h : Orders le) : ∀ as bs cs : List α,
    leByFirst le as bs = true → leByFirst le bs cs = true → leByFirst le as cs = true
  | [], _, _, _, _ => by simp [leByFirst]
  | _ :: _, [], _, hab, _ => by simp [leByFirst] at hab
  | _ :: _, _ :: _, [], _, hbc => by simp [leByFirst] at hbc
  | a :: as, b :: bs, c :: cs, hab, hbc => by
    -- what decides is the earlier of the two first differences
    by_cases hxy : a = b
    · subst hxy
      by_cases hyz : a = c
      · subst hyz
        simp only [leByFirst, if_true] at hab hbc ⊢
        exact h.leByFirst_trans as bs cs hab hbc
      · simpa [leByFirst, hyz] using hbc
    · by_cases hyz : b = c
      · subst hyz
        simpa [leByFirst, hxy] using hab
      · simp only [leByFirst, hxy, hyz, if_false] at hab hbc
        have hac : a ≠ c := by
          rintro rfl
          exact hxy (h.antisymm hab hbc)
        simpa [leByFirst, hac] using h.trans a b c hab hbc

/-- **Comparing lists at their first difference orders them, if their items are ordered.** -/
theorem byFirst (h : Orders le) : Orders (leByFirst le) :=
  ⟨h.leByFirst_total, h.leByFirst_trans, h.leByFirst_antisymm⟩

end Orders

theorem orders_le : Orders le := by
  refine Orders.byFirst ⟨fun a b => ?_, fun a b c hab hbc => ?_, fun {a b} hab hba => ?_⟩
  · simpa using Nat.le_total a.toNat b.toNat
  · simp only [decide_eq_true_eq] at hab hbc ⊢
    exact Nat.le_trans hab hbc
  · simp only [decide_eq_true_eq] at hab hba
    exact Char.toNat_inj.mp (Nat.le_antisymm hab hba)

@[simp] theorem mem_sort {t : Text} {ts : List Text} : t ∈ sort ts ↔ t ∈ ts :=
  List.mem_mergeSort

/-- Texts that are all different are in strict order once sorted. -/
theorem sort_strict {ts : List Text} (h : ts.Nodup) :
    (sort ts).Pairwise fun a b => le a b = true ∧ a ≠ b := by
  have hnodup : (sort ts).Nodup := (List.mergeSort_perm ts le).nodup_iff.mpr h
  exact (orders_le.sorted ts).and hnodup

end TagSearch.Text
