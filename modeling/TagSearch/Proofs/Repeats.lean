import Mathlib.Data.List.Basic
import Mathlib.Data.List.Induction

/-!
# Dropping repeats

Two lists of lemmas on leaving repeats out. In the first, items repeat one another if a test finds
them alike; in the second they are equal, and what is kept of each is its first appearance.
-/

namespace TagSearch

/-! ## Alike items -/

section Alike

variable {α β : Type} {r : α → α → Bool}

/-- Repeats are dropped from the front: whatever is alike to the first item goes, and then the rest
is gone through. -/
theorem eraseDupsBy_induct {P : List α → List α → Prop} (nil : P [] [])
    (cons : ∀ item rest kept, P (rest.filter fun other => r other item = false) kept →
      P (item :: rest) (item :: kept)) (items : List α) : P items (items.eraseDupsBy r) := by
  induction hn : items.length using Nat.strongRecOn generalizing items with
  | ind n ih =>
    cases items with
    | nil => exact nil
    | cons item rest =>
      have hshort := List.length_filter_le (fun other => decide (r other item = false)) rest
      rw [List.length_cons] at hn
      rw [List.eraseDupsBy_cons]
      exact cons _ _ _ (ih _ (by omega) _ rfl)

theorem eraseDupsBy_sublist (items : List α) : (items.eraseDupsBy r).Sublist items := by
  refine eraseDupsBy_induct (P := fun items kept => kept.Sublist items) .slnil ?_ items
  intro item rest kept ih
  exact (ih.trans List.filter_sublist).cons_cons item

/-- Whatever is dropped is alike to something that is kept. -/
theorem exists_of_mem_eraseDupsBy (hrefl : ∀ item, r item item = true) (items : List α) :
    ∀ item ∈ items, ∃ other ∈ items.eraseDupsBy r, r item other = true := by
  refine eraseDupsBy_induct (P := fun items kept =>
    ∀ item ∈ items, ∃ other ∈ kept, r item other = true) (by simp) ?_ items
  intro first rest kept ih item hitem
  by_cases halike : r item first = true
  · exact ⟨first, List.mem_cons_self, halike⟩
  · rcases List.mem_cons.mp hitem with rfl | hitem
    · exact absurd (hrefl item) halike
    · obtain ⟨other, hother, hr⟩ := ih item (List.mem_filter.mpr ⟨hitem, by simpa using halike⟩)
      exact ⟨other, List.mem_cons_of_mem _ hother, hr⟩

/-- What is kept differs. -/
theorem nodup_eraseDupsBy (hrefl : ∀ item, r item item = true) (items : List α) :
    (items.eraseDupsBy r).Nodup := by
  refine (eraseDupsBy_induct (r := r) (P := fun items kept => kept ⊆ items ∧ kept.Nodup)
    ⟨fun _ => id, List.nodup_nil⟩ ?_ items).2
  intro first rest kept ih
  refine ⟨List.cons_subset_cons first (List.Subset.trans ih.1 (List.filter_subset_self _)), ?_⟩
  refine List.nodup_cons.mpr ⟨fun hfirst => ?_, ih.2⟩
  have halike := (List.mem_filter.mp (ih.1 hfirst)).2
  simp [hrefl first] at halike

theorem eraseDupsBy_map {s : β → β → Bool} (f : β → α) (items : List β)
    (h : ∀ a b, r (f a) (f b) = s a b) :
    (items.map f).eraseDupsBy r = (items.eraseDupsBy s).map f := by
  refine eraseDupsBy_induct (r := s) (P := fun items kept =>
    (items.map f).eraseDupsBy r = kept.map f) rfl ?_ items
  intro item rest kept ih
  rw [List.map_cons, List.eraseDupsBy_cons, List.filter_map, List.map_cons, ← ih]
  simp only [Function.comp_def, h]

end Alike

/-! ## First appearances -/

section FirstAppearances

variable {α β : Type} [BEq α] [LawfulBEq α] [BEq β] [LawfulBEq β]

theorem nodup_eraseDups (items : List α) : items.eraseDups.Nodup :=
  nodup_eraseDupsBy (fun item => beq_self_eq_true item) items

theorem eraseDups_concat (items : List α) (item : α) :
    (items ++ [item]).eraseDups
      = if items.contains item then items.eraseDups else items.eraseDups ++ [item] := by
  rw [List.eraseDups_append, List.removeAll]
  split
  · next hmem =>
    rw [List.filter_cons_of_neg (by simpa using hmem)]
    simp
  · next hmem =>
    rw [List.filter_cons_of_pos (by simpa using hmem)]
    simp [List.eraseDups_cons]

/-- Repeats that are dropped before a map are dropped after it. -/
theorem eraseDups_map_eraseDups (f : α → β) (items : List α) :
    (items.eraseDups.map f).eraseDups = (items.map f).eraseDups := by
  induction items using List.reverseRecOn with
  | nil => rfl
  | append_singleton items item ih =>
    rw [eraseDups_concat, List.map_append, List.map_singleton, eraseDups_concat]
    split
    · next hmem =>
      have himage : (items.map f).contains (f item) = true := by
        rw [List.contains_iff_mem] at hmem ⊢
        exact List.mem_map_of_mem hmem
      rw [if_pos himage, ih]
    · have himage :
          (items.eraseDups.map f).contains (f item) = (items.map f).contains (f item) := by
        rw [Bool.eq_iff_iff, List.contains_iff_mem, List.contains_iff_mem, List.mem_map,
          List.mem_map]
        simp only [List.mem_eraseDups]
      rw [List.map_append, List.map_singleton, eraseDups_concat, himage, ih]

/-- **Dropping repeats keeps the order in which items first appear.** -/
theorem eraseDups_inOrder (p : α → Bool) (items : List α) :
    (items.filter p).eraseDups.Pairwise fun a b => items.idxOf a < items.idxOf b := by
  induction items using List.reverseRecOn with
  | nil => exact .nil
  | append_singleton items item ih =>
    have hmem : ∀ a ∈ (items.filter p).eraseDups, a ∈ items := fun a ha =>
      (List.mem_filter.mp (List.mem_eraseDups.mp ha)).1
    have hbefore : (items.filter p).eraseDups.Pairwise fun a b =>
        (items ++ [item]).idxOf a < (items ++ [item]).idxOf b := by
      refine ih.imp_of_mem fun {a b} ha hb hlt => ?_
      rwa [List.idxOf_append_of_mem (hmem a ha), List.idxOf_append_of_mem (hmem b hb)]
    rw [List.filter_append]
    by_cases hitem : p item = true
    · rw [List.filter_cons_of_pos hitem, List.filter_nil, eraseDups_concat]
      split
      · exact hbefore
      · next hnew =>
        have hnew : item ∉ items := fun h =>
          hnew (List.contains_iff_mem.mpr (List.mem_filter.mpr ⟨h, hitem⟩))
        refine List.pairwise_append.mpr ⟨hbefore, List.pairwise_singleton .., ?_⟩
        intro a ha b hb
        rw [List.mem_singleton.mp hb, List.idxOf_append_of_mem (hmem a ha),
          List.idxOf_append_of_notMem hnew]
        exact Nat.lt_add_right _ (List.idxOf_lt_length_of_mem (hmem a ha))
    · rw [List.filter_cons_of_neg hitem, List.filter_nil, List.append_nil]
      exact hbefore

end FirstAppearances

end TagSearch
