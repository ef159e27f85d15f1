import TagSearch.Proofs.Roundtrip
import TagSearch.Text.Canonical

/-!
# Composing text piece by piece

Blanks, quotes, parentheses and NUL are inert: none of them is part of anything that decomposes,
changes places or composes. So a text is brought to its canonical form piece by piece between them:

* `recast_inert`: what stands before an inert character and what stands after it are recast apart.
* `isStable_inert`: a text is stable exactly if both sides of an inert character in it are.

A forest that is written with the leaves of a clean one is therefore clean as well
(`Forest.IsClean.of_leaves`).
-/

namespace TagSearch

namespace Text

/-- A character that takes no part in composition. -/
def isInert (c : Char) : Bool :=
  isBlank c || c == '"' || c == '(' || c == ')' || c == '\x00'

theorem isInert_of_isBlank {c : Char} (h : isBlank c = true) : isInert c = true := by
  simp [isInert, h]

namespace Canonical

/-! ## The tables -/

/-- The code points of inert characters. -/
def inert : List Nat :=
  [0x00, 0x09, 0x0a, 0x0b, 0x0c, 0x0d, 0x20, 0x22, 0x28, 0x29]

theorem toNat_mem_inert {c : Char} (h : isInert c = true) : c.toNat ∈ inert := by
  simp only [isInert, isBlank, Bool.or_eq_true, beq_iff_eq] at h
  rcases h with ((((((((rfl | rfl) | rfl) | rfl) | rfl) | rfl) | rfl) | rfl) | rfl) | rfl <;> decide

/-- Inert code points are the lowest ones. -/
theorem lt_of_mem_inert {x : Nat} (h : x ∈ inert) : x < 0x2a := by
  have hall : inert.all (· < 0x2a) = true := by decide
  simpa using List.all_eq_true.mp hall x h

/-- Whether all parts in the tables pass a test, and with them what decomposes into two of them. -/
def partsPass (p : Nat → Bool) : Bool :=
  pairs.all (fun (c, a, b) => p c && p a && p b) && singles.all (fun (_, a) => p a)
    && ideographs.all fun (_, targets) => targets.all p

section Parts

variable {p : Nat → Bool} (hp : partsPass p = true)

include hp

theorem pass_of_mem_pairs {c a b : Nat} (h : (c, a, b) ∈ pairs) :
    p c = true ∧ p a = true ∧ p b = true := by
  simp only [partsPass, Bool.and_eq_true] at hp
  simpa [and_assoc] using List.all_eq_true.mp hp.1.1 _ h

theorem pass_of_single? {n a : Nat} (h : single? n = some a) : p a = true := by
  simp only [partsPass, Bool.and_eq_true] at hp
  unfold single? at h
  split at h
  · next found hfind =>
    cases h
    exact List.all_eq_true.mp hp.1.2 _ (List.mem_of_find?_eq_some hfind)
  · obtain ⟨⟨first, targets⟩, hmem, h⟩ := List.exists_of_findSome?_eq_some h
    dsimp only at h
    split at h
    · exact List.all_eq_true.mp (List.all_eq_true.mp hp.2 _ hmem) a (List.mem_of_getElem? h)
    · simp at h

end Parts

/-- No character decomposes into an inert one, and an inert one does not decompose into two. -/
theorem partsPass_not_inert : partsPass (!inert.contains ·) = true := by
  decide +kernel

variable {x : Nat} (hx : x ∈ inert)

include hx

theorem syllable?_no_inert {n : Nat} {parts : List Nat} (h : syllable? n = some parts) :
    x ∉ parts := by
  have hlt := lt_of_mem_inert hx
  unfold syllable? at h
  split at h
  · obtain rfl := Option.some.inj h
    split <;> simp only [List.mem_append, List.mem_cons, List.not_mem_nil, or_false] <;> omega
  · simp at h

theorem ne_of_not_contains {a : Nat} (h : (!inert.contains a) = true) : a ≠ x := by
  rintro rfl
  simp [hx] at h

theorem single?_no_inert {n a : Nat} (h : single? n = some a) : a ≠ x :=
  ne_of_not_contains hx (pass_of_single? partsPass_not_inert h)

/-- The parts of a pair are not inert, and neither is what they make up. -/
theorem ne_of_mem_pairs {c a b : Nat} (h : (c, a, b) ∈ pairs) : a ≠ x ∧ b ≠ x ∧ c ≠ x := by
  obtain ⟨hc, ha, hb⟩ := pass_of_mem_pairs partsPass_not_inert h
  exact ⟨ne_of_not_contains hx ha, ne_of_not_contains hx hb, ne_of_not_contains hx hc⟩

theorem split?_no_inert {n : Nat} {parts : List Nat} (h : split? n = some parts) :
    x ∉ parts := by
  unfold split? at h
  split at h
  · simp at h
  · split at h
    · next parts' hsyllable =>
      cases h
      exact syllable?_no_inert hx hsyllable
    · split at h
      · next a b hfind =>
        cases h
        obtain ⟨ha, hb, -⟩ := ne_of_mem_pairs hx (List.mem_of_find?_eq_some hfind)
        simp [ha.symm, hb.symm]
      · obtain ⟨a, ha, rfl⟩ := Option.map_eq_some_iff.mp h
        simpa using (single?_no_inert hx ha).symm

/-- What is joined has nothing inert in it, and does not make it. -/
theorem join?_no_inert {a b c : Nat} (h : join? a b = some c) :
    a ≠ x ∧ b ≠ x ∧ c ≠ x := by
  have hlt := lt_of_mem_inert hx
  unfold join? at h
  split at h
  · next s hjoin =>
    cases h
    unfold joinSyllable? at hjoin
    split at hjoin
    · next hparts =>
      obtain rfl := Option.some.inj hjoin
      simp only [Bool.and_eq_true, decide_eq_true_eq] at hparts
      omega
    · split at hjoin
      · next hparts =>
        obtain rfl := Option.some.inj hjoin
        simp only [Bool.and_eq_true, decide_eq_true_eq, beq_iff_eq] at hparts
        omega
      · simp at hjoin
  · obtain ⟨⟨c', y, z⟩, hfind, rfl⟩ := Option.map_eq_some_iff.mp h
    have hfound := List.find?_some hfind
    simp only [Bool.and_eq_true, beq_iff_eq] at hfound
    obtain ⟨⟨rfl, rfl⟩, _⟩ := hfound
    exact ne_of_mem_pairs hx (List.mem_of_find?_eq_some hfind)

theorem join?_inert_left (n : Nat) : join? x n = none := by
  cases h : join? x n with
  | none => rfl
  | some c => exact absurd rfl (join?_no_inert hx h).1

theorem join?_inert_right (n : Nat) : join? n x = none := by
  cases h : join? n x with
  | none => rfl
  | some c => exact absurd rfl (join?_no_inert hx h).2.1

/-! ## The passes -/

theorem decompose_inert (depth : Nat) : decompose depth x = [x] := by
  have hsplit : split? x = none := by
    rw [split?, if_pos (Nat.lt_trans (lt_of_mem_inert hx) (by decide))]
  cases depth with
  | zero => rfl
  | succ depth => rw [decompose, hsplit]

theorem classOf_inert : classOf x = 0 := by
  rw [classOf, if_pos (Nat.lt_trans (lt_of_mem_inert hx) (by decide))]

/-- Decomposing makes nothing inert and loses nothing inert. -/
theorem count_decompose (depth n : Nat) :
    (decompose depth n).count x = [n].count x := by
  by_cases hn : n = x
  · rw [hn, decompose_inert hx]
  · have hzero : ∀ n, n ≠ x → [n].count x = 0 := by
      intro n hn
      exact List.count_eq_zero.mpr (by simpa using hn.symm)
    rw [hzero n hn]
    induction depth generalizing n with
    | zero => exact hzero n hn
    | succ depth ih =>
      unfold decompose
      split
      · next a rest hsplit =>
        have hparts := split?_no_inert hx hsplit
        rw [List.mem_cons, not_or] at hparts
        rw [List.count_append, ih a (Ne.symm hparts.1), List.count_eq_zero.mpr hparts.2]
      · exact hzero n hn

omit hx in
theorem insertMark_perm (n : Nat) (ns : List Nat) : (insertMark n ns).Perm (n :: ns) := by
  induction ns with
  | nil => exact List.Perm.refl _
  | cons m rest ih =>
    unfold insertMark
    split
    · exact (ih.cons m).trans (List.Perm.swap n m rest)
    · exact List.Perm.refl _

omit hx in
/-- Reordering only moves characters. -/
theorem reorder_perm (ns : List Nat) : (reorder ns).Perm ns := by
  induction ns with
  | nil => exact List.Perm.refl _
  | cons n rest ih =>
    unfold reorder
    split
    · exact ih.cons n
    · exact (insertMark_perm n _).trans (ih.cons n)

theorem insertMark_inert (n : Nat) (before after : List Nat) :
    insertMark n (before ++ x :: after) = insertMark n before ++ x :: after := by
  induction before with
  | nil => simp [insertMark, classOf_inert hx]
  | cons m rest ih =>
    rw [List.cons_append, insertMark, insertMark, ih]
    split <;> rfl

/-- No mark moves past an inert character. -/
theorem reorder_inert (before after : List Nat) :
    reorder (before ++ x :: after) = reorder before ++ x :: reorder after := by
  induction before with
  | nil => simp [reorder, classOf_inert hx]
  | cons n rest ih =>
    -- a mark is inserted into what was reordered behind it, and stops at `x` at the latest
    rw [List.cons_append, reorder, reorder, ih]
    split
    · rfl
    · exact insertMark_inert hx n _ _

/-- Nothing composes with an inert character that starts a run. -/
theorem composeFrom_inert (marks : List Nat) (last : Nat) (ns : List Nat) :
    composeFrom x marks last ns = x :: (marks ++ recompose ns) := by
  induction ns generalizing marks last with
  | nil => simp [composeFrom, recompose]
  | cons n rest ih =>
    rw [composeFrom, join?_inert_left hx, ite_self, recompose]
    dsimp only
    split
    · rfl
    · rw [ih, List.append_assoc]
      rfl

theorem composeFrom_append (starter : Nat) (marks : List Nat) (last : Nat)
    (before after : List Nat) :
    composeFrom starter marks last (before ++ x :: after)
      = composeFrom starter marks last before ++ x :: recompose after := by
  induction before generalizing starter marks last with
  | nil =>
    have hclass : (classOf x == 0) = true := by rw [classOf_inert hx]; rfl
    unfold composeFrom
    simp only [List.nil_append, join?_inert_right hx, ite_self, hclass, if_true,
      composeFrom_inert hx, List.cons_append]
  | cons n rest ih =>
    rw [List.cons_append, composeFrom, composeFrom]
    split
    · exact ih ..
    · split
      · rw [ih, List.cons_append, List.append_assoc]
      · exact ih ..

/-- Nothing composes across an inert character. -/
theorem recompose_inert (before after : List Nat) :
    recompose (before ++ x :: after)
      = recompose before ++ x :: recompose after := by
  induction before with
  | nil =>
    have hclass : (classOf x == 0) = true := by rw [classOf_inert hx]; rfl
    simp only [List.nil_append, recompose, hclass, if_true, composeFrom_inert hx]
  | cons n rest ih =>
    rw [List.cons_append, recompose, recompose]
    split
    · exact composeFrom_append hx ..
    · rw [ih, List.cons_append]

theorem count_composeFrom (starter : Nat) (marks : List Nat) (last : Nat) (ns : List Nat) :
    (composeFrom starter marks last ns).count x
      = (starter :: (marks ++ ns)).count x := by
  induction ns generalizing starter marks last with
  | nil => rw [composeFrom, List.append_nil]
  | cons n rest ih =>
    rw [composeFrom]
    split
    · next s hjoin =>
      -- two characters become one, and none of the three is inert
      have hjoin : join? starter n = some s := by
        split at hjoin
        · exact hjoin
        · simp at hjoin
      obtain ⟨hstarter, hn, hs⟩ := join?_no_inert hx hjoin
      rw [ih]
      simp [List.count_append, hstarter, hn, hs]
    · split
      · rw [List.count_cons, List.count_append, ih, List.nil_append,
          List.count_cons (l := marks ++ _), List.count_append]
      · rw [ih, List.append_assoc]
        rfl

/-- Composing makes nothing inert and loses nothing inert. -/
theorem count_recompose (ns : List Nat) :
    (recompose ns).count x = ns.count x := by
  induction ns with
  | nil => rfl
  | cons n rest ih =>
    rw [recompose]
    split
    · exact count_composeFrom hx ..
    · rw [List.count_cons, ih, List.count_cons]

omit hx

/-! ## What is kept -/

/-- A property that a character shares with its parts, so that the passes keep it. -/
structure Kept (P : Nat → Prop) : Prop where
  split : ∀ {n : Nat} {parts : List Nat}, split? n = some parts → P n → ∀ m ∈ parts, P m
  join : ∀ {a b c : Nat}, join? a b = some c → P a → P b → P c

namespace Kept

variable {P : Nat → Prop} (hP : Kept P)

include hP

theorem decompose {n : Nat} (hn : P n) (depth : Nat) : ∀ m ∈ decompose depth n, P m := by
  induction depth generalizing n with
  | zero => simpa [Canonical.decompose] using hn
  | succ depth ih =>
    unfold Canonical.decompose
    split
    · next a rest hsplit =>
      have hparts := hP.split hsplit hn
      rw [List.forall_mem_cons] at hparts
      rw [List.forall_mem_append]
      exact ⟨ih hparts.1, hparts.2⟩
    · simpa using hn

theorem composeFrom {starter : Nat} {marks ns : List Nat} (last : Nat) (hs : P starter)
    (hm : ∀ m ∈ marks, P m) (hn : ∀ n ∈ ns, P n) : ∀ m ∈ composeFrom starter marks last ns, P m := by
  induction ns generalizing starter marks last with
  | nil => simpa [Canonical.composeFrom] using ⟨hs, hm⟩
  | cons n rest ih =>
    rw [List.forall_mem_cons] at hn
    rw [Canonical.composeFrom]
    split
    · next s hjoin =>
      split at hjoin
      · exact ih last (hP.join hjoin hs hn.1) hm hn.2
      · simp at hjoin
    · split
      · rw [List.forall_mem_cons, List.forall_mem_append]
        exact ⟨hs, hm, ih 0 hn.1 (by simp) hn.2⟩
      · exact ih _ hs (by simpa [or_imp, forall_and] using ⟨hm, hn.1⟩) hn.2

theorem recompose {ns : List Nat} (hn : ∀ n ∈ ns, P n) : ∀ m ∈ recompose ns, P m := by
  induction ns with
  | nil => simp [Canonical.recompose]
  | cons n rest ih =>
    rw [List.forall_mem_cons] at hn
    rw [Canonical.recompose]
    split
    · exact hP.composeFrom 0 hn.1 (by simp) hn.2
    · rw [List.forall_mem_cons]
      exact ⟨hn.1, ih hn.2⟩

end Kept

/-- Whether the tables keep a property: what decomposes into two has it exactly if both parts have
it, and what stands for another character hands it on. -/
def tablesKeep (p : Nat → Bool) : Bool :=
  pairs.all (fun (c, a, b) => p c == (p a && p b)) && singles.all (fun (c, a) => !p c || p a)
    && ideographs.all fun (_, targets) => targets.all p

section TablesKeep

variable {p : Nat → Bool} (h : tablesKeep p = true)
  (hjamo : ∀ n, 0x1100 ≤ n → n ≤ 0x11c2 → p n = true)
  (hsyllable : ∀ n, 0xac00 ≤ n → n ≤ 0xd7a3 → p n = true)

include h

theorem keep_of_mem_pairs {c a b : Nat} (hmem : (c, a, b) ∈ pairs) :
    p c = true ↔ p a = true ∧ p b = true := by
  simp only [tablesKeep, Bool.and_eq_true] at h
  have hpair := List.all_eq_true.mp h.1.1 _ hmem
  rw [beq_iff_eq.mp hpair, Bool.and_eq_true]

theorem keep_of_single? {n a : Nat} (hsingle : single? n = some a) (hn : p n = true) :
    p a = true := by
  simp only [tablesKeep, Bool.and_eq_true] at h
  unfold single? at hsingle
  split at hsingle
  · next c found hfind =>
    obtain rfl := Option.some.inj hsingle
    have hc : c = n := by simpa using List.find?_some hfind
    have hkeep := List.all_eq_true.mp h.1.2 _ (List.mem_of_find?_eq_some hfind)
    simpa [hc, hn] using hkeep
  · obtain ⟨⟨first, targets⟩, hmem, htarget⟩ := List.exists_of_findSome?_eq_some hsingle
    dsimp only at htarget
    split at htarget
    · exact List.all_eq_true.mp (List.all_eq_true.mp h.2 _ hmem) a (List.mem_of_getElem? htarget)
    · simp at htarget

include hjamo

theorem keep_of_split? {n : Nat} {parts : List Nat} (hsplit : split? n = some parts)
    (hn : p n = true) : ∀ m ∈ parts, p m = true := by
  unfold split? at hsplit
  split at hsplit
  · simp at hsplit
  · split at hsplit
    · next found hfound =>
      obtain rfl := Option.some.inj hsplit
      unfold syllable? at hfound
      split at hfound
      · next hrange =>
        obtain rfl := Option.some.inj hfound
        simp only [Bool.and_eq_true, decide_eq_true_eq] at hrange
        intro m hm
        refine hjamo m ?_ ?_ <;> split at hm <;>
          simp only [List.mem_append, List.mem_cons, List.not_mem_nil, or_false] at hm <;> omega
      · simp at hfound
    · split at hsplit
      · next c a b hfind =>
        obtain rfl := Option.some.inj hsplit
        have hc : c = n := by simpa using List.find?_some hfind
        have hparts := (keep_of_mem_pairs h (List.mem_of_find?_eq_some hfind)).mp (hc ▸ hn)
        simpa using hparts
      · obtain ⟨a, ha, rfl⟩ := Option.map_eq_some_iff.mp hsplit
        simpa using keep_of_single? h ha hn

omit hjamo
include hsyllable

theorem keep_of_join? {a b c : Nat} (hjoin : join? a b = some c) (ha : p a = true)
    (hb : p b = true) : p c = true := by
  unfold join? at hjoin
  split at hjoin
  · next s hs =>
    obtain rfl := Option.some.inj hjoin
    unfold joinSyllable? at hs
    split at hs
    · next hrange =>
      obtain rfl := Option.some.inj hs
      simp only [Bool.and_eq_true, decide_eq_true_eq] at hrange
      exact hsyllable _ (by omega) (by omega)
    · split at hs
      · next hrange =>
        obtain rfl := Option.some.inj hs
        simp only [Bool.and_eq_true, decide_eq_true_eq, beq_iff_eq] at hrange
        exact hsyllable _ (by omega) (by omega)
      · simp at hs
  · obtain ⟨⟨found, x, y⟩, hfind, rfl⟩ := Option.map_eq_some_iff.mp hjoin
    have hparts := List.find?_some hfind
    simp only [Bool.and_eq_true, beq_iff_eq] at hparts
    obtain ⟨⟨rfl, rfl⟩, -⟩ := hparts
    exact (keep_of_mem_pairs h (List.mem_of_find?_eq_some hfind)).mpr ⟨ha, hb⟩

include hjamo

/-- **What the tables keep, the passes keep,** if the parts of syllables and the syllables have
it. -/
theorem kept_of_tablesKeep : Kept (p · = true) :=
  ⟨keep_of_split? h hjamo, keep_of_join? h hsyllable⟩

end TablesKeep

/-- The passes yield code points of characters. -/
theorem kept_valid : Kept Nat.isValidChar := by
  have htables : tablesKeep (fun n => decide n.isValidChar) = true := by decide +kernel
  have hkept := kept_of_tablesKeep htables (fun n _ hhigh => decide_eq_true (Or.inl (by omega)))
    fun n _ hhigh => decide_eq_true (Or.inl (by omega))
  simpa using hkept

end Canonical

open Canonical

/-! ## Whole texts -/

/-- The three passes on a text, whichever characters it has. -/
def recast (t : Text) : Text :=
  (recompose (reorder (t.flatMap fun c => decompose maxNesting c.toNat))).map Char.ofNat

/-- **What stands before an inert character and what stands after it are recast apart.** -/
theorem recast_inert {c : Char} (hc : isInert c = true) (before after : Text) :
    recast (before ++ c :: after) = recast before ++ c :: recast after := by
  have hx := toNat_mem_inert hc
  unfold recast
  rw [List.flatMap_append, List.flatMap_cons, decompose_inert hx, List.singleton_append,
    reorder_inert hx, recompose_inert hx, List.map_append, List.map_cons, Char.ofNat_toNat]

theorem toNat_ofNat {n : Nat} (h : n.isValidChar) : (Char.ofNat n).toNat = n := by
  rw [Char.ofNat, dif_pos h]
  rfl

/-- What a text has character by character, it has once recast. -/
theorem forall_mem_passes {P : Nat → Prop} (hP : Kept P) {t : Text} (h : ∀ c ∈ t, P c.toNat) :
    ∀ n ∈ recompose (reorder (t.flatMap fun c => decompose maxNesting c.toNat)), P n := by
  refine hP.recompose fun n hn => ?_
  obtain ⟨c, hmem, hc⟩ := List.mem_flatMap.mp ((reorder_perm _).mem_iff.mp hn)
  exact hP.decompose (h c hmem) _ n hc

theorem recast_valid (t : Text) :
    ∀ n ∈ recompose (reorder (t.flatMap fun c => decompose maxNesting c.toNat)), n.isValidChar :=
  forall_mem_passes kept_valid fun c _ => c.valid

theorem forall_mem_compose {P : Nat → Prop} (hP : Kept P) {t : Text} (h : ∀ c ∈ t, P c.toNat) :
    ∀ c ∈ t.compose, P c.toNat := by
  unfold compose
  split
  · exact h
  · intro c hc
    obtain ⟨n, hn, rfl⟩ := List.mem_map.mp hc
    rw [toNat_ofNat (recast_valid t n hn)]
    exact forall_mem_passes hP h n hn

theorem count_map_ofNat {ns : List Nat} (h : ∀ n ∈ ns, n.isValidChar) (c : Char) :
    (ns.map Char.ofNat).count c = ns.count c.toNat := by
  induction ns with
  | nil => rfl
  | cons n rest ih =>
    rw [List.forall_mem_cons] at h
    rw [List.map_cons, List.count_cons, List.count_cons, ih h.2]
    simp only [beq_iff_eq, ← Char.toNat_inj, toNat_ofNat h.1]

theorem count_flatMap_decompose {c : Char} (hc : isInert c = true) (t : Text) :
    (t.flatMap fun c => decompose maxNesting c.toNat).count c.toNat = t.count c := by
  induction t with
  | nil => rfl
  | cons d rest ih =>
    rw [List.flatMap_cons, List.count_append, ih, count_decompose (toNat_mem_inert hc),
      List.count_singleton, List.count_cons, Nat.add_comm]
    simp only [beq_iff_eq, Char.toNat_inj]

theorem count_recast {c : Char} (hc : isInert c = true) (t : Text) :
    (recast t).count c = t.count c := by
  rw [recast, count_map_ofNat (recast_valid t), count_recompose (toNat_mem_inert hc),
    (reorder_perm _).count_eq,
    count_flatMap_decompose hc]

/-- Whether the three passes leave a text as it is. -/
def IsStable (t : Text) : Prop :=
  recast t = t

instance (t : Text) : Decidable (IsStable t) :=
  inferInstanceAs (Decidable (recast t = t))

theorem isStable_nil : IsStable [] := rfl

/-- Two cuts of a text at a character are the same if it occurs as often before them. -/
theorem cut_eq_of_count {c : Char} {before before' after after' : Text}
    (h : before ++ c :: after = before' ++ c :: after')
    (hcount : before.count c = before'.count c) : before = before' ∧ after = after' := by
  induction before generalizing before' with
  | nil =>
    cases before' with
    | nil => exact ⟨rfl, (List.cons.inj h).2⟩
    | cons d rest =>
      rw [← (List.cons.inj h).1] at hcount
      simp at hcount
  | cons d rest ih =>
    cases before' with
    | nil =>
      rw [(List.cons.inj h).1] at hcount
      simp at hcount
    | cons d' rest' =>
      obtain ⟨rfl, hrest⟩ := List.cons.inj h
      rw [List.count_cons, List.count_cons, Nat.add_right_cancel_iff] at hcount
      obtain ⟨rfl, hafter⟩ := ih hrest hcount
      exact ⟨rfl, hafter⟩

/-- **A text is stable exactly if both sides of an inert character in it are.** -/
theorem isStable_inert {c : Char} (hc : isInert c = true) {before after : Text} :
    IsStable (before ++ c :: after) ↔ IsStable before ∧ IsStable after := by
  unfold IsStable
  rw [recast_inert hc]
  constructor
  · intro h
    exact cut_eq_of_count h (count_recast hc before)
  · rintro ⟨hbefore, hafter⟩
    rw [hbefore, hafter]

theorem isStable_unwords (pieces : List Text) :
    IsStable (unwords pieces) ↔ ∀ piece ∈ pieces, IsStable piece := by
  induction pieces with
  | nil => simp [unwords, isStable_nil]
  | cons piece rest ih =>
    cases rest with
    | nil => simp [unwords]
    | cons next rest =>
      rw [unwords_cons_cons, isStable_inert (by decide), ih,
        List.forall_mem_cons (l := next :: rest)]

theorem forall_mem_unwords {P : Char → Prop} (hspace : P ' ') (pieces : List Text) :
    (∀ c ∈ unwords pieces, P c) ↔ ∀ piece ∈ pieces, ∀ c ∈ piece, P c := by
  induction pieces with
  | nil => simp [unwords]
  | cons piece rest ih =>
    cases rest with
    | nil => simp [unwords]
    | cons next rest =>
      rw [unwords_cons_cons, List.forall_mem_append, List.forall_mem_cons, ih,
        List.forall_mem_cons (l := next :: rest)]
      simp only [hspace, true_and]

/-- Whether a text is returned as it stands, having nothing to compose. -/
def IsPlain (t : Text) : Prop :=
  ∀ c ∈ t, c.toNat < 0x300

theorem compose_eq_self_iff {t : Text} : t.compose = t ↔ IsPlain t ∨ IsStable t := by
  unfold compose
  split
  · next hplain =>
    refine iff_of_true rfl (Or.inl fun c hc => ?_)
    simpa using List.all_eq_true.mp hplain c hc
  · next hplain =>
    refine ⟨Or.inr, fun h => h.resolve_left fun h => hplain ?_⟩
    exact List.all_eq_true.mpr fun c hc => by simpa using h c hc

end Text

open Text

/-! ## Clean forests -/

/-- Whether a forest is written as a search that cleaning leaves as it is. -/
structure Forest.IsClean (forest : Forest) : Prop where
  composed : (Forest.render forest).compose = Forest.render forest
  noNul : '\x00' ∉ Forest.render forest

mutual

theorem Node.forall_pieces {P : Text → Prop}
    (hopening : ∀ modifier, P (Modifier.text modifier ++ ['('])) (hclosing : P [')']) :
    ∀ node : Node, (∀ piece ∈ node.pieces, P piece) ↔ ∀ l ∈ Forest.leaves [node], P l.text
  | .leaf l => by simp [Node.pieces, Forest.leaves, Forest.placed, Node.placed]
  | .group modifier children => by
    rw [Node.pieces, List.forall_mem_cons, List.forall_mem_append,
      Forest.forall_pieces hopening hclosing children, Forest.leaves_group]
    simp [hopening, hclosing]

/-- What holds of parentheses holds of all pieces of a forest if it holds of its leaves. -/
theorem Forest.forall_pieces {P : Text → Prop}
    (hopening : ∀ modifier, P (Modifier.text modifier ++ ['('])) (hclosing : P [')']) :
    ∀ forest : Forest,
      (∀ piece ∈ Forest.pieces forest, P piece) ↔ ∀ l ∈ Forest.leaves forest, P l.text
  | [] => by simp [Forest.pieces, Forest.leaves, Forest.placed]
  | node :: rest => by
    rw [Forest.pieces, List.forall_mem_append, Node.forall_pieces hopening hclosing node,
      Forest.forall_pieces hopening hclosing rest, Forest.leaves_cons node rest,
      List.forall_mem_append]

end

theorem isStable_render_iff {forest : Forest} :
    IsStable (Forest.render forest) ↔ ∀ l ∈ Forest.leaves forest, IsStable l.text := by
  rw [← unwords_pieces, isStable_unwords]
  refine Forest.forall_pieces ?_ ?_ forest
  · rintro (_ | _ | _) <;> decide +kernel
  · decide +kernel

theorem forall_mem_render_iff {P : Char → Prop} (hspace : P ' ') (hopen : P '(') (hclose : P ')')
    (hsign : ∀ m : Modifier, P m.toChar) {forest : Forest} :
    (∀ c ∈ Forest.render forest, P c) ↔ ∀ l ∈ Forest.leaves forest, ∀ c ∈ l.text, P c := by
  rw [← unwords_pieces, forall_mem_unwords hspace]
  refine Forest.forall_pieces (P := fun piece => ∀ c ∈ piece, P c) ?_ ?_ forest
  · rintro (_ | m)
    · simpa [Modifier.text] using hopen
    · simpa [Modifier.text] using ⟨hsign m, hopen⟩
  · simpa using hclose

theorem isPlain_render_iff {forest : Forest} :
    IsPlain (Forest.render forest) ↔ ∀ l ∈ Forest.leaves forest, IsPlain l.text := by
  refine forall_mem_render_iff (by decide) (by decide) (by decide) ?_
  intro m
  cases m <;> decide

theorem noNul_render_iff {forest : Forest} :
    '\x00' ∉ Forest.render forest ↔ ∀ l ∈ Forest.leaves forest, '\x00' ∉ l.text := by
  have h : ∀ t : Text, '\x00' ∉ t ↔ ∀ c ∈ t, c ≠ '\x00' := by
    intro t
    exact ⟨fun h c hc he => h (he ▸ hc), fun h hc => h _ hc rfl⟩
  simp only [h]
  refine forall_mem_render_iff (by decide) (by decide) (by decide) ?_
  intro m
  cases m <;> decide

/-- **A forest with the leaves of a clean one is clean.** -/
theorem Forest.IsClean.of_leaves {forest other : Forest} (h : Forest.IsClean forest)
    (hleaves : ∀ l ∈ Forest.leaves other, l ∈ Forest.leaves forest) : Forest.IsClean other where
  composed := by
    rw [compose_eq_self_iff, isPlain_render_iff, isStable_render_iff]
    have hcomposed := h.composed
    rw [compose_eq_self_iff, isPlain_render_iff, isStable_render_iff] at hcomposed
    exact hcomposed.imp (fun hall l hl => hall l (hleaves l hl))
      fun hall l hl => hall l (hleaves l hl)
  noNul := by
    rw [noNul_render_iff]
    exact fun l hl => noNul_render_iff.mp h.noNul l (hleaves l hl)

theorem Forest.IsClean.children {modifier : Option Modifier} {children : Forest}
    (h : Forest.IsClean [.group modifier children]) : Forest.IsClean children := by
  refine h.of_leaves ?_
  intro l hl
  rwa [Forest.leaves_group]

end TagSearch
