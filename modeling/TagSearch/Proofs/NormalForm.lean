import Mathlib.Data.List.Chain
import Mathlib.Data.List.Nodup
import TagSearch.Proofs.Composition

/-!
# Composed text stays composed

`compose_compose` says that to compose a text twice is to compose it once. Composing undoes what
decomposing does to a character, and puts no mark where the canonical order would not have it; so a
composed text has the decomposition, in canonical order, that it was composed from
(`reorder_decompose_recompose`).

What this takes from the tables is that they are sorted, that no mark decomposes, and that bases
decompose in two steps. These facts are computed, with sets of code points as bits of a number.

Plain text is composed as it stands; `isStable_of_isPlain` says that the passes, which it is spared,
would not change it either.
-/

namespace TagSearch.Text

namespace Canonical

/-! ## Sets of code points -/

/-- A set of numbers, as the bits of one. -/
def mask : List Nat → Nat
  | [] => 0
  | n :: rest => 1 <<< n ||| mask rest

theorem testBit_mask {ns : List Nat} {n : Nat} : (mask ns).testBit n = true ↔ n ∈ ns := by
  induction ns with
  | nil => simp [mask]
  | cons m rest ih =>
    rw [mask, Nat.testBit_or, Nat.one_shiftLeft, Nat.testBit_two_pow, Bool.or_eq_true, ih]
    simp [eq_comm]

/-- Whether numbers differ from each other and from those seen before. -/
def areDistinct (seen : Nat) : List Nat → Bool
  | [] => true
  | n :: rest => !seen.testBit n && areDistinct (seen ||| 1 <<< n) rest

theorem not_seen_of_areDistinct {seen : Nat} {ns : List Nat} (h : areDistinct seen ns = true) :
    (∀ n ∈ ns, seen.testBit n = false) ∧ ns.Nodup := by
  induction ns generalizing seen with
  | nil => simp
  | cons n rest ih =>
    simp only [areDistinct, Bool.and_eq_true, Bool.not_eq_true'] at h
    obtain ⟨hseen, hnodup⟩ := ih h.2
    simp only [Nat.testBit_or, Bool.or_eq_false_iff] at hseen
    refine ⟨List.forall_mem_cons.mpr ⟨h.1, fun m hm => (hseen m hm).1⟩, ?_⟩
    refine List.nodup_cons.mpr ⟨fun hn => ?_, hnodup⟩
    have hbit := (hseen n hn).2
    simp [Nat.one_shiftLeft] at hbit

theorem nodup_of_areDistinct {ns : List Nat} (h : areDistinct 0 ns = true) : ns.Nodup :=
  (not_seen_of_areDistinct h).2

/-- The code points that the tables decompose. -/
def tabled : List Nat :=
  pairs.map (·.1) ++ singles.map (·.1)
    ++ ideographs.flatMap fun (first, targets) => List.range' first targets.length

/-- Whether a code point is found whole at one look. -/
def isWhole (n : Nat) : Bool :=
  !(mask tabled).testBit n && !(0xac00 ≤ n && n ≤ 0xd7a3)

/-- What no table lists stands for no other character. -/
theorem single?_eq_none {n : Nat} (hsingles : n ∉ singles.map (·.1))
    (hideographs : ∀ entry ∈ ideographs, n < entry.1 ∨ entry.1 + entry.2.length ≤ n) :
    single? n = none := by
  unfold single?
  split
  · next c _ hfind =>
    obtain rfl : c = n := by simpa using List.find?_some hfind
    exact absurd (List.mem_map_of_mem (List.mem_of_find?_eq_some hfind)) hsingles
  · refine List.findSome?_eq_none_iff.mpr fun entry hentry => ?_
    dsimp only
    rcases hideographs entry hentry with hbefore | hafter
    · exact if_neg (by omega)
    · rw [if_pos (by omega), List.getElem?_eq_none_iff]
      omega

theorem split?_eq_none {n : Nat} (hsyllable : syllable? n = none) (hpairs : n ∉ pairs.map (·.1))
    (hsingle : single? n = none) : split? n = none := by
  unfold split?
  simp only [hsyllable, hsingle]
  split
  · rfl
  · split
    · next c _ _ hfind =>
      obtain rfl : c = n := by simpa using List.find?_some hfind
      exact absurd (List.mem_map_of_mem (List.mem_of_find?_eq_some hfind)) hpairs
    · rfl

theorem split?_of_isWhole {n : Nat} (h : isWhole n = true) : split? n = none := by
  simp only [isWhole, Bool.and_eq_true, Bool.not_eq_true'] at h
  obtain ⟨htabled, hsyllable⟩ := h
  have hmem : n ∉ tabled := fun hmem => by simp [testBit_mask.mpr hmem] at htabled
  simp only [tabled, List.mem_append, not_or] at hmem
  obtain ⟨⟨hpairs, hsingles⟩, hideographs⟩ := hmem
  refine split?_eq_none ?_ hpairs (single?_eq_none hsingles fun entry hentry => ?_)
  · rw [syllable?, if_neg (by simp [hsyllable])]
  · by_contra hinside
    refine hideographs (List.mem_flatMap.mpr ⟨entry, hentry, List.mem_range'_1.mpr ?_⟩)
    omega

/-! ## The tables -/

theorem pairs_sorted : (pairs.map (·.1)).Pairwise (· < ·) := by
  rw [← List.isChain_iff_pairwise]
  decide +kernel

/-- What decomposes into two is neither plain nor a syllable, and its second part is whole; so are
ideographs and the parts of syllables. -/
theorem tables_whole :
    pairs.all (fun (c, _, b) => 0xc0 ≤ c && !(0xac00 ≤ c && c ≤ 0xd7a3) && isWhole b) = true
      ∧ ideographs.all (fun (_, targets) => targets.all isWhole) = true
      ∧ (List.range' 0x1100 0x100).all isWhole = true := by
  decide +kernel

/-- The code points that decompose in one step. -/
def once : List Nat :=
  (pairs.filter fun (_, a, _) => isWhole a).map (·.1)

/-- The code points that decompose in two steps. -/
def twice : List Nat :=
  (pairs.filter fun (_, a, _) => (mask once).testBit a).map (·.1)

theorem tables_shallow : (pairs.map (·.2.1) ++ singles.map (·.2)).all (fun a =>
    isWhole a || (mask once).testBit a || (mask twice).testBit a) = true := by
  decide +kernel

/-! ## Decomposition -/

theorem decompose_of_whole {n : Nat} (h : split? n = none) (depth : Nat) :
    decompose depth n = [n] := by
  cases depth with
  | zero => rfl
  | succ depth => rw [decompose, h]

theorem decompose_of_split {n a : Nat} {rest : List Nat} (h : split? n = some (a :: rest))
    (depth : Nat) : decompose (depth + 1) n = decompose depth a ++ rest := by
  rw [decompose, h]

theorem flatMap_decompose_of_whole {ns : List Nat} (h : ∀ n ∈ ns, split? n = none) :
    ns.flatMap (decompose maxNesting) = ns := by
  induction ns with
  | nil => rfl
  | cons n rest ih =>
    rw [List.forall_mem_cons] at h
    rw [List.flatMap_cons, decompose_of_whole h.1, ih h.2]
    rfl

/-- Whether a code point is decomposed in so many steps. -/
def Shallow (depth n : Nat) : Prop :=
  ∀ m ∈ decompose depth n, split? m = none

theorem shallow_of_whole {n : Nat} (h : split? n = none) (depth : Nat) : Shallow depth n := by
  rw [Shallow, decompose_of_whole h]
  simpa using h

theorem Shallow.decompose_succ {depth n : Nat} (h : Shallow depth n) :
    decompose (depth + 1) n = decompose depth n := by
  induction depth generalizing n with
  | zero =>
    have hn : split? n = none := by simpa [Shallow, decompose] using h
    rw [decompose_of_whole hn, decompose_of_whole hn]
  | succ depth ih =>
    cases hsplit : split? n with
    | none => rw [decompose_of_whole hsplit, decompose_of_whole hsplit]
    | some parts =>
      cases parts with
      | nil => rw [decompose, hsplit, decompose, hsplit]
      | cons a rest =>
        rw [Shallow, decompose_of_split hsplit, List.forall_mem_append] at h
        rw [decompose_of_split hsplit, decompose_of_split hsplit, ih h.1]

theorem Shallow.succ {depth n : Nat} (h : Shallow depth n) : Shallow (depth + 1) n := by
  rw [Shallow, h.decompose_succ]
  exact h

theorem find?_pairs {c a b : Nat} (h : (c, a, b) ∈ pairs) :
    pairs.find? (fun (d, _, _) => d == c) = some (c, a, b) := by
  have hsorted := pairs_sorted
  generalize pairs = entries at h hsorted
  induction entries with
  | nil => simp at h
  | cons entry rest ih =>
    rw [List.map_cons, List.pairwise_cons] at hsorted
    rcases List.mem_cons.mp h with rfl | hrest
    · simp
    · have hlt := hsorted.1 c (List.mem_map.mpr ⟨_, hrest, rfl⟩)
      rw [List.find?_cons_of_neg (by simpa using Nat.ne_of_lt hlt)]
      exact ih hrest hsorted.2

theorem split?_pair {c a b : Nat} (h : (c, a, b) ∈ pairs) : split? c = some [a, b] := by
  have hpair := List.all_eq_true.mp tables_whole.1 _ h
  simp only [Bool.and_eq_true, decide_eq_true_eq, Bool.not_eq_true'] at hpair
  obtain ⟨⟨hlow, hsyllable⟩, -⟩ := hpair
  unfold split? syllable?
  rw [if_neg (by omega), hsyllable, find?_pairs h]
  rfl

theorem whole_of_mem_pairs {c a b : Nat} (h : (c, a, b) ∈ pairs) : split? b = none := by
  have hpair := List.all_eq_true.mp tables_whole.1 _ h
  simp only [Bool.and_eq_true] at hpair
  exact split?_of_isWhole hpair.2

theorem Shallow.pair {depth c a b : Nat} (h : (c, a, b) ∈ pairs) (ha : Shallow depth a) :
    Shallow (depth + 1) c := by
  rw [Shallow, decompose_of_split (split?_pair h), List.forall_mem_append]
  exact ⟨ha, by simpa using whole_of_mem_pairs h⟩

theorem shallow_of_mem_once {n : Nat} (h : n ∈ once) : Shallow 1 n := by
  obtain ⟨⟨c, a, b⟩, hentry, rfl⟩ := List.mem_map.mp h
  obtain ⟨hmem, ha⟩ := List.mem_filter.mp hentry
  exact Shallow.pair hmem (shallow_of_whole (split?_of_isWhole ha) 0)

theorem shallow_of_mem_twice {n : Nat} (h : n ∈ twice) : Shallow 2 n := by
  obtain ⟨⟨c, a, b⟩, hentry, rfl⟩ := List.mem_map.mp h
  obtain ⟨hmem, ha⟩ := List.mem_filter.mp hentry
  exact Shallow.pair hmem (shallow_of_mem_once (testBit_mask.mp ha))

theorem shallow_of_masks {n : Nat}
    (h : (isWhole n || (mask once).testBit n || (mask twice).testBit n) = true) : Shallow 2 n := by
  rw [Bool.or_eq_true, Bool.or_eq_true] at h
  rcases h with (h | h) | h
  · exact shallow_of_whole (split?_of_isWhole h) 2
  · exact (shallow_of_mem_once (testBit_mask.mp h)).succ
  · exact shallow_of_mem_twice (testBit_mask.mp h)

theorem shallow_of_mem_pairs {c a b : Nat} (h : (c, a, b) ∈ pairs) : Shallow 2 a :=
  shallow_of_masks (List.all_eq_true.mp tables_shallow a
    (List.mem_append_left _ (List.mem_map.mpr ⟨_, h, rfl⟩)))

theorem whole_of_jamo {n : Nat} (hlow : 0x1100 ≤ n) (hhigh : n < 0x1200) : split? n = none :=
  split?_of_isWhole (List.all_eq_true.mp tables_whole.2.2 n (List.mem_range'_1.mpr (by omega)))

theorem whole_of_syllable {n : Nat} {parts : List Nat} (h : syllable? n = some parts) :
    ∀ m ∈ parts, split? m = none := by
  have hparts : ∀ m ∈ parts, 0x1100 ≤ m ∧ m < 0x1200 := by
    unfold syllable? at h
    split at h
    · next hn =>
      simp only [Bool.and_eq_true, decide_eq_true_eq] at hn
      obtain rfl := Option.some.inj h
      split <;> simp only [List.mem_append, List.mem_cons, List.not_mem_nil, or_false] <;> omega
    · simp at h
  exact fun m hm => whole_of_jamo (hparts m hm).1 (hparts m hm).2

theorem split?_of_syllable {n : Nat} {parts : List Nat} (h : syllable? n = some parts) :
    split? n = some parts := by
  have hlow : ¬ n < 0xc0 := by
    unfold syllable? at h
    split at h
    · next hn =>
      simp only [Bool.and_eq_true, decide_eq_true_eq] at hn
      omega
    · simp at h
  rw [split?, if_neg hlow, h]

theorem shallow_of_single {n a : Nat} (h : single? n = some a) : Shallow 2 a := by
  unfold single? at h
  split at h
  · next found hfind =>
    cases h
    exact shallow_of_masks (List.all_eq_true.mp tables_shallow _
      (List.mem_append_right _ (List.mem_map_of_mem (List.mem_of_find?_eq_some hfind))))
  · obtain ⟨⟨first, targets⟩, hmem, h⟩ := List.exists_of_findSome?_eq_some h
    dsimp only at h
    split at h
    · have htargets := List.all_eq_true.mp tables_whole.2.1 _ hmem
      exact shallow_of_whole
        (split?_of_isWhole (List.all_eq_true.mp htargets a (List.mem_of_getElem? h))) 2
    · simp at h

/-- What decomposes has a first part that does in two steps, and other parts that are whole. -/
theorem exists_of_split? {n : Nat} {parts : List Nat} (h : split? n = some parts) :
    ∃ a rest, parts = a :: rest ∧ Shallow 2 a ∧ ∀ m ∈ rest, split? m = none := by
  unfold split? at h
  split at h
  · simp at h
  · split at h
    · next found hsyllable =>
      cases h
      have hwhole := whole_of_syllable hsyllable
      obtain ⟨a, rest, rfl⟩ : ∃ a rest, parts = a :: rest := by
        unfold syllable? at hsyllable
        split at hsyllable
        · obtain rfl := Option.some.inj hsyllable
          split <;> exact ⟨_, _, rfl⟩
        · simp at hsyllable
      rw [List.forall_mem_cons] at hwhole
      exact ⟨a, rest, rfl, shallow_of_whole hwhole.1 2, hwhole.2⟩
    · split at h
      · next a b hfind =>
        cases h
        have hmem := List.mem_of_find?_eq_some hfind
        exact ⟨a, [b], rfl, shallow_of_mem_pairs hmem, by simpa using whole_of_mem_pairs hmem⟩
      · obtain ⟨a, ha, rfl⟩ := Option.map_eq_some_iff.mp h
        exact ⟨a, [], rfl, shallow_of_single ha, by simp⟩

/-- **Decomposition is complete.** -/
theorem shallow_maxNesting (n : Nat) : Shallow maxNesting n := by
  cases hsplit : split? n with
  | none => exact shallow_of_whole hsplit _
  | some parts =>
    obtain ⟨a, rest, rfl, ha, hrest⟩ := exists_of_split? hsplit
    rw [Shallow, maxNesting, decompose_of_split hsplit, List.forall_mem_append]
    exact ⟨ha.succ, hrest⟩

/-- The parts of the syllable at a place of the table. -/
theorem syllable?_eq {l v t : Nat} (hl : l < 19) (hv : v < 21) (ht : t < 28) :
    syllable? (0xac00 + (l * 21 + v) * 28 + t)
      = some ([0x1100 + l, 0x1161 + v] ++ if t = 0 then [] else [0x11a7 + t]) := by
  have hs : 0xac00 + (l * 21 + v) * 28 + t - 0xac00 = (l * 21 + v) * 28 + t := by omega
  have hlead : ((l * 21 + v) * 28 + t) / 588 = l := by omega
  have hvowel : ((l * 21 + v) * 28 + t) % 588 / 28 = v := by omega
  have htrail : ((l * 21 + v) * 28 + t) % 28 = t := by omega
  unfold syllable?
  rw [if_pos (by simp only [Bool.and_eq_true, decide_eq_true_eq]; omega)]
  simp only [hs, hlead, hvowel, htrail, beq_iff_eq]
  split <;> simp

theorem decompose_syllable {l v t : Nat} (hl : l < 19) (hv : v < 21) (ht : t < 28) :
    decompose maxNesting (0xac00 + (l * 21 + v) * 28 + t)
      = [0x1100 + l, 0x1161 + v] ++ if t = 0 then [] else [0x11a7 + t] := by
  have hsyllable := syllable?_eq hl hv ht
  have hsplit := split?_of_syllable hsyllable
  rw [maxNesting, decompose_of_split hsplit,
    decompose_of_whole (whole_of_jamo (by omega) (by omega))]
  rfl

theorem decompose_joinSyllable {a b c : Nat} (h : joinSyllable? a b = some c) :
    decompose maxNesting c = decompose maxNesting a ++ [b] := by
  unfold joinSyllable? at h
  split at h
  · next hparts =>
    -- a leading consonant and a vowel
    simp only [Bool.and_eq_true, decide_eq_true_eq] at hparts
    obtain ⟨l, rfl⟩ := Nat.exists_eq_add_of_le hparts.1.1.1
    obtain ⟨v, rfl⟩ := Nat.exists_eq_add_of_le hparts.1.2
    rw [Nat.add_sub_cancel_left, Nat.add_sub_cancel_left] at h
    obtain rfl := Option.some.inj h
    have hc := decompose_syllable (l := l) (v := v) (t := 0) (by omega) (by omega) (by omega)
    rw [Nat.add_zero] at hc
    rw [hc, decompose_of_whole (whole_of_jamo (by omega) (by omega))]
    rfl
  · split at h
    · next hparts =>
      -- a syllable without a trailing consonant, and one
      simp only [Bool.and_eq_true, decide_eq_true_eq, beq_iff_eq] at hparts
      obtain ⟨t, rfl⟩ := Nat.exists_eq_add_of_le (show 0x11a7 ≤ b by omega)
      rw [Nat.add_sub_cancel_left] at h
      obtain rfl := Option.some.inj h
      obtain ⟨l, v, hl, hv, rfl⟩ : ∃ l v, l < 19 ∧ v < 21 ∧ a = 0xac00 + (l * 21 + v) * 28 :=
        ⟨(a - 0xac00) / 588, (a - 0xac00) % 588 / 28, by omega, by omega, by omega⟩
      have ha := decompose_syllable (t := 0) hl hv (by omega)
      rw [Nat.add_zero] at ha
      rw [decompose_syllable hl hv (by omega), ha, if_neg (by omega)]
      rfl
    · simp at h

/-- **What is joined decomposes again into what it was joined from.** -/
theorem decompose_join {a b c : Nat} (h : join? a b = some c) :
    decompose maxNesting c = decompose maxNesting a ++ [b] := by
  unfold join? at h
  split at h
  · next s hjoin =>
    cases h
    exact decompose_joinSyllable hjoin
  · obtain ⟨⟨c', y, z⟩, hfind, rfl⟩ := Option.map_eq_some_iff.mp h
    have hfound := List.find?_some hfind
    simp only [Bool.and_eq_true, beq_iff_eq] at hfound
    obtain ⟨⟨rfl, rfl⟩, _⟩ := hfound
    have hmem := List.mem_of_find?_eq_some hfind
    have ha := shallow_of_mem_pairs hmem
    rw [maxNesting, decompose_of_split (split?_pair hmem), ha.decompose_succ,
      ha.succ.decompose_succ, ha.decompose_succ]

/-! ## Canonical order -/

/-- Whether `n` may stand behind `m`: a starter may, and so may a mark of no lower class. -/
def Follows (m n : Nat) : Prop :=
  classOf n = 0 ∨ classOf m ≤ classOf n

/-- Every run of marks is sorted by class. -/
def Ordered (ns : List Nat) : Prop :=
  ns.IsChain Follows

theorem insertMark_of_follows {n : Nat} {ns : List Nat} (h : ∀ m ∈ ns.head?, Follows n m) :
    insertMark n ns = n :: ns := by
  cases ns with
  | nil => rfl
  | cons m rest =>
    have hm := h m rfl
    rw [insertMark, if_neg]
    simp only [Bool.and_eq_true, bne_iff_ne, decide_eq_true_eq, not_and]
    unfold Follows at hm
    omega

theorem reorder_of_ordered {ns : List Nat} (h : Ordered ns) : reorder ns = ns := by
  induction ns with
  | nil => rfl
  | cons n rest ih =>
    rw [Ordered, List.isChain_cons] at h
    rw [reorder, ih h.2, insertMark_of_follows h.1, ite_self]

theorem ordered_insertMark {n : Nat} (hn : classOf n ≠ 0) {ns : List Nat} (h : Ordered ns) :
    Ordered (insertMark n ns) := by
  induction ns with
  | nil => exact List.isChain_singleton n
  | cons m rest ih =>
    have hrest := (List.isChain_cons.mp h).2
    rw [insertMark]
    split
    · next hlt =>
      simp only [Bool.and_eq_true, bne_iff_ne, decide_eq_true_eq] at hlt
      refine List.isChain_cons.mpr ⟨fun k hk => ?_, ih hrest⟩
      -- the next one is either the new mark or the one that came next before
      have hfirst : k = n ∨ k ∈ rest.head? := by
        cases rest with
        | nil => exact Or.inl (by simpa [insertMark] using hk.symm)
        | cons d rest =>
          rw [insertMark] at hk
          split at hk
          · exact Or.inr hk
          · exact Or.inl (by simpa using hk.symm)
      rcases hfirst with rfl | hk
      · exact Or.inr (Nat.le_of_lt hlt.2)
      · exact (List.isChain_cons.mp h).1 k hk
    · next hge =>
      simp only [Bool.and_eq_true, bne_iff_ne, decide_eq_true_eq, not_and] at hge
      refine List.isChain_cons_cons.mpr ⟨?_, h⟩
      unfold Follows
      omega

theorem ordered_reorder (ns : List Nat) : Ordered (reorder ns) := by
  induction ns with
  | nil => exact List.isChain_nil
  | cons n rest ih =>
    rw [reorder]
    split
    · next hn =>
      refine List.isChain_cons.mpr ⟨fun m _ => Or.inr ?_, ih⟩
      rw [beq_iff_eq.mp hn]
      exact Nat.zero_le _
    · next hn => exact ordered_insertMark (by simpa using hn) ih

/-- Marks of different classes may be placed in either order. -/
theorem insertMark_comm {m n : Nat} (hm : classOf m ≠ 0) (hlt : classOf m < classOf n)
    (ns : List Nat) : insertMark n (insertMark m ns) = insertMark m (insertMark n ns) := by
  induction ns with
  | nil =>
    have hge : ¬ classOf n < classOf m := by omega
    simp [insertMark, hm, hlt, hge]
  | cons k rest ih =>
    by_cases hk : classOf k ≠ 0 ∧ classOf k < classOf m
    · have hkn : classOf k < classOf n := Nat.lt_trans hk.2 hlt
      simp [insertMark, hk, hkn, ih]
    · have hge : ¬ classOf n < classOf m := by omega
      have hfirst : insertMark m (k :: rest) = m :: k :: rest := by
        rw [insertMark, if_neg (by simpa using hk)]
      rw [hfirst, insertMark, if_pos (by simpa using ⟨hm, hlt⟩)]
      by_cases hkn : classOf k ≠ 0 ∧ classOf k < classOf n
      · rw [insertMark, if_pos (by simpa using hkn), insertMark, if_neg (by simpa using hk)]
      · rw [insertMark, if_neg (by simpa using hkn), insertMark, if_neg (by simp [hge])]

theorem reorder_append_congr {first second : List Nat} (h : reorder first = reorder second) :
    ∀ front : List Nat, reorder (front ++ first) = reorder (front ++ second)
  | [] => h
  | n :: front => by
    rw [List.cons_append, List.cons_append, reorder, reorder, reorder_append_congr h front]

/-- A mark may stand before marks of lower classes or behind them. -/
theorem reorder_past {n : Nat} : ∀ {marks : List Nat},
    (∀ m ∈ marks, classOf m ≠ 0 ∧ classOf m < classOf n) → ∀ rest,
      reorder (n :: (marks ++ rest)) = reorder (marks ++ n :: rest)
  | [], _, _ => rfl
  | m :: marks, h, rest => by
    rw [List.forall_mem_cons] at h
    have hm : ¬ (classOf m == 0) = true := by simpa using h.1.1
    have hn : ¬ (classOf n == 0) = true := by
      have hlt := h.1.2
      simp only [beq_iff_eq]
      omega
    have hswap : reorder (n :: (m :: marks ++ rest)) = reorder (m :: (n :: (marks ++ rest))) := by
      simp only [List.cons_append, reorder, if_neg hm, if_neg hn]
      exact insertMark_comm h.1.1 h.1.2 _
    rw [hswap]
    exact reorder_append_congr (reorder_past h.2 rest) [m]

/-! ## Composition -/

/-- What composing meets on its way, on text that is decomposed and ordered: marks that were passed
over, the last of class `last`, and what follows them in order. -/
structure Passed (marks : List Nat) (last : Nat) (ns : List Nat) : Prop where
  whole_marks : ∀ m ∈ marks, split? m = none
  whole : ∀ n ∈ ns, split? n = none
  class_marks : ∀ m ∈ marks, classOf m ≠ 0 ∧ classOf m ≤ last
  class_next : marks ≠ [] → ∀ n ∈ ns.head?, classOf n = 0 ∨ last ≤ classOf n
  ordered : Ordered ns

namespace Passed

variable {marks rest : List Nat} {last n : Nat}

/-- Behind a starter nothing was passed over yet. -/
theorem start (hwhole : ∀ n ∈ rest, split? n = none) (hordered : Ordered rest) :
    Passed [] last rest where
  whole_marks := by simp
  whole := hwhole
  class_marks := by simp
  class_next := by simp
  ordered := hordered

/-- A character that starts anew. -/
theorem restarted (h : Passed marks last (n :: rest)) : Passed [] 0 rest :=
  start (List.forall_mem_cons.mp h.whole).2 (List.isChain_cons.mp h.ordered).2

/-- A character that no mark blocks from the starter. -/
theorem joined (h : Passed marks last (n :: rest)) (hfree : marks = [] ∨ last < classOf n) :
    Passed marks last rest where
  whole_marks := h.whole_marks
  whole := (List.forall_mem_cons.mp h.whole).2
  class_marks := h.class_marks
  class_next hne m hm := by
    have hlast := hfree.resolve_left hne
    exact ((List.isChain_cons.mp h.ordered).1 m hm).imp_right fun hle => by omega
  ordered := (List.isChain_cons.mp h.ordered).2

/-- A mark that does not join is passed over. -/
theorem kept (h : Passed marks last (n :: rest)) (hn : classOf n ≠ 0) :
    Passed (marks ++ [n]) (classOf n) rest where
  whole_marks := List.forall_mem_append.mpr
    ⟨h.whole_marks, List.forall_mem_singleton.mpr (List.forall_mem_cons.mp h.whole).1⟩
  whole := (List.forall_mem_cons.mp h.whole).2
  class_marks m hm := by
    rcases List.mem_append.mp hm with hm | hm
    · have hlast := (h.class_next (List.ne_nil_of_mem hm) n rfl).resolve_left hn
      exact ⟨(h.class_marks m hm).1, Nat.le_trans (h.class_marks m hm).2 hlast⟩
    · rw [List.mem_singleton.mp hm]
      exact ⟨hn, Nat.le_refl _⟩
  class_next _ := (List.isChain_cons.mp h.ordered).1
  ordered := (List.isChain_cons.mp h.ordered).2

/-- A character that joins may stand before the marks as well. -/
theorem reorder_joined (h : Passed marks last (n :: rest)) (hfree : marks = [] ∨ last < classOf n) :
    reorder (n :: (marks ++ rest)) = reorder (marks ++ n :: rest) := by
  refine reorder_past (fun m hm => ⟨(h.class_marks m hm).1, ?_⟩) rest
  exact Nat.lt_of_le_of_lt (h.class_marks m hm).2 (hfree.resolve_left (List.ne_nil_of_mem hm))

end Passed

/-- **Composing what follows a starter keeps its decomposition**, up to the order of marks. -/
theorem reorder_decompose_composeFrom {starter last : Nat} {marks ns : List Nat}
    (h : Passed marks last ns) :
    reorder ((composeFrom starter marks last ns).flatMap (decompose maxNesting))
      = reorder (decompose maxNesting starter ++ (marks ++ ns)) := by
  induction ns generalizing starter marks last with
  | nil =>
    rw [composeFrom, List.flatMap_cons, flatMap_decompose_of_whole h.whole_marks, List.append_nil]
  | cons n rest ih =>
    rw [composeFrom]
    split
    · next s hjoin =>
      rw [Option.ite_none_right_eq_some] at hjoin
      have hfree : marks = [] ∨ last < classOf n := by simpa using hjoin.1
      rw [ih (h.joined hfree), decompose_join hjoin.2, List.append_assoc]
      exact reorder_append_congr (h.reorder_joined hfree) _
    · split
      · -- a starter that does not join starts anew
        rw [List.flatMap_cons, List.flatMap_append, flatMap_decompose_of_whole h.whole_marks]
        have hagain : reorder ((composeFrom n [] 0 rest).flatMap (decompose maxNesting))
            = reorder (n :: rest) := by
          rw [ih h.restarted, decompose_of_whole (List.forall_mem_cons.mp h.whole).1]
          rfl
        rw [← List.append_assoc, ← List.append_assoc]
        exact reorder_append_congr hagain _
      · next hmark =>
        rw [ih (h.kept (by simpa using hmark)), List.append_assoc, List.singleton_append]

/-- **Composing keeps the decomposition**, up to the order of marks. -/
theorem reorder_decompose_recompose {ns : List Nat} (hwhole : ∀ n ∈ ns, split? n = none)
    (hordered : Ordered ns) :
    reorder ((recompose ns).flatMap (decompose maxNesting)) = reorder ns := by
  induction ns with
  | nil => rfl
  | cons n rest ih =>
    have hrest := (List.isChain_cons.mp hordered).2
    rw [List.forall_mem_cons] at hwhole
    rw [recompose]
    split
    · rw [reorder_decompose_composeFrom (.start hwhole.2 hrest), decompose_of_whole hwhole.1]
      rfl
    · rw [List.flatMap_cons, decompose_of_whole hwhole.1]
      exact reorder_append_congr (ih hwhole.2 hrest) [n]

/-! ## Plain characters -/

theorem classOf_plain {n : Nat} (h : n < 0x300) : classOf n = 0 := by
  rw [classOf, if_pos h]

/-- A plain character that decomposes has a plain base, and a mark that goes behind all marks of the
base. -/
theorem pairs_plain : (pairs.filter fun (c, _, _) => c < 0x300).all (fun (_, a, b) =>
    a < 0x300 && (decompose maxNesting a).getLast?.all
      (fun m => m < 0x300 || classOf m ≤ classOf b)) = true := by
  decide +kernel

/-- The pairs with a plain base. -/
def plainPairs : List (Nat × Nat × Nat) :=
  pairs.filter fun (_, a, _) => a < 0x300

/-- A plain base and its mark as one number. -/
def plainKey : Nat × Nat × Nat → Nat
  | (_, a, b) => b * 0x300 + a

/-- No two pairs have the same plain base and the same mark. -/
theorem plainPairs_distinct : areDistinct 0 (plainPairs.map plainKey) = true := by
  decide +kernel

/-- Neither marks nor what stands for another character nor what is never composed is plain. -/
theorem tables_high : (∀ entry ∈ pairs, 0x300 ≤ entry.2.2) ∧ (∀ entry ∈ singles, 0x300 ≤ entry.1)
    ∧ (∀ entry ∈ ideographs, 0x300 ≤ entry.1) ∧ ∀ c ∈ neverComposed, 0x300 ≤ c := by
  decide +kernel

/-- **A plain character is what its base and its mark are joined to.** -/
theorem join?_of_plain {a b c : Nat} (h : (c, a, b) ∈ pairs) (hc : c < 0x300) (ha : a < 0x300) :
    join? a b = some c := by
  have hsyllable : joinSyllable? a b = none := by
    unfold joinSyllable?
    rw [if_neg (by simp only [Bool.and_eq_true, decide_eq_true_eq]; omega),
      if_neg (by simp only [Bool.and_eq_true, decide_eq_true_eq]; omega)]
  have hcomposed : c ∉ neverComposed := fun hexcluded => by
    have hhigh := tables_high.2.2.2 c hexcluded
    omega
  have hplain : ∀ {c'}, (c', a, b) ∈ pairs → (c', a, b) ∈ plainPairs := fun hmem =>
    List.mem_filter.mpr ⟨hmem, by simpa using ha⟩
  unfold join?
  rw [hsyllable]
  cases hfind : pairs.find? (fun (c, x, y) => x == a && y == b && !neverComposed.contains c) with
  | none =>
    have hnot := List.find?_eq_none.mp hfind _ h
    simp [hcomposed] at hnot
  | some found =>
    -- what is found has the same key, so it is the pair itself
    obtain ⟨c', x, y⟩ := found
    have hfound := List.find?_some hfind
    simp only [Bool.and_eq_true, beq_iff_eq] at hfound
    obtain ⟨⟨rfl, rfl⟩, -⟩ := hfound
    have hsame : (c', x, y) = (c, x, y) :=
      List.inj_on_of_nodup_map (nodup_of_areDistinct plainPairs_distinct)
        (hplain (List.mem_of_find?_eq_some hfind)) (hplain h) rfl
    cases hsame
    rfl

/-- A plain character is whole, or one of the pairs. -/
theorem plain_cases {n : Nat} (h : n < 0x300) :
    split? n = none ∨ ∃ a b, (n, a, b) ∈ pairs := by
  by_cases hpairs : n ∈ pairs.map (·.1)
  · obtain ⟨⟨c, a, b⟩, hmem, rfl⟩ := List.mem_map.mp hpairs
    exact Or.inr ⟨a, b, hmem⟩
  · left
    refine split?_eq_none ?_ hpairs (single?_eq_none ?_ fun entry hentry => Or.inl ?_)
    · rw [syllable?, if_neg (by simp only [Bool.and_eq_true, decide_eq_true_eq]; omega)]
    · rintro hsingles
      obtain ⟨entry, hentry, rfl⟩ := List.mem_map.mp hsingles
      have hhigh := tables_high.2.1 entry hentry
      omega
    · have hhigh := tables_high.2.2.1 entry hentry
      omega

/-- A plain character as a base and its marks: they are in canonical order, and composing joins the
marks to the base one by one until the character is back. -/
structure Unfolds (n base : Nat) (marks : List Nat) : Prop where
  eq : decompose maxNesting n = base :: marks
  plain : base < 0x300
  ordered : Ordered (base :: marks)
  joins : ∀ rest, composeFrom base [] 0 (marks ++ rest) = composeFrom n [] 0 rest

theorem Unfolds.self {n : Nat} (h : n < 0x300) (hwhole : split? n = none) : Unfolds n n [] :=
  ⟨decompose_of_whole hwhole _, h, List.isChain_singleton n, fun _ => rfl⟩

theorem Unfolds.join {a b c base : Nat} {marks : List Nat} (h : Unfolds a base marks)
    (hjoin : join? a b = some c) (hlast : ∀ m ∈ (base :: marks).getLast?, classOf m ≤ classOf b) :
    Unfolds c base (marks ++ [b]) where
  eq := by rw [decompose_join hjoin, h.eq, List.cons_append]
  plain := h.plain
  ordered := by
    rw [Ordered, ← List.cons_append, List.isChain_append]
    refine ⟨h.ordered, List.isChain_singleton b, ?_⟩
    intro m hm n hn
    obtain rfl : b = n := by simpa using hn
    exact Or.inr (hlast m hm)
  joins rest := by
    rw [List.append_assoc, h.joins, List.singleton_append, composeFrom]
    simp [hjoin]

theorem exists_unfolds {n : Nat} (h : n < 0x300) : ∃ base marks, Unfolds n base marks := by
  -- each join adds one mark, so the induction is on how long the decomposition is
  induction hlength : (decompose maxNesting n).length using Nat.strongRecOn generalizing n with
  | ind length ih =>
    rcases plain_cases h with hwhole | ⟨a, b, hpair⟩
    · exact ⟨n, [], .self h hwhole⟩
    · have hfacts := List.all_eq_true.mp pairs_plain (n, a, b)
        (List.mem_filter.mpr ⟨hpair, by simpa using h⟩)
      simp only [Bool.and_eq_true, decide_eq_true_eq] at hfacts
      obtain ⟨ha, hlast⟩ := hfacts
      have hjoin := join?_of_plain hpair h ha
      have hshort : (decompose maxNesting a).length < length := by
        rw [← hlength, decompose_join hjoin, List.length_append, List.length_singleton]
        omega
      obtain ⟨base, marks, hunfolds⟩ := ih _ hshort ha rfl
      refine ⟨base, marks ++ [b], hunfolds.join hjoin fun m hm => ?_⟩
      rw [hunfolds.eq, hm] at hlast
      simp only [Option.all_some, Bool.or_eq_true, decide_eq_true_eq] at hlast
      rcases hlast with hplain | hle
      · rw [classOf_plain hplain]
        exact Nat.zero_le _
      · exact hle

/-- No two plain characters are joined. -/
theorem join?_plain {n : Nat} (h : n < 0x300) (starter : Nat) : join? starter n = none := by
  have hsyllable : joinSyllable? starter n = none := by
    unfold joinSyllable?
    rw [if_neg (by simp only [Bool.and_eq_true, decide_eq_true_eq]; omega),
      if_neg (by simp only [Bool.and_eq_true, decide_eq_true_eq]; omega)]
  unfold join?
  rw [hsyllable]
  simp only [Option.map_eq_none_iff, List.find?_eq_none]
  rintro ⟨c, a, b⟩ hentry
  have hhigh : 0x300 ≤ b := tables_high.1 _ hentry
  simp only [Bool.and_eq_true, beq_iff_eq]
  omega

/-- The decomposition of plain characters starts with one. -/
theorem head?_flatMap_plain {ns : List Nat} (h : ∀ n ∈ ns, n < 0x300) :
    ∀ m ∈ (ns.flatMap (decompose maxNesting)).head?, m < 0x300 := by
  cases ns with
  | nil => simp
  | cons n rest =>
    obtain ⟨base, marks, hunfolds⟩ := exists_unfolds (h n List.mem_cons_self)
    rw [List.flatMap_cons, hunfolds.eq]
    simpa using hunfolds.plain

theorem ordered_flatMap_plain {ns : List Nat} (h : ∀ n ∈ ns, n < 0x300) :
    Ordered (ns.flatMap (decompose maxNesting)) := by
  induction ns with
  | nil => exact List.isChain_nil
  | cons n rest ih =>
    rw [List.forall_mem_cons] at h
    obtain ⟨base, marks, hunfolds⟩ := exists_unfolds h.1
    rw [List.flatMap_cons, Ordered, List.isChain_append]
    refine ⟨hunfolds.eq ▸ hunfolds.ordered, ih h.2, ?_⟩
    intro _ _ m hm
    exact Or.inl (classOf_plain (head?_flatMap_plain h.2 m hm))

/-- **Plain characters are what their decompositions are composed to.** -/
theorem recompose_flatMap_plain {ns : List Nat} (h : ∀ n ∈ ns, n < 0x300) :
    recompose (ns.flatMap (decompose maxNesting)) = ns := by
  induction ns with
  | nil => rfl
  | cons n rest ih =>
    have hnext := head?_flatMap_plain (List.forall_mem_cons.mp h).2
    rw [List.forall_mem_cons] at h
    obtain ⟨base, marks, hunfolds⟩ := exists_unfolds h.1
    have hrest := ih h.2
    rw [List.flatMap_cons, hunfolds.eq, List.cons_append, recompose,
      if_pos (by simp [classOf_plain hunfolds.plain]), hunfolds.joins]
    cases hflat : rest.flatMap (decompose maxNesting) with
    | nil =>
      rw [hflat] at hrest
      rw [composeFrom, ← hrest]
      rfl
    | cons m others =>
      have hm : m < 0x300 := hnext m (by rw [hflat]; rfl)
      rw [hflat, recompose, if_pos (by simp [classOf_plain hm])] at hrest
      rw [composeFrom, ← hrest]
      simp [join?_plain hm, classOf_plain hm]

end Canonical

open Canonical

/-! ## Whole texts -/

theorem recast_recast (t : Text) : recast (recast t) = recast t := by
  have hvalid := recast_valid t
  unfold recast
  generalize hordered :
    reorder (t.flatMap fun c => decompose maxNesting c.toNat) = ordered at hvalid
  have hwhole : ∀ n ∈ ordered, split? n = none := by
    intro n hn
    rw [← hordered] at hn
    obtain ⟨c, -, hc⟩ := List.mem_flatMap.mp ((reorder_perm _).mem_iff.mp hn)
    exact shallow_maxNesting c.toNat n hc
  have hsorted : Ordered ordered := hordered ▸ ordered_reorder _
  have hagain : ((recompose ordered).map Char.ofNat).flatMap (fun c => decompose maxNesting c.toNat)
      = (recompose ordered).flatMap (decompose maxNesting) := by
    rw [List.flatMap_map]
    exact List.flatMap_congr fun n hn => by rw [toNat_ofNat (hvalid n hn)]
  rw [hagain, reorder_decompose_recompose hwhole hsorted, reorder_of_ordered hsorted]

/-- **To compose a text twice is to compose it once.** -/
theorem compose_compose (t : Text) : t.compose.compose = t.compose := by
  rw [compose_eq_self_iff]
  by_cases hplain : t.all (·.toNat < 0x300) = true
  · have hself : t.compose = t := if_pos hplain
    rw [hself]
    exact Or.inl fun c hc => by simpa using List.all_eq_true.mp hplain c hc
  · have hrecast : t.compose = recast t := if_neg hplain
    rw [hrecast]
    exact Or.inr (recast_recast t)

/-- Plain text is stable, so that it stays composed beside any other text. -/
theorem isStable_of_isPlain {t : Text} (h : IsPlain t) : IsStable t := by
  have hplain : ∀ n ∈ t.map Char.toNat, n < 0x300 := by simpa [IsPlain] using h
  have hflat : (t.flatMap fun c => decompose maxNesting c.toNat)
      = (t.map Char.toNat).flatMap (decompose maxNesting) := by
    rw [List.flatMap_map]
  rw [IsStable, recast, hflat, reorder_of_ordered (ordered_flatMap_plain hplain),
    recompose_flatMap_plain hplain, List.map_map]
  exact List.map_id'' (fun c => by simp) t

theorem compose_eq_self_iff_isStable {t : Text} : t.compose = t ↔ IsStable t := by
  rw [compose_eq_self_iff]
  exact ⟨fun h => h.elim isStable_of_isPlain id, Or.inr⟩

end TagSearch.Text
