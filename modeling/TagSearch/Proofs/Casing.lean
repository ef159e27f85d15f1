import TagSearch.Number.Integer
import TagSearch.Proofs.Cleaning
import TagSearch.Text.Case

/-!
# Lowercase text

What lowercasing leaves alone. A character is *settled* if it is its own lowercase; lowercasing
yields settled characters only, so that to lowercase a text twice is to lowercase it once.

White space and modifiers are settled and end a word, so the form of a sigma does not depend on what
stands behind them: `lowercase_trim` says that a text may be trimmed before it is lowercased or
after, and `lowercase_signed` that a modifier may be taken off before or after. A digit or a
sign is the lowercase of nothing but itself, so `readInt?_lowercase` reads the same number.
-/

namespace TagSearch.Text

open Canonical

/-! ## The tables -/

/-- The code points of capital letters, `U+0130` aside. -/
def capitals : List Nat :=
  lowerRuns.flatMap fun (first, last, stride, _) =>
    (List.range ((last - first) / stride + 1)).map fun k => first + stride * k

/-- The code points that lowercasing may put in the place of another one. -/
def lowered : List Nat :=
  [0x69, 0x307, 0x3c2] ++ lowerRuns.flatMap fun (first, last, stride, image) =>
    (List.range ((last - first) / stride + 1)).map fun k => image + stride * k

/-- The code points of white space. -/
def spaces : List Nat :=
  [0x09, 0x0a, 0x0b, 0x0c, 0x0d, 0x20, 0x85, 0xa0, 0x1680, 0x2000, 0x2001, 0x2002, 0x2003, 0x2004,
    0x2005, 0x2006, 0x2007, 0x2008, 0x2009, 0x200a, 0x2028, 0x2029, 0x202f, 0x205f, 0x3000]

theorem isSpace_iff {c : Char} : isSpace c = true ↔ c.toNat ∈ spaces := by
  simp only [isSpace, spaces, Bool.or_eq_true, Bool.and_eq_true, decide_eq_true_eq, beq_iff_eq,
    List.mem_cons, List.not_mem_nil, or_false]
  omega

/-- What lowercasing makes is a letter or a mark, and not a capital; white space has no case, and a
word ends there; runs go forward; and a sigma has its lowercase. -/
theorem caseTables :
    lowered.all (fun n => decide n.isValidChar && decide (0x61 ≤ n) && n != 0x130
        && !(mask (capitals ++ spaces)).testBit n) = true
      ∧ spaces.all (fun n => n != 0x130 && !(mask capitals).testBit n
        && !inIntervals casedIntervals n && !inIntervals caseIgnorableIntervals n) = true
      ∧ lowerRuns.all (fun (first, last, _, _) => first ≤ last) = true
      ∧ (mask capitals).testBit 0x3a3 = true ∧ (mask lowered).testBit 0x3c3 = true := by
  decide +kernel

theorem not_mem_of_mem_lowered {n : Nat} (h : n ∈ lowered) :
    n.isValidChar ∧ 0x61 ≤ n ∧ n ≠ 0x130 ∧ n ∉ capitals ∧ n ∉ spaces := by
  have hsmall := List.all_eq_true.mp caseTables.1 n h
  simp only [Bool.and_eq_true, decide_eq_true_eq, bne_iff_ne, Bool.not_eq_true', and_assoc]
    at hsmall
  obtain ⟨hvalid, hle, hdotted, hbit⟩ := hsmall
  have hmem : n ∉ capitals ++ spaces := fun hmem => by simp [testBit_mask.mpr hmem] at hbit
  rw [List.mem_append, not_or] at hmem
  exact ⟨hvalid, hle, hdotted, hmem⟩

/-- The places of a run, counted from its start. -/
theorem mem_run (start : Nat) {first last stride n : Nat} (hfirst : first ≤ n) (hlast : n ≤ last)
    (hstride : (n - first) % stride = 0) :
    start + (n - first)
      ∈ (List.range ((last - first) / stride + 1)).map fun k => start + stride * k := by
  refine List.mem_map.mpr ⟨(n - first) / stride, List.mem_range.mpr ?_, ?_⟩
  · exact Nat.lt_succ_of_le (Nat.div_le_div_right (by omega))
  · rw [Nat.mul_div_cancel' (Nat.dvd_of_mod_eq_zero hstride)]

/-- A run takes a capital to its lowercase, and what is no capital stays. -/
theorem shiftBy_cases (n : Nat) :
    n ∈ capitals ∧ shiftBy lowerRuns n ∈ lowered ∨ n ∉ capitals ∧ shiftBy lowerRuns n = n := by
  unfold shiftBy
  split
  · next first last stride image hfind =>
    have hrun := List.find?_some hfind
    simp only [Bool.and_eq_true, decide_eq_true_eq, beq_iff_eq] at hrun
    obtain ⟨⟨hfirst, hlast⟩, hstride⟩ := hrun
    refine Or.inl ⟨List.mem_flatMap.mpr ⟨_, List.mem_of_find?_eq_some hfind, ?_⟩,
      List.mem_append_right _ (List.mem_flatMap.mpr ⟨_, List.mem_of_find?_eq_some hfind, ?_⟩)⟩
    · have hmem := mem_run first hfirst hlast hstride
      rwa [Nat.add_sub_cancel' hfirst] at hmem
    · exact mem_run image hfirst hlast hstride
  · next hfind =>
    refine Or.inr ⟨fun hmem => ?_, rfl⟩
    obtain ⟨⟨first, last, stride, image⟩, hrun, hmem⟩ := List.mem_flatMap.mp hmem
    obtain ⟨k, hk, rfl⟩ := List.mem_map.mp hmem
    have hnone := List.find?_eq_none.mp hfind _ hrun
    have hle : stride * k ≤ last - first := by
      have hk : k ≤ (last - first) / stride := Nat.le_of_lt_succ (List.mem_range.mp hk)
      exact Nat.le_trans (Nat.mul_le_mul_left _ hk) (Nat.mul_div_le _ _)
    have hforward : first ≤ last := by
      simpa using List.all_eq_true.mp caseTables.2.2.1 _ hrun
    simp only [Bool.and_eq_true, decide_eq_true_eq, beq_iff_eq, Nat.add_sub_cancel_left,
      Nat.mul_mod_right, and_true, not_and] at hnone
    omega

/-! ## Characters -/

/-- A character that is its own lowercase. -/
def Settled (c : Char) : Prop :=
  c.toNat ≠ 0x130 ∧ c.toNat ∉ capitals

theorem settled_of_mem_lowered {c : Char} (h : c.toNat ∈ lowered) : Settled c :=
  ⟨(not_mem_of_mem_lowered h).2.2.1, (not_mem_of_mem_lowered h).2.2.2.1⟩

/-- Among the ASCII characters the letters from `A` to `Z` are the capitals. -/
theorem toLower_ascii : ∀ n < 0x80, (0x41 ≤ n ∧ n ≤ 0x5a ∧ (mask capitals).testBit n = true
      ∧ (Char.ofNat n).toLower = Char.ofNat (n + 0x20) ∧ (mask lowered).testBit (n + 0x20) = true)
    ∨ ((mask capitals).testBit n = false ∧ (Char.ofNat n).toLower = Char.ofNat n) := by
  decide +kernel

theorem settled_of_ascii {c : Char} (hascii : c.toNat < 0x80)
    (hletter : ¬ (0x41 ≤ c.toNat ∧ c.toNat ≤ 0x5a)) : Settled c := by
  refine ⟨by omega, fun hmem => ?_⟩
  rcases toLower_ascii c.toNat hascii with ⟨hle, hge, -⟩ | ⟨hsmall, -⟩
  · exact hletter ⟨hle, hge⟩
  · simp [testBit_mask.mpr hmem] at hsmall

/-- The lowercase of a character is one of the letters that lowercasing makes, unless the character
is its own. -/
theorem lowerChar_cases (c : Char) :
    (¬ Settled c ∧ lowerChar c ≠ [] ∧ ∀ d ∈ lowerChar c, d.toNat ∈ lowered)
      ∨ Settled c ∧ lowerChar c = [c] := by
  unfold lowerChar
  split
  · next hascii =>
    rcases toLower_ascii c.toNat hascii with ⟨-, -, hcapital, hlower, hlowered⟩ | ⟨hsmall, hlower⟩
    · rw [Char.ofNat_toNat] at hlower
      have hmem := testBit_mask.mp hlowered
      refine Or.inl ⟨fun h => h.2 (testBit_mask.mp hcapital), by simp, ?_⟩
      simpa [hlower, toNat_ofNat (not_mem_of_mem_lowered hmem).1] using hmem
    · rw [Char.ofNat_toNat] at hlower
      refine Or.inr ⟨⟨by omega, fun h => ?_⟩, by rw [hlower]⟩
      simp [testBit_mask.mpr h] at hsmall
  · split
    · next hdotted =>
      refine Or.inl ⟨fun h => h.1 (by simpa using hdotted), by simp, ?_⟩
      simp [lowered]
    · next hdotted =>
      rcases shiftBy_cases c.toNat with ⟨hcapital, hmem⟩ | ⟨hcapital, hsame⟩
      · refine Or.inl ⟨fun h => h.2 hcapital, by simp, ?_⟩
        simpa [toNat_ofNat (not_mem_of_mem_lowered hmem).1] using hmem
      · rw [hsame, Char.ofNat_toNat]
        exact Or.inr ⟨⟨by simpa using hdotted, hcapital⟩, rfl⟩

/-- The lowercase of a character between its neighbours. -/
def lowerBetween (before : Text) (c : Char) (rest : Text) : Text :=
  if c.toNat == 0x3a3 then
    if meetsCased before && !meetsCased rest then [Char.ofNat 0x3c2] else [Char.ofNat 0x3c3]
  else lowerChar c

theorem lowercaseAfter_cons (before : Text) (c : Char) (rest : Text) :
    lowercaseAfter before (c :: rest)
      = lowerBetween before c rest ++ lowercaseAfter (c :: before) rest :=
  rfl

theorem lowerBetween_cases (before : Text) (c : Char) (rest : Text) :
    (¬ Settled c ∧ lowerBetween before c rest ≠ []
        ∧ ∀ d ∈ lowerBetween before c rest, d.toNat ∈ lowered)
      ∨ Settled c ∧ lowerBetween before c rest = [c] := by
  unfold lowerBetween
  split
  · next hsigma =>
    have hcapital : ¬ Settled c := fun h => h.2 <| by
      rw [beq_iff_eq.mp hsigma]
      exact testBit_mask.mp caseTables.2.2.2.1
    have hfinal : (0x3c2 : Nat) ∈ lowered := by simp [lowered]
    have hplain : (0x3c3 : Nat) ∈ lowered := testBit_mask.mp caseTables.2.2.2.2
    left
    split
    · exact ⟨hcapital, by simp, by simpa using hfinal⟩
    · exact ⟨hcapital, by simp, by simpa using hplain⟩
  · exact lowerChar_cases c

theorem lowerBetween_of_settled {c : Char} (h : Settled c) (before rest : Text) :
    lowerBetween before c rest = [c] :=
  (lowerBetween_cases before c rest).elim (fun hcase => absurd h hcase.1) (·.2)

theorem lowerBetween_ne_nil (before : Text) (c : Char) (rest : Text) :
    lowerBetween before c rest ≠ [] := by
  rcases lowerBetween_cases before c rest with ⟨-, hne, -⟩ | ⟨-, hself⟩
  · exact hne
  · simp [hself]

/-- What lowercasing does not make of other characters comes from itself. -/
theorem eq_of_mem_lowerBetween {before rest : Text} {c d : Char} (h : d ∈ lowerBetween before c rest)
    (hd : d.toNat ∉ lowered) : d = c := by
  rcases lowerBetween_cases before c rest with ⟨-, -, hlowered⟩ | ⟨-, hself⟩
  · exact absurd (hlowered d h) hd
  · simpa [hself] using h

/-! ## Texts -/

/-- Lowercasing yields characters that are their own lowercase. -/
theorem settled_of_mem_lowercaseAfter {before t : Text} {d : Char}
    (h : d ∈ lowercaseAfter before t) : Settled d := by
  induction t generalizing before with
  | nil => simp [lowercaseAfter] at h
  | cons c rest ih =>
    rw [lowercaseAfter_cons, List.mem_append] at h
    rcases h with h | h
    · rcases lowerBetween_cases before c rest with ⟨-, -, hlowered⟩ | ⟨hsettled, hself⟩
      · exact settled_of_mem_lowered (hlowered d h)
      · rw [hself, List.mem_singleton] at h
        rwa [h]
    · exact ih h

theorem lowercaseAfter_of_settled {t : Text} (h : ∀ c ∈ t, Settled c) (before : Text) :
    lowercaseAfter before t = t := by
  induction t generalizing before with
  | nil => rfl
  | cons c rest ih =>
    rw [List.forall_mem_cons] at h
    rw [lowercaseAfter_cons, lowerBetween_of_settled h.1, ih h.2, List.singleton_append]

/-- **A text of settled characters is its own lowercase.** -/
theorem lowercase_of_settled {t : Text} (h : ∀ c ∈ t, Settled c) : t.lowercase = t :=
  lowercaseAfter_of_settled h []

theorem settled_of_mem_lowercase {t : Text} {d : Char} (h : d ∈ t.lowercase) : Settled d :=
  settled_of_mem_lowercaseAfter h

/-- **To lowercase a text twice is to lowercase it once.** -/
theorem lowercase_lowercase (t : Text) : t.lowercase.lowercase = t.lowercase :=
  lowercase_of_settled fun _ => settled_of_mem_lowercase

/-- A text stays as it is if lowercasing it yields nothing but what stood there before. -/
theorem lowercaseAfter_of_not_lowered {before t : Text}
    (h : ∀ d ∈ lowercaseAfter before t, d.toNat ∉ lowered) : lowercaseAfter before t = t := by
  induction t generalizing before with
  | nil => rfl
  | cons c rest ih =>
    rw [lowercaseAfter_cons, List.forall_mem_append] at h
    have himage : lowerBetween before c rest = [c] := by
      rcases lowerBetween_cases before c rest with ⟨-, hne, hlowered⟩ | ⟨-, hself⟩
      · obtain ⟨d, hd⟩ := List.exists_mem_of_ne_nil _ hne
        exact absurd (hlowered d hd) (h.1 d hd)
      · exact hself
    rw [lowercaseAfter_cons, himage, ih h.2, List.singleton_append]

/-! ## First and last characters -/

theorem lowercaseAfter_concat (before t : Text) (c : Char) :
    ∃ front, lowercaseAfter before (t ++ [c]) = front ++ lowerBetween (t.reverse ++ before) c [] := by
  induction t generalizing before with
  | nil => exact ⟨[], by rw [List.nil_append, lowercaseAfter_cons]; simp [lowercaseAfter]⟩
  | cons d rest ih =>
    obtain ⟨front, hfront⟩ := ih (d :: before)
    refine ⟨lowerBetween before d (rest ++ [c]) ++ front, ?_⟩
    rw [List.cons_append, lowercaseAfter_cons, hfront, List.append_assoc, List.reverse_cons,
      List.append_assoc]
    rfl

theorem lowercase_ne_nil {t : Text} (h : t ≠ []) : t.lowercase ≠ [] := by
  obtain ⟨c, rest, rfl⟩ := List.exists_cons_of_ne_nil h
  rw [lowercase, lowercaseAfter_cons]
  exact List.append_ne_nil_of_left_ne_nil (lowerBetween_ne_nil [] c rest) _

/-- What lowercasing does not make of other characters stands in front only if it did before. -/
theorem head?_of_lowercase {t : Text} {d : Char} (hd : d.toNat ∉ lowered)
    (h : d ∈ t.lowercase.head?) : d ∈ t.head? := by
  cases t with
  | nil => simp [lowercase, lowercaseAfter] at h
  | cons c rest =>
    rw [lowercase, lowercaseAfter_cons,
      List.head?_append_of_ne_nil _ (lowerBetween_ne_nil [] c rest)] at h
    rw [eq_of_mem_lowerBetween (List.mem_of_mem_head? h) hd]
    rfl

theorem getLast?_of_lowercase {t : Text} {d : Char} (hd : d.toNat ∉ lowered)
    (h : d ∈ t.lowercase.getLast?) : d ∈ t.getLast? := by
  rcases List.eq_nil_or_concat' t with rfl | ⟨front, c, rfl⟩
  · simp [lowercase, lowercaseAfter] at h
  · obtain ⟨others, hothers⟩ := lowercaseAfter_concat [] front c
    rw [lowercase, hothers, List.getLast?_append_of_ne_nil _ (lowerBetween_ne_nil _ c [])] at h
    rw [eq_of_mem_lowerBetween (List.mem_of_getLast? h) hd]
    simp

/-! ## Ends of words -/

/-- A character that is settled and at which words end: it has no case, and none is looked for
behind it. -/
structure EndsWord (c : Char) : Prop where
  settled : Settled c
  uncased : inIntervals casedIntervals c.toNat = false
  seen : inIntervals caseIgnorableIntervals c.toNat = false

theorem endsWord_of_isSpace {c : Char} (h : isSpace c = true) : EndsWord c := by
  have hcase := List.all_eq_true.mp caseTables.2.1 _ (isSpace_iff.mp h)
  simp only [Bool.and_eq_true, bne_iff_ne, Bool.not_eq_true', and_assoc] at hcase
  obtain ⟨hdotted, hcapital, huncased, hseen⟩ := hcase
  refine ⟨⟨hdotted, fun hmem => ?_⟩, huncased, hseen⟩
  simp [testBit_mask.mpr hmem] at hcapital

/-- What comes after the end of a word has no say in whether case is met before it. -/
theorem meetsCased_append {ending : Text} (h : ∀ c ∈ ending, EndsWord c) (t : Text) :
    meetsCased (t ++ ending) = meetsCased t := by
  unfold meetsCased
  rw [List.dropWhile_append]
  cases hdrop : t.dropWhile fun c => inIntervals caseIgnorableIntervals c.toNat with
  | cons c rest => rfl
  | nil =>
    cases ending with
    | nil => rfl
    | cons c rest =>
      have hc := h c List.mem_cons_self
      rw [List.dropWhile_cons_of_neg (by simp [hc.seen])]
      exact hc.uncased

theorem lowercaseAfter_append {ending : Text} (h : ∀ c ∈ ending, EndsWord c) (before t : Text) :
    lowercaseAfter before (t ++ ending) = lowercaseAfter before t ++ ending := by
  induction t generalizing before with
  | nil => exact lowercaseAfter_of_settled (fun c hc => (h c hc).settled) before
  | cons c rest ih =>
    rw [List.cons_append, lowercaseAfter_cons, lowercaseAfter_cons, ih, List.append_assoc]
    simp only [lowerBetween, meetsCased_append h]

/-- The end of a word before a text is as good as the start of the text. -/
theorem lowercaseAfter_behind {ending : Text} (h : ∀ c ∈ ending, EndsWord c) (before t : Text) :
    lowercaseAfter (before ++ ending) t = lowercaseAfter before t := by
  induction t generalizing before with
  | nil => rfl
  | cons c rest ih =>
    rw [lowercaseAfter_cons, lowercaseAfter_cons, ← List.cons_append, ih]
    simp only [lowerBetween, meetsCased_append h]

theorem lowercaseAfter_prepend {ending before : Text} (hbefore : ∀ c ∈ before, EndsWord c)
    (h : ∀ c ∈ ending, EndsWord c) (t : Text) :
    lowercaseAfter before (ending ++ t) = ending ++ t.lowercase := by
  induction ending generalizing before with
  | nil => exact lowercaseAfter_behind hbefore [] t
  | cons c rest ih =>
    rw [List.forall_mem_cons] at h
    rw [List.cons_append, lowercaseAfter_cons, lowerBetween_of_settled h.1.settled,
      ih (List.forall_mem_cons.mpr ⟨h.1, hbefore⟩) h.2]
    rfl

/-- **What ends a word stays where it is, around a text.** -/
theorem lowercase_padded {left right : Text} (hleft : ∀ c ∈ left, EndsWord c)
    (hright : ∀ c ∈ right, EndsWord c) (t : Text) :
    (left ++ t ++ right).lowercase = left ++ t.lowercase ++ right := by
  rw [List.append_assoc, lowercase, lowercaseAfter_prepend (by simp) hleft, lowercase,
    lowercaseAfter_append hright, ← List.append_assoc]
  rfl

/-! ## White space around a text -/

theorem not_mem_lowered_of_isSpace {c : Char} (h : isSpace c = true) : c.toNat ∉ lowered :=
  fun hmem => (not_mem_of_mem_lowered hmem).2.2.2.2 (isSpace_iff.mp h)

/-- **A text may be trimmed before it is lowercased or after.** -/
theorem lowercase_trim (t : Text) : t.trim.lowercase = t.lowercase.trim := by
  obtain ⟨left, right, ht, hleft, hright⟩ := exists_trimBy isSpace t
  have hpadded : t.lowercase = left ++ t.trim.lowercase ++ right := by
    conv_lhs => rw [ht]
    exact lowercase_padded (fun c hc => endsWord_of_isSpace (hleft c hc))
      (fun c hc => endsWord_of_isSpace (hright c hc)) _
  rw [hpadded, trim, trim, trimBy_padded hleft hright]
  · intro d hd
    by_contra hspace
    have hlowered := not_mem_lowered_of_isSpace (by simpa using hspace)
    exact hspace (trimBy_head? (head?_of_lowercase hlowered hd))
  · intro d hd
    by_contra hspace
    have hlowered := not_mem_lowered_of_isSpace (by simpa using hspace)
    exact hspace (trimBy_getLast? (getLast?_of_lowercase hlowered hd))

/-! ## Modifiers -/

theorem not_mem_lowered_toChar (m : Modifier) : m.toChar.toNat ∉ lowered := by
  have hsigns : (mask lowered).testBit 0x2d = false ∧ (mask lowered).testBit 0x7e = false := by
    decide +kernel
  intro hmem
  cases m
  · exact absurd (testBit_mask.mpr hmem) (by simp [Modifier.toChar, hsigns.1])
  · exact absurd (testBit_mask.mpr hmem) (by simp [Modifier.toChar, hsigns.2])

theorem endsWord_toChar (m : Modifier) : EndsWord m.toChar := by
  cases m <;> exact ⟨settled_of_ascii (by decide) (by decide), by decide +kernel, by decide +kernel⟩

/-- **A modifier in front of a text stays where it is.** -/
theorem lowercase_signed (m : Modifier) (t : Text) :
    lowercase (m.toChar :: t) = m.toChar :: t.lowercase := by
  have hleft : ∀ c ∈ [m.toChar], EndsWord c := by
    simpa using endsWord_toChar m
  have hright : ∀ c ∈ ([] : Text), EndsWord c := by simp
  simpa using lowercase_padded hleft hright t

/-! ## Numbers -/

/-- A character of a written integer. -/
def isNumeric (c : Char) : Bool :=
  c == '-' || c == '+' || Number.isDigit c

theorem toNat_lt_of_isNumeric {c : Char} (h : isNumeric c = true) : c.toNat < 0x41 := by
  simp only [isNumeric, Number.isDigit, Bool.or_eq_true, beq_iff_eq, Bool.and_eq_true,
    decide_eq_true_eq] at h
  rcases h with (rfl | rfl) | ⟨-, hnine⟩
  · decide
  · decide
  · exact Nat.lt_of_le_of_lt hnine (by decide)

theorem settled_of_isNumeric {c : Char} (h : isNumeric c = true) : Settled c := by
  have hlt := toNat_lt_of_isNumeric h
  exact settled_of_ascii (by omega) (by omega)

theorem isNumeric_of_readInt? {t : Text} {n : Int} (h : Number.readInt? t = some n) :
    ∀ c ∈ t, isNumeric c = true := by
  have hdigits : ∀ {digits : Text} {k : Nat}, Number.readNat? digits = some k →
      ∀ c ∈ digits, isNumeric c = true := by
    intro digits k hread c hc
    unfold Number.readNat? at hread
    split at hread
    · simp at hread
    · next hdigit =>
      simp only [Bool.or_eq_true, Bool.not_eq_true', not_or, Bool.not_eq_false] at hdigit
      simp [isNumeric, List.all_eq_true.mp hdigit.2 c hc]
  obtain ⟨hread, -⟩ := Option.filter_eq_some_iff.mp h
  unfold Number.readSigned? at hread
  obtain ⟨_, hread, -⟩ := Option.map_eq_some_iff.mp hread
  obtain ⟨k, hread, -⟩ := Option.bind_eq_some_iff.mp hread
  split at hread
  · exact List.forall_mem_cons.mpr ⟨by decide, hdigits hread⟩
  · exact List.forall_mem_cons.mpr ⟨by decide, hdigits hread⟩
  · exact hdigits hread

/-- **Lowercasing neither makes nor spoils a number.** -/
theorem readInt?_lowercase (t : Text) : Number.readInt? t.lowercase = Number.readInt? t := by
  cases hlower : Number.readInt? t.lowercase with
  | some n =>
    have hself : t.lowercase = t := lowercaseAfter_of_not_lowered fun d hd hmem => by
      have hlt := toNat_lt_of_isNumeric (isNumeric_of_readInt? hlower d hd)
      have hle := (not_mem_of_mem_lowered hmem).2.1
      omega
    rw [← hlower, hself]
  | none =>
    cases hread : Number.readInt? t with
    | none => rfl
    | some n =>
      have hself : t.lowercase = t := lowercase_of_settled fun c hc =>
        settled_of_isNumeric (isNumeric_of_readInt? hread c hc)
      rw [hself, hread] at hlower
      simp at hlower

end TagSearch.Text
