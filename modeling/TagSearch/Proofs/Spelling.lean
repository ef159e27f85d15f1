import TagSearch.Proofs.Days
import TagSearch.Proofs.Numerals

/-!
# Ranges as they are spelled

A range may be spelled in one of a few forms, with white space in many places. `Range.Spelled` lists
the forms without regard to how they are told apart. If no bound holds white space or one of the
signs that ranges are spelled with, every spelling is a written form of its range
(`Spelled.written`): no form is taken for another one. Numerals are such bounds
(`isOperand_of_isNumeral`), a leading minus included.

Main statement: `readIntRange_spelled`.
-/

namespace TagSearch

open Text Number

namespace Range

variable {α : Type} {means : Text → α → Prop} {t low high : Text} {range : Range α} {v : α}

/-! ## Spelling -/

/-- What a bound is spelled with, and white space around it. -/
inductive Padded (means : Text → α → Prop) : Text → α → Prop
  | intro {before t after : Text} {v : α} (hbefore : isWhite before = true) (h : means t v)
    (hafter : isWhite after = true) : Padded means (before ++ t ++ after) v

/-- The forms in which a range may be spelled. A list has two values at least, and no more than are
read. -/
inductive Spelled (means : Text → α → Prop) : Text → Range α → Prop
  | eq {t : Text} {v : α} (h : Padded means t v) : Spelled means t (eq v)
  | gt {t : Text} {v : α} (h : Padded means t v) : Spelled means ('>' :: t) (gt v)
  | gte {t : Text} {v : α} (h : Padded means t v) : Spelled means ('>' :: '=' :: t) (gte v)
  | lt {t : Text} {v : α} (h : Padded means t v) : Spelled means ('<' :: t) (lt v)
  | lte {t : Text} {v : α} (h : Padded means t v) : Spelled means ('<' :: '=' :: t) (lte v)
  | between {low high : Text} {a b : α} (ha : Padded means low a) (hb : Padded means high b) :
    Spelled means (low ++ '.' :: '.' :: high) (between a b)
  | atMost {low high : Text} {v : α} (hlow : isWhite low = true) (h : Padded means high v) :
    Spelled means (low ++ '.' :: '.' :: high) (lte v)
  | atLeast {low high : Text} {v : α} (h : Padded means low v) (hhigh : isWhite high = true) :
    Spelled means (low ++ '.' :: '.' :: high) (gte v)
  | oneOf {items : List Text} {vs : List α} (hleast : 2 ≤ vs.length) (hmost : vs.length ≤ maxItems)
    (h : List.Forall₂ (Padded means) items vs) : Spelled means (joinWith ',' items) (oneOf vs)

/-- The signs that ranges are spelled with. -/
def signs : List Char :=
  ['<', '>', '=', '.', ',']

/-- A text that a range can be spelled with: not empty, without white space and signs. -/
structure IsOperand (t : Text) : Prop where
  ne_nil : t ≠ []
  solid : ∀ c ∈ t, isSpace c = false
  plain : ∀ c ∈ t, c ∉ signs

theorem not_mem_signs_of_isWhite (h : isWhite t = true) : ∀ c ∈ t, c ∉ signs := by
  intro c hc hsign
  have hspace : isSpace c = true := List.all_eq_true.mp h c hc
  have hsigns : signs.all (!isSpace ·) = true := by decide
  have hsolid := List.all_eq_true.mp hsigns c hsign
  rw [hspace] at hsolid
  exact Bool.false_ne_true hsolid

theorem not_hasDots (h : '.' ∉ t) : ¬ HasDots t :=
  fun hdots => h (hdots.subset List.mem_cons_self)

/-- A text without dots makes no two of them with the first of two dots. -/
theorem not_hasDots_concat (h : '.' ∉ t) : ¬ HasDots (t ++ ['.']) := by
  intro hdots
  have htwo : ['.', '.'].count '.' ≤ (t ++ ['.']).count '.' := hdots.sublist.count_le '.'
  rw [List.count_append, List.count_eq_zero_of_not_mem h] at htwo
  exact absurd htwo (by decide)

theorem isBare_of_not_mem (hless : '<' ∉ t) (hmore : '>' ∉ t) : IsBare t :=
  ⟨fun h => hless (List.mem_of_mem_head? h), fun h => hmore (List.mem_of_mem_head? h)⟩

section Padded

variable (hop : ∀ t v, means t v → IsOperand t)

include hop

/-- Trimming leaves what the bound is spelled with. -/
theorem Padded.trim (h : Padded means t v) : means t.trim v := by
  obtain ⟨hbefore, hmeans, hafter⟩ := h
  have hsolid := (hop _ _ hmeans).solid
  rw [Text.trim, trimBy_padded (List.all_eq_true.mp hbefore) (List.all_eq_true.mp hafter)
    (fun c hc => hsolid c (List.mem_of_mem_head? hc))
    (fun c hc => hsolid c (List.mem_of_getLast? hc))]
  exact hmeans

theorem Padded.not_white (h : Padded means t v) : isWhite t = false := by
  obtain ⟨-, hmeans, -⟩ := h
  obtain ⟨c, hc⟩ := List.exists_mem_of_ne_nil _ (hop _ _ hmeans).ne_nil
  refine List.all_eq_false.mpr ⟨c, by simp [hc], ?_⟩
  simp [(hop _ _ hmeans).solid c hc]

theorem Padded.plain (h : Padded means t v) : ∀ c ∈ t, c ∉ signs := by
  obtain ⟨hbefore, hmeans, hafter⟩ := h
  intro c hc
  rcases List.mem_append.mp hc with hc | hc
  · rcases List.mem_append.mp hc with hc | hc
    · exact not_mem_signs_of_isWhite hbefore c hc
    · exact (hop _ _ hmeans).plain c hc
  · exact not_mem_signs_of_isWhite hafter c hc

theorem Padded.not_mem (h : Padded means t v) {sign : Char} (hsign : sign ∈ signs) : sign ∉ t :=
  fun hmem => h.plain hop sign hmem hsign

theorem Padded.isBare (h : Padded means t v) : IsBare t :=
  isBare_of_not_mem (h.not_mem hop (by decide)) (h.not_mem hop (by decide))

theorem Padded.head?_ne (h : Padded means t v) : t.head? ≠ some '=' :=
  fun heq => h.not_mem hop (by decide) (List.mem_of_mem_head? heq)

/-- No item of a list holds a sign, and none is blank. -/
theorem padded_of_mem {items : List Text} {vs : List α} (h : List.Forall₂ (Padded means) items vs) :
    ∀ item ∈ items, isWhite item = false ∧ ∀ c ∈ item, c ∉ signs := by
  induction h with
  | nil => simp
  | cons hitem _ ih =>
    rw [List.forall_mem_cons]
    exact ⟨⟨hitem.not_white hop, hitem.plain hop⟩, ih⟩

/-- The items of a list bring no sign but the commas between them. -/
theorem eq_comma_of_mem {items : List Text} {vs : List α}
    (h : List.Forall₂ (Padded means) items vs) {sign : Char} (hsign : sign ∈ signs)
    (hmem : sign ∈ joinWith ',' items) : sign = ',' := by
  rcases mem_joinWith hmem with hcomma | ⟨item, hitem, hin⟩
  · exact hcomma
  · exact absurd hsign ((padded_of_mem hop h item hitem).2 sign hin)

/-- **A spelling of a range is a written form of it,** and of no other range. -/
theorem Spelled.written (h : Spelled means t range) : Written means t range := by
  cases h with
  | eq h =>
    exact .eq (h.isBare hop) (not_hasDots (h.not_mem hop (by decide))) (h.not_mem hop (by decide))
      (h.trim hop)
  | gt h => exact .gt (h.head?_ne hop) (h.trim hop)
  | gte h => exact .gte (h.trim hop)
  | lt h => exact .lt (h.head?_ne hop) (h.trim hop)
  | lte h => exact .lte (h.trim hop)
  | between ha hb =>
    exact .between (ha.isBare hop) (not_hasDots_concat (ha.not_mem hop (by decide)))
      (ha.not_white hop) (hb.not_white hop) (ha.trim hop) (hb.trim hop)
  | atMost hlow h =>
    have hdot : '.' ∉ _ := fun hmem => not_mem_signs_of_isWhite hlow '.' hmem (by decide)
    exact .atMost (not_hasDots_concat hdot) hlow (h.not_white hop) (h.trim hop)
  | atLeast h hhigh =>
    exact .atLeast (h.isBare hop) (not_hasDots_concat (h.not_mem hop (by decide)))
      (h.not_white hop) hhigh (h.trim hop)
  | @oneOf items vs hleast hmost h =>
    have hno {sign : Char} (hsign : sign ∈ signs) (hne : sign ≠ ',') : sign ∉ joinWith ',' items :=
      fun hmem => hne (eq_comma_of_mem hop h hsign hmem)
    have hlength : items.length = vs.length := h.length_eq
    have hcomma : ',' ∈ joinWith ',' items := by
      match items, hlength with
      | first :: second :: rest, _ =>
        rw [joinWith_cons_cons]
        exact List.mem_append_right _ List.mem_cons_self
      | [_], hlength => simp only [List.length_singleton] at hlength; omega
      | [], hlength => simp only [List.length_nil] at hlength; omega
    have hkept : (items.filter (!isWhite ·)).take maxItems = items := by
      rw [List.filter_eq_self.mpr fun item hitem => by
        simp [(padded_of_mem hop h item hitem).1], List.take_of_length_le (by omega)]
    refine .oneOf (isBare_of_not_mem (hno (by decide) (by decide)) (hno (by decide) (by decide)))
      (not_hasDots (hno (by decide) (by decide))) hcomma
      (fun item hitem hmem => (padded_of_mem hop h item hitem).2 ',' hmem (by decide))
      (by rintro rfl; simp at hleast) ?_
    rw [hkept]
    exact h.imp fun item v hitem => hitem.trim hop

end Padded

/-! ## Printing -/

/-- A range in its plainest spelling, without white space. -/
def text (print : α → Text) : Range α → Text
  | eq v => print v
  | gt v => '>' :: print v
  | gte v => '>' :: '=' :: print v
  | lt v => '<' :: print v
  | lte v => '<' :: '=' :: print v
  | between low high => print low ++ '.' :: '.' :: print high
  | oneOf vs => joinWith ',' (vs.map print)

/-- A range that can be spelled: a list has two values at least, and no more than are read. -/
def IsSpellable : Range α → Prop
  | oneOf vs => 2 ≤ vs.length ∧ vs.length ≤ maxItems
  | _ => True

theorem padded_self (h : means t v) : Padded means t v := by
  have hpadded : Padded means ([] ++ t ++ []) v := .intro rfl h rfl
  simpa using hpadded

/-- **A range is spelled by its text,** if the bounds are by theirs. -/
theorem spelled_text {print : α → Text} (hprint : ∀ v, means (print v) v) (range : Range α)
    (hshort : range.IsSpellable) : Spelled means (range.text print) range := by
  have hpadded (v : α) : Padded means (print v) v := padded_self (hprint v)
  cases range with
  | eq v => exact .eq (hpadded v)
  | gt v => exact .gt (hpadded v)
  | gte v => exact .gte (hpadded v)
  | lt v => exact .lt (hpadded v)
  | lte v => exact .lte (hpadded v)
  | between low high => exact .between (hpadded low) (hpadded high)
  | oneOf vs =>
    refine .oneOf hshort.1 hshort.2 ?_
    rw [List.forall₂_map_left_iff, List.forall₂_same]
    exact fun v _ => hpadded v

/-! ## Bounds under a condition -/

/-- A range stays written if its bounds may be said in other words. -/
theorem Written.imp {means' : Text → α → Prop} (h : Written means t range)
    (himp : ∀ t, ∀ v ∈ range.bounds, means t v → means' t v) : Written means' t range := by
  cases h with
  | gte h => exact .gte (himp _ _ (by simp [bounds]) h)
  | lte h => exact .lte (himp _ _ (by simp [bounds]) h)
  | gt heq h => exact .gt heq (himp _ _ (by simp [bounds]) h)
  | lt heq h => exact .lt heq (himp _ _ (by simp [bounds]) h)
  | between hbare hdots hlow hhigh ha hb =>
    exact .between hbare hdots hlow hhigh (himp _ _ (by simp [bounds]) ha)
      (himp _ _ (by simp [bounds]) hb)
  | atMost hdots hlow hhigh h => exact .atMost hdots hlow hhigh (himp _ _ (by simp [bounds]) h)
  | atLeast hbare hdots hlow hhigh h =>
    exact .atLeast hbare hdots hlow hhigh (himp _ _ (by simp [bounds]) h)
  | oneOf hbare hdots hcomma hpieces hne h =>
    refine .oneOf hbare hdots hcomma hpieces hne (List.forall₂_iff_zip.mpr ⟨h.length_eq, ?_⟩)
    intro piece v hmem
    exact himp _ _ (List.of_mem_zip hmem).2 ((List.forall₂_iff_zip.mp h).2 hmem)
  | eq hbare hdots hcomma h => exact .eq hbare hdots hcomma (himp _ _ (by simp [bounds]) h)

/-- Every bound of a range that is written is written somewhere. -/
theorem Written.exists_means (h : Written means t range) (hv : v ∈ range.bounds) :
    ∃ t, means t v := by
  cases h with
  | gte h | lte h | gt _ h | lt _ h | atMost _ _ _ h | atLeast _ _ _ _ h | eq _ _ _ h =>
    obtain rfl := List.mem_singleton.mp hv
    exact ⟨_, h⟩
  | between _ _ _ _ ha hb =>
    rcases List.mem_pair.mp hv with rfl | rfl
    · exact ⟨_, ha⟩
    · exact ⟨_, hb⟩
  | oneOf _ _ _ _ _ h =>
    obtain ⟨i, hi, rfl⟩ := List.mem_iff_getElem.mp hv
    exact ⟨_, (List.forall₂_iff_get.mp h).2 i (h.length_eq ▸ hi) hi⟩

/-- **Where bounds of one kind only are read, the ranges that are written with such bounds are.** -/
theorem written_and_iff {P : α → Prop} : Written (fun t v => means t v ∧ P v) t range
    ↔ Written means t range ∧ ∀ v ∈ range.bounds, P v := by
  constructor
  · intro h
    refine ⟨h.imp fun _ _ _ hboth => hboth.1, fun v hv => ?_⟩
    obtain ⟨_, _, hP⟩ := h.exists_means hv
    exact hP
  · rintro ⟨h, hP⟩
    exact h.imp fun _ v hv hmeans => ⟨hmeans, hP v hv⟩

/-- A text is a written form of one range at most, if the bounds are read. -/
theorem Written.unique {operand : Text → Option α} {other : Range α}
    (hoperand : ∀ t v, operand t = some v ↔ means t v) (h : Written means t range)
    (h' : Written means t other) : range = other := by
  have hmeans : means = fun t v => operand t = some v := by
    funext t v
    exact propext (hoperand t v).symm
  rw [hmeans, ← read?_eq_some_iff] at h h'
  exact Option.some.inj (h.symm.trans h')

end Range

/-! ## Ranges of integers -/

section Integers

variable {value : Text} {range : Range Int}

/-- A numeral holds digits and a sign of its own, and none of the signs of ranges. -/
theorem isOperand_of_isNumeral {t : Text} {n : Int} (h : IsNumeral t n) : Range.IsOperand t := by
  have hdigit : ∀ c, isDigit c = true → isSpace c = false ∧ c ∉ Range.signs := fun c hc =>
    of_isDigit (P := fun c => isSpace c = false ∧ c ∉ Range.signs) (by decide) hc
  have hchars : t ≠ [] ∧ ∀ c ∈ t, isSpace c = false ∧ c ∉ Range.signs := by
    cases h with
    | bare h => exact ⟨h.ne_nil, fun c hc => hdigit c (h.isDigit c hc)⟩
    | plus h | minus h =>
      refine ⟨List.cons_ne_nil _ _, List.forall_mem_cons.mpr ⟨by decide, ?_⟩⟩
      exact fun c hc => hdigit c (h.isDigit c hc)
  exact ⟨hchars.1, fun c hc => (hchars.2 c hc).1, fun c hc => (hchars.2 c hc).2⟩

/-- Ranges of integers are read as they are written, if all their bounds fit. -/
theorem read?_integers : Range.read? readInt? value = some range
    ↔ Range.Written IsNumeral value range ∧ ∀ n ∈ range.bounds, fitsInt64 n = true := by
  have hmeans : (fun t n => readInt? t = some n)
      = fun t n => IsNumeral t n ∧ fitsInt64 n = true := by
    funext t n
    exact propext readInt?_eq_some_iff
  rw [Range.read?_eq_some_iff, hmeans, Range.written_and_iff]

theorem readIntRange_eq_ok_iff {m : Metatag} :
    Compiler.coerced m value (Value.readIntRange value) = .ok range
      ↔ Range.Written IsNumeral value range ∧ ∀ n ∈ range.bounds, fitsInt64 n = true := by
  rw [← read?_integers, Value.readIntRange]
  cases Range.read? readInt? value <;> simp [Value.orReason, Compiler.coerced]

theorem readIntRange_of_read?_eq_none {m : Metatag} (h : Range.read? readInt? value = none) :
    Compiler.coerced m value (Value.readIntRange value)
      = .error (.invalidValue m.name.toList value .notIntegerRange) := by
  rw [Value.readIntRange, h]
  rfl

end Integers

/-- **Ranges of integers are read as they are spelled, and printed as they are read.** A spelling of
a range is read as that range if all its bounds fit into 64 bits; if one does not, the answer is the
error that names the metatag and the whole value. Every range is spelled by its own text. Whatever
is read has bounds that fit, and is what the value is a written form of: no bound is ever another
number than the one that is written. -/
theorem readIntRange_spelled (m : Metatag) :
    (∀ value range, Range.Spelled IsNumeral value range →
        ((∀ n ∈ range.bounds, fitsInt64 n = true) →
          Compiler.coerced m value (Value.readIntRange value) = .ok range)
        ∧ ((∃ n ∈ range.bounds, fitsInt64 n = false) →
          Compiler.coerced m value (Value.readIntRange value)
            = .error (.invalidValue m.name.toList value .notIntegerRange)))
      ∧ (∀ range : Range Int, range.IsSpellable →
          Range.Spelled IsNumeral (range.text intText) range)
      ∧ ∀ value range, Compiler.coerced m value (Value.readIntRange value) = .ok range
          ↔ Range.Written IsNumeral value range ∧ ∀ n ∈ range.bounds, fitsInt64 n = true := by
  refine ⟨fun value range hspelled => ?_, Range.spelled_text isNumeral_intText,
    fun value range => readIntRange_eq_ok_iff⟩
  have hwritten : Range.Written IsNumeral value range :=
    hspelled.written fun t n => isOperand_of_isNumeral
  constructor
  · intro hfits
    exact readIntRange_eq_ok_iff.mpr ⟨hwritten, hfits⟩
  · rintro ⟨n, hn, hlarge⟩
    cases hread : Range.read? readInt? value with
    | none => exact readIntRange_of_read?_eq_none hread
    | some other =>
      -- what would be read is written as well, and so it has the bound that is too large
      obtain ⟨hother, hfits⟩ := read?_integers.mp hread
      obtain rfl : range = other :=
        hwritten.unique (fun t n => readSigned?_eq_some_iff) hother
      rw [hfits n hn] at hlarge
      exact absurd hlarge (by decide)

/-- From the smallest integer of 64 bits to the largest, and a list with the one after. -/
theorem readIntRange_spelled_extremes :
    Range.Spelled IsNumeral "-9223372036854775808 .. 9223372036854775807\n".toList
        (.between minInt64 maxInt64)
      ∧ Compiler.coerced .score "-9223372036854775808 .. 9223372036854775807\n".toList
          (Value.readIntRange "-9223372036854775808 .. 9223372036854775807\n".toList)
        = .ok (.between minInt64 maxInt64)
      ∧ Range.Spelled IsNumeral "-1 , 9223372036854775808".toList
          (.oneOf [-1, 9223372036854775808])
      ∧ Compiler.coerced .score "-1 , 9223372036854775808".toList
          (Value.readIntRange "-1 , 9223372036854775808".toList)
        = .error (.invalidValue "score".toList "-1 , 9223372036854775808".toList
            .notIntegerRange) := by
  have hleast : IsNumeral "-9223372036854775808".toList minInt64 :=
    readSigned?_eq_some_iff.mp (by decide)
  have hmost : IsNumeral "9223372036854775807".toList maxInt64 :=
    readSigned?_eq_some_iff.mp (by decide)
  have hminus : IsNumeral "-1".toList (-1) := readSigned?_eq_some_iff.mp (by decide)
  have hlarge : IsNumeral "9223372036854775808".toList 9223372036854775808 :=
    readSigned?_eq_some_iff.mp (by decide)
  have hnone : isWhite [] = true := rfl
  have hspace : isWhite [' '] = true := by decide
  have hline : isWhite ['\n'] = true := by decide
  have hwide := Range.Spelled.between (.intro hnone hleast hspace) (.intro hspace hmost hline)
  have hlist : Range.Spelled IsNumeral (joinWith ',' _) (.oneOf [-1, 9223372036854775808]) :=
    .oneOf (by decide) (by decide)
      (.cons (.intro hnone hminus hspace) (.cons (.intro hspace hlarge hnone) .nil))
  have hread := readIntRange_spelled .score
  exact ⟨hwide, (hread.1 _ _ hwide).1 (by decide), hlist,
    (hread.1 _ _ hlist).2 ⟨9223372036854775808, by decide, by decide⟩⟩

end TagSearch
