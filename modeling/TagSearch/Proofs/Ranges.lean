import Mathlib.Data.List.Forall2
import TagSearch.Proofs.Pieces
import TagSearch.Range

/-!
# Ranges, written and moved

`Range.Written` is the grammar of ranges: which texts stand for which range, for any way of writing
the bounds. Reading finds what is written and nothing else (`read?_eq_some_iff`), so a text stands for
one range at most.

Bounds may be moved by a function that is defined for some of them only (`map?_eq_some`,
`map?_eq_none`). What a range says is kept by a function that turns the order round, once the
comparisons are turned round as well (`holds_flip_map`).
-/

namespace TagSearch.Range

open Text

variable {α β : Type}

/-! ## The written form -/

/-- Two dots in a row. -/
def HasDots (t : Text) : Prop :=
  ['.', '.'] <:+: t

/-- A text that starts with no comparison. -/
def IsBare (t : Text) : Prop :=
  t.head? ≠ some '<' ∧ t.head? ≠ some '>'

/-- A range is written in one of these forms, where `means` says which bound a text without
surrounding white space stands for. In a list blank items are passed over, and so is what comes after
the longest list. -/
inductive Written (means : Text → α → Prop) : Text → Range α → Prop
  | gte {t : Text} {v : α} (h : means t.trim v) : Written means ('>' :: '=' :: t) (gte v)
  | lte {t : Text} {v : α} (h : means t.trim v) : Written means ('<' :: '=' :: t) (lte v)
  | gt {t : Text} {v : α} (heq : t.head? ≠ some '=') (h : means t.trim v) :
    Written means ('>' :: t) (gt v)
  | lt {t : Text} {v : α} (heq : t.head? ≠ some '=') (h : means t.trim v) :
    Written means ('<' :: t) (lt v)
  /-- The dots are the first ones, as in the next two. -/
  | between {low high : Text} {a b : α} (hbare : IsBare low) (hdots : ¬ HasDots (low ++ ['.']))
    (hlow : isWhite low = false) (hhigh : isWhite high = false)
    (ha : means low.trim a) (hb : means high.trim b) :
    Written means (low ++ '.' :: '.' :: high) (between a b)
  | atMost {low high : Text} {v : α} (hdots : ¬ HasDots (low ++ ['.']))
    (hlow : isWhite low = true) (hhigh : isWhite high = false) (h : means high.trim v) :
    Written means (low ++ '.' :: '.' :: high) (lte v)
  | atLeast {low high : Text} {v : α} (hbare : IsBare low) (hdots : ¬ HasDots (low ++ ['.']))
    (hlow : isWhite low = false) (hhigh : isWhite high = true) (h : means low.trim v) :
    Written means (low ++ '.' :: '.' :: high) (gte v)
  | oneOf {pieces : List Text} {vs : List α} (hbare : IsBare (joinWith ',' pieces))
    (hdots : ¬ HasDots (joinWith ',' pieces)) (hcomma : ',' ∈ joinWith ',' pieces)
    (hpieces : ∀ piece ∈ pieces, ',' ∉ piece) (hne : vs ≠ [])
    (h : List.Forall₂ (fun piece v => means piece.trim v)
      ((pieces.filter (!isWhite ·)).take maxItems) vs) :
    Written means (joinWith ',' pieces) (oneOf vs)
  | eq {t : Text} {v : α} (hbare : IsBare t) (hdots : ¬ HasDots t) (hcomma : ',' ∉ t)
    (h : means t.trim v) : Written means t (eq v)

section Reading

variable {operand : Text → Option α} {t low high : Text} {range : Range α}

theorem hasDots_cons {c : Char} {t : Text} :
    HasDots (c :: t) ↔ c = '.' ∧ t.head? = some '.' ∨ HasDots t := by
  rw [HasDots, List.infix_cons_iff, HasDots]
  refine or_congr_left ?_
  cases t <;> simp [eq_comm]

theorem cutDots?_cons (c : Char) (t : Text) : cutDots? (c :: t)
    = if c = '.' ∧ t.head? = some '.' then some ([], t.tail)
      else (cutDots? t).map fun (low, high) => (c :: low, high) := by
  split
  · next h =>
    obtain ⟨rfl, h⟩ := h
    cases t with
    | nil => simp at h
    | cons d t =>
      obtain rfl : d = '.' := by simpa using h
      rfl
  · next h =>
    rw [cutDots?]
    rintro rest rfl rfl
    exact h ⟨rfl, rfl⟩

/-- A text is cut at the first two dots in a row. -/
theorem cutDots?_eq_some_iff : cutDots? t = some (low, high)
    ↔ t = low ++ '.' :: '.' :: high ∧ ¬ HasDots (low ++ ['.']) := by
  induction t generalizing low with
  | nil => simp [cutDots?]
  | cons c t ih =>
    rw [cutDots?_cons]
    constructor
    · intro h
      split at h
      · next hdots =>
        obtain ⟨rfl, hdots⟩ := hdots
        obtain ⟨d, t, rfl⟩ := List.exists_cons_of_ne_nil (show t ≠ [] by rintro rfl; simp at hdots)
        obtain rfl : d = '.' := by simpa using hdots
        simp only [List.tail_cons, Option.some.injEq, Prod.mk.injEq] at h
        obtain ⟨rfl, rfl⟩ := h
        exact ⟨rfl, by simp [HasDots, List.infix_cons_iff]⟩
      · next hdots =>
        obtain ⟨⟨before, after⟩, hcut, h⟩ := Option.map_eq_some_iff.mp h
        obtain ⟨rfl, rfl⟩ := Prod.mk.inj h
        obtain ⟨rfl, hnone⟩ := ih.mp hcut
        refine ⟨rfl, fun h => ?_⟩
        rw [List.cons_append, hasDots_cons] at h
        refine h.elim (fun ⟨hc, hhead⟩ => hdots ⟨hc, ?_⟩) hnone
        cases before <;> simp_all
    · rintro ⟨heq, hnone⟩
      cases low with
      | nil =>
        obtain ⟨rfl, rfl⟩ := List.cons.inj heq
        simp
      | cons d low =>
        obtain ⟨rfl, rfl⟩ := List.cons.inj heq
        rw [List.cons_append, hasDots_cons, not_or] at hnone
        have hdots : ¬ (c = '.' ∧ (low ++ '.' :: '.' :: high).head? = some '.') := by
          rintro ⟨hc, hhead⟩
          exact hnone.1 ⟨hc, by cases low <;> simp_all⟩
        exact (if_neg hdots).trans (by rw [ih.mpr ⟨rfl, hnone.2⟩, Option.map_some])

theorem cutDots?_eq_none_iff : cutDots? t = none ↔ ¬ HasDots t := by
  induction t with
  | nil => simp [cutDots?, HasDots]
  | cons c t ih =>
    rw [cutDots?_cons, hasDots_cons]
    split
    · next h => simp [h]
    · next h => simp [h, ih]

theorem mapM_eq_some_iff {f : α → Option β} {items : List α} {vs : List β} :
    items.mapM f = some vs ↔ List.Forall₂ (fun item v => f item = some v) items vs := by
  induction items generalizing vs with
  | nil => simp [eq_comm]
  | cons item items ih =>
    simp only [List.mapM_cons, Option.bind_eq_bind, Option.bind_eq_some_iff, Option.pure_def,
      Option.some.injEq, List.forall₂_cons_left_iff, ih]
    constructor
    · rintro ⟨v, hv, rest, hrest, rfl⟩
      exact ⟨v, rest, hv, hrest, rfl⟩
    · rintro ⟨v, rest, hv, hrest, rfl⟩
      exact ⟨v, hv, rest, hrest, rfl⟩

theorem mapM_eq_none {f : α → Option β} {items : List α} {item : α} (hitem : item ∈ items)
    (h : f item = none) : items.mapM f = none := by
  induction items with
  | nil => simp at hitem
  | cons first items ih =>
    rw [List.mapM_cons]
    rcases List.mem_cons.mp hitem with rfl | hitem
    · simp [h]
    · cases hfirst : f first <;> simp [ih hitem]

/-- A text that starts with no comparison is an interval, a list or one value. -/
theorem read?_of_isBare (h : IsBare t) : read? operand t = match cutDots? t with
    | some (low, high) => readInterval? operand low high
    | none => if t.contains ',' then readList? operand t else eq <$> operand t.trim := by
  unfold read?
  split
  · exact absurd rfl h.2
  · exact absurd rfl h.1
  · exact absurd rfl h.2
  · exact absurd rfl h.1
  · rfl

theorem read?_gt (h : t.head? ≠ some '=') : read? operand ('>' :: t) = gt <$> operand t.trim := by
  unfold read?
  split <;> simp_all

theorem read?_lt (h : t.head? ≠ some '=') : read? operand ('<' :: t) = lt <$> operand t.trim := by
  unfold read?
  split <;> simp_all

/-- Texts that start with a comparison. -/
theorem exists_comparison (h : ¬ IsBare t) : ∃ c rest, t = c :: rest ∧ (c = '<' ∨ c = '>') := by
  cases t with
  | nil => simp [IsBare] at h
  | cons c rest =>
    rw [IsBare, Classical.not_and_iff_not_or_not, not_not, not_not] at h
    exact ⟨c, rest, rfl, by simpa using h⟩

theorem isBare_append_dots : IsBare (low ++ '.' :: '.' :: high) ↔ IsBare low := by
  cases low <;> simp [IsBare]

theorem isBare_of_isWhite (h : isWhite low = true) : IsBare low := by
  cases low with
  | nil => simp [IsBare]
  | cons c low =>
    rw [isWhite, List.all_cons, Bool.and_eq_true] at h
    constructor <;> rintro heq <;> rw [List.head?_cons, Option.some.injEq] at heq <;>
      exact absurd (heq ▸ h.1) (by decide)

theorem readInterval?_eq_some_iff : readInterval? operand low high = some range ↔
    (isWhite low = false ∧ isWhite high = false
        ∧ ∃ a b, operand low.trim = some a ∧ operand high.trim = some b ∧ range = between a b)
      ∨ (isWhite low = true ∧ isWhite high = false ∧ ∃ v, operand high.trim = some v ∧ range = lte v)
      ∨ (isWhite low = false ∧ isWhite high = true
        ∧ ∃ v, operand low.trim = some v ∧ range = gte v) := by
  rw [readInterval?]
  cases isWhite low <;> cases isWhite high <;>
    simp [Option.bind_eq_some_iff, eq_comm (b := range)]

theorem readList?_eq_some_iff : readList? operand t = some range ↔ ∃ pieces vs,
    (∀ piece ∈ pieces, ',' ∉ piece) ∧ t = joinWith ',' pieces ∧ vs ≠ []
      ∧ List.Forall₂ (fun piece v => operand piece.trim = some v)
          ((pieces.filter (!isWhite ·)).take maxItems) vs
      ∧ range = oneOf vs := by
  have hitems : ∀ items : List Text, (if items.isEmpty then none
      else oneOf <$> items.mapM fun item => operand item.trim) = some range ↔ ∃ vs, vs ≠ []
        ∧ List.Forall₂ (fun item v => operand item.trim = some v) items vs ∧ range = oneOf vs := by
    intro items
    cases items with
    | nil => simp
    | cons item items =>
      rw [List.isEmpty_cons, if_neg Bool.false_ne_true, Option.map_eq_map, Option.map_eq_some_iff]
      simp only [mapM_eq_some_iff]
      constructor
      · rintro ⟨vs, hvs, rfl⟩
        exact ⟨vs, fun hnil => by simp [hnil] at hvs, hvs, rfl⟩
      · rintro ⟨vs, -, hvs, rfl⟩
        exact ⟨vs, hvs, rfl⟩
  rw [readList?, hitems]
  constructor
  · rintro ⟨vs, hne, hvs, rfl⟩
    exact ⟨t.splitOn ',', vs, fun piece => not_mem_of_mem_splitOn, (joinWith_splitOn ',' t).symm,
      hne, hvs, rfl⟩
  · rintro ⟨pieces, vs, hpieces, rfl, hne, hvs, rfl⟩
    have hpieces_ne : pieces ≠ [] := by
      rintro rfl
      cases hvs
      exact hne rfl
    exact ⟨vs, hne, by rwa [splitOn_joinWith hpieces_ne hpieces], rfl⟩

/-- What is read without a comparison: an interval, a list or one value. -/
theorem written_of_isBare (hbare : IsBare t) (h : read? operand t = some range) :
    Written (fun t v => operand t = some v) t range := by
  rw [read?_of_isBare hbare] at h
  split at h
  · next low high hcut =>
    obtain ⟨rfl, hdots⟩ := cutDots?_eq_some_iff.mp hcut
    have hlow := isBare_append_dots.mp hbare
    rcases readInterval?_eq_some_iff.mp h with ⟨hl, hh, a, b, ha, hb, rfl⟩ | ⟨hl, hh, v, hv, rfl⟩
      | ⟨hl, hh, v, hv, rfl⟩
    · exact .between hlow hdots hl hh ha hb
    · exact .atMost hdots hl hh hv
    · exact .atLeast hlow hdots hl hh hv
  · next hcut =>
    have hdots := cutDots?_eq_none_iff.mp hcut
    split at h
    · next hcomma =>
      obtain ⟨pieces, vs, hpieces, rfl, hne, hvs, rfl⟩ := readList?_eq_some_iff.mp h
      exact .oneOf hbare hdots (List.contains_iff_mem.mp hcomma) hpieces hne hvs
    · next hcomma =>
      obtain ⟨v, hv, rfl⟩ := Option.map_eq_some_iff.mp h
      exact .eq hbare hdots (fun hmem => hcomma (List.contains_iff_mem.mpr hmem)) hv

/-- What is read after a comparison: one bound. -/
theorem written_of_comparison {c : Char} (hc : c = '<' ∨ c = '>')
    (h : read? operand (c :: t) = some range) :
    Written (fun t v => operand t = some v) (c :: t) range := by
  by_cases heq : t.head? = some '='
  · obtain ⟨d, t, rfl⟩ := List.exists_cons_of_ne_nil (show t ≠ [] by rintro rfl; simp at heq)
    obtain rfl : d = '=' := by simpa using heq
    rcases hc with rfl | rfl
    · obtain ⟨v, hv, rfl⟩ := Option.map_eq_some_iff.mp h
      exact .lte hv
    · obtain ⟨v, hv, rfl⟩ := Option.map_eq_some_iff.mp h
      exact .gte hv
  · rcases hc with rfl | rfl
    · rw [read?_lt heq] at h
      obtain ⟨v, hv, rfl⟩ := Option.map_eq_some_iff.mp h
      exact .lt heq hv
    · rw [read?_gt heq] at h
      obtain ⟨v, hv, rfl⟩ := Option.map_eq_some_iff.mp h
      exact .gt heq hv

theorem read?_of_written (h : Written (fun t v => operand t = some v) t range) :
    read? operand t = some range := by
  cases h with
  | gte hv => simp [read?, hv]
  | lte hv => simp [read?, hv]
  | gt heq hv => simp [read?_gt heq, hv]
  | lt heq hv => simp [read?_lt heq, hv]
  | between hbare hdots hl hh ha hb =>
    rw [read?_of_isBare (isBare_append_dots.mpr hbare), cutDots?_eq_some_iff.mpr ⟨rfl, hdots⟩]
    exact readInterval?_eq_some_iff.mpr (Or.inl ⟨hl, hh, _, _, ha, hb, rfl⟩)
  | atMost hdots hl hh hv =>
    rw [read?_of_isBare (isBare_append_dots.mpr (isBare_of_isWhite hl)),
      cutDots?_eq_some_iff.mpr ⟨rfl, hdots⟩]
    exact readInterval?_eq_some_iff.mpr (Or.inr (Or.inl ⟨hl, hh, _, hv, rfl⟩))
  | atLeast hbare hdots hl hh hv =>
    rw [read?_of_isBare (isBare_append_dots.mpr hbare), cutDots?_eq_some_iff.mpr ⟨rfl, hdots⟩]
    exact readInterval?_eq_some_iff.mpr (Or.inr (Or.inr ⟨hl, hh, _, hv, rfl⟩))
  | oneOf hbare hdots hcomma hpieces hne hvs =>
    rw [read?_of_isBare hbare, cutDots?_eq_none_iff.mpr hdots]
    simp only [List.contains_iff_mem.mpr hcomma, if_true]
    exact readList?_eq_some_iff.mpr ⟨_, _, hpieces, rfl, hne, hvs, rfl⟩
  | eq hbare hdots hcomma hv =>
    rw [read?_of_isBare hbare, cutDots?_eq_none_iff.mpr hdots]
    simp [hcomma, hv]

/-- **Reading finds what is written, and nothing else.** -/
theorem read?_eq_some_iff :
    read? operand t = some range ↔ Written (fun t v => operand t = some v) t range := by
  refine ⟨fun h => ?_, read?_of_written⟩
  by_cases hbare : IsBare t
  · exact written_of_isBare hbare h
  · obtain ⟨c, rest, rfl, hc⟩ := exists_comparison hbare
    exact written_of_comparison hc h

end Reading

/-! ## Bounds -/

/-- The values that a range compares with. -/
def bounds : Range α → List α
  | eq v | gt v | gte v | lt v | lte v => [v]
  | between low high => [low, high]
  | oneOf vs => vs

variable {range : Range α}

@[simp] theorem bounds_map (f : α → β) (range : Range α) :
    (range.map f).bounds = range.bounds.map f := by
  cases range <;> rfl

@[simp] theorem map_map {γ : Type} (f : α → β) (g : β → γ) (range : Range α) :
    (range.map f).map g = range.map (g ∘ f) := by
  cases range <;> simp [map]

/-- Turning the comparisons round keeps the bounds. -/
theorem mem_bounds_flip {v : α} : v ∈ range.flip.bounds ↔ v ∈ range.bounds := by
  cases range <;> simp [flip, bounds, or_comm]

/-- Bounds that can all be moved are. -/
theorem map?_eq_some {f : α → Option β} {g : α → β} (h : ∀ v ∈ range.bounds, f v = some (g v)) :
    range.map? f = some (range.map g) := by
  cases range with
  | oneOf vs =>
    have hvs : vs.mapM f = some (vs.map g) := by
      rw [mapM_eq_some_iff, List.forall₂_map_right_iff, List.forall₂_same]
      exact h
    simp [map?, map, hvs]
  | _ => simp_all [bounds, map?, map]

/-- A range with a bound that cannot be moved cannot. -/
theorem map?_eq_none {f : α → Option β} {v : α} (hv : v ∈ range.bounds) (h : f v = none) :
    range.map? f = none := by
  cases range with
  | oneOf vs =>
    have hvs : vs.mapM f = none := mapM_eq_none hv h
    simp [map?, hvs]
  | between low high =>
    rcases List.mem_pair.mp hv with rfl | rfl
    · simp [map?, h]
    · cases hlow : f low <;> simp [map?, h, hlow]
  | _ => simp_all [bounds, map?]

/-- **What a range says is kept by a function that turns the order round,** if the comparisons are
turned round as well. -/
theorem holds_flip_map [LT α] [LE α] [LT β] [LE β] {f : α → β} (heq : ∀ a b, f a = f b ↔ a = b)
    (hle : ∀ a b, f a ≤ f b ↔ b ≤ a) (hlt : ∀ a b, f a < f b ↔ b < a) (x : α) (range : Range α) :
    (range.map f).flip.holds (f x) ↔ range.holds x := by
  cases range with
  | oneOf vs => simp [map, flip, holds, List.mem_map, heq]
  | between low high => simp [map, flip, holds, hle, and_comm]
  | _ => simp [map, flip, holds, heq, hle, hlt]

end TagSearch.Range
