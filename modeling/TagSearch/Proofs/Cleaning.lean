import TagSearch.Proofs.Joining
import TagSearch.Proofs.NormalForm

/-!
# Searches that stay clean

A search is cleaned once, as a whole. The levels inside its groups, and the groups that are written
anew, are cleaned again each on its own; that does nothing, because the boundaries of tokens are
inert characters.

* `Piecewise`: what holds of a text just if it holds of the pieces between separators. Being plain
  and being stable are such properties, and so is having no NUL.
* `Piecewise.of_mem_tokensFrom`: such a property passes from a text to its tokens.
* `cleanSearch_eq_self`: what is composed, free of NULs and trimmed is left as it is.
-/

namespace TagSearch

open Text Lexer

/-! ## Trimming -/

section Trimming

variable {P : Text → Prop} {p : Char → Bool}
  (hcut : ∀ {c}, p c = true → ∀ before after, P (before ++ c :: after) → P before ∧ P after)

include hcut

theorem dropWhile_of_cut {t : Text} (h : P t) : P (t.dropWhile p) := by
  induction t with
  | nil => exact h
  | cons c t ih =>
    by_cases hc : p c = true
    · rw [List.dropWhile_cons_of_pos hc]
      exact ih (hcut hc [] t h).2
    · rwa [List.dropWhile_cons_of_neg hc]

/-- What a text has on both sides of the characters that are trimmed, it has once trimmed. -/
theorem trimBy_of_cut {t : Text} (h : P t) : P (t.trimBy p) := by
  have hback : ∀ reversed : Text, P reversed.reverse → P (reversed.dropWhile p).reverse := by
    intro reversed
    induction reversed with
    | nil => exact id
    | cons c reversed ih =>
      intro h
      by_cases hc : p c = true
      · rw [List.dropWhile_cons_of_pos hc]
        rw [List.reverse_cons] at h
        exact ih (hcut hc _ [] h).1
      · rwa [List.dropWhile_cons_of_neg hc]
  refine hback _ ?_
  rw [List.reverse_reverse]
  exact dropWhile_of_cut hcut h

end Trimming

theorem mem_of_mem_trimBy {p : Char → Bool} {t : Text} {c : Char} (h : c ∈ t.trimBy p) : c ∈ t := by
  rw [Text.trimBy, List.mem_reverse] at h
  have h := (List.dropWhile_sublist p).subset h
  exact (List.dropWhile_sublist p).subset (List.mem_reverse.mp h)

theorem trimBy_getLast? {p : Char → Bool} {t : Text} {c : Char}
    (h : (t.trimBy p).getLast? = some c) :
    p c = false := by
  rw [Text.trimBy, List.getLast?_reverse] at h
  have hnot := List.head?_dropWhile_not p (t.dropWhile p).reverse
  rw [h] at hnot
  simpa using hnot

theorem trimBy_head? {p : Char → Bool} {t : Text} {c : Char} (h : (t.trimBy p).head? = some c) :
    p c = false := by
  -- what is left is a front part of the text without its first characters
  have hsub : t.trimBy p <+: t.dropWhile p := by
    rw [← List.reverse_suffix, Text.trimBy, List.reverse_reverse]
    exact List.dropWhile_suffix p
  obtain ⟨rest, hrest⟩ := hsub
  have hnot := List.head?_dropWhile_not p t
  rw [← hrest, List.head?_append, h] at hnot
  simpa using hnot

/-- Trimming takes off both ends what is to be trimmed. -/
theorem exists_trimBy (p : Char → Bool) (t : Text) :
    ∃ left right, t = left ++ t.trimBy p ++ right ∧ (∀ c ∈ left, p c = true)
      ∧ ∀ c ∈ right, p c = true := by
  refine ⟨t.takeWhile p, ((t.dropWhile p).reverse.takeWhile p).reverse, ?_, ?_, ?_⟩
  · rw [Text.trimBy, List.append_assoc, ← List.reverse_append, List.takeWhile_append_dropWhile,
      List.reverse_reverse, List.takeWhile_append_dropWhile]
  · exact fun c hc => List.mem_takeWhile_imp hc
  · exact fun c hc => List.mem_takeWhile_imp (List.mem_reverse.mp hc)

/-! ## Pieces -/

/-- A character at which a text falls into pieces. -/
def Text.isSeparator (c : Char) : Bool :=
  isBlank c || c == '"' || c == '(' || c == ')'

theorem isSeparator_of_isBlank {c : Char} (h : isBlank c = true) : isSeparator c = true := by
  simp [isSeparator, h]

theorem isInert_of_isSeparator {c : Char} (h : isSeparator c = true) : isInert c = true := by
  simp only [isSeparator, isInert] at h ⊢
  rw [h]
  rfl

/-- A property that a text has just if the pieces between its separators have it. -/
structure Piecewise (P : Text → Prop) : Prop where
  modifier : ∀ modifier, P (Modifier.text modifier)
  cut : ∀ {c}, isSeparator c = true → ∀ before after, P (before ++ c :: after) ↔ P before ∧ P after

theorem piecewise_isStable : Piecewise IsStable where
  modifier modifier := by rcases modifier with _ | _ | _ <;> decide +kernel
  cut hc _ _ := isStable_inert (isInert_of_isSeparator hc)

/-- What holds of all characters, and of separators and modifiers in any case. -/
theorem piecewise_forall {P : Char → Prop} (hsep : ∀ c, isSeparator c = true → P c)
    (hsign : ∀ m : Modifier, P m.toChar) : Piecewise fun t => ∀ c ∈ t, P c where
  modifier modifier := by
    cases modifier with
    | none => simp [Modifier.text]
    | some m => simpa [Modifier.text] using hsign m
  cut hc before after := by
    rw [List.forall_mem_append, List.forall_mem_cons]
    exact ⟨fun h => ⟨h.1, h.2.2⟩, fun h => ⟨h.1, hsep _ hc, h.2⟩⟩

theorem piecewise_isPlain : Piecewise IsPlain := by
  refine piecewise_forall (fun c hc => ?_) (by rintro (_ | _) <;> decide)
  have hlt := Canonical.lt_of_mem_inert (Canonical.toNat_mem_inert (isInert_of_isSeparator hc))
  omega

theorem piecewise_noNul : Piecewise fun t => ∀ c ∈ t, c ≠ '\x00' := by
  refine piecewise_forall ?_ (by rintro (_ | _) <;> decide)
  rintro c hc rfl
  exact absurd hc (by decide)

/-- Where a token ends, a blank follows it, or its last character is a separator. -/
theorem readToken_boundary (offset : Nat) (t : Text) :
    StartsBlank (readToken offset t).2
      ∨ ∃ front c, (readToken offset t).1.text = front ++ [c] ∧ isSeparator c = true := by
  unfold readToken
  dsimp only
  cases hm : takeMetatag? (takeModifier t).2 with
  | some m =>
    rw [readBody_of_metatag hm]
    obtain ⟨name, value, quoted, rest⟩ := m
    cases quoted with
    | false => exact Or.inl ((isRead_of_takeMetatag? hm).bare rfl).2
    | true =>
      refine Or.inr ⟨Modifier.text (takeModifier t).1 ++ (name ++ ':' :: '"' :: value), '"', ?_,
        by decide⟩
      simp [MetatagParts.text, metatagText]
  | none =>
    cases hg : takeGroup? (takeModifier t).2 with
    | some pair =>
      rw [readBody_of_group hg]
      exact Or.inr ⟨Modifier.text (takeModifier t).1 ++ '(' :: pair.1, ')', by simp, by decide⟩
    | none =>
      rw [readBody_of_run hm hg]
      exact Or.inl (startsBlank_afterRun _)

namespace Piecewise

variable {P : Text → Prop} (hP : Piecewise P)

include hP

theorem nil : P [] := hP.modifier none

theorem cons {c : Char} (hc : isSeparator c = true) (t : Text) : P (c :: t) ↔ P t := by
  have h := hP.cut hc [] t
  simpa [hP.nil] using h

theorem concat {c : Char} (hc : isSeparator c = true) (t : Text) : P (t ++ [c]) ↔ P t := by
  simpa [hP.nil] using hP.cut hc t []

/-- Blanks in front make no difference. -/
theorem dropWhile {t : Text} (h : P t) : P (t.dropWhile isBlank) :=
  dropWhile_of_cut (fun hc before after => (hP.cut (isSeparator_of_isBlank hc) before after).mp) h

/-- A text falls apart where the second part starts blank. -/
theorem append_startsBlank {t rest : Text} (hr : StartsBlank rest) :
    P (t ++ rest) ↔ P t ∧ P rest := by
  cases rest with
  | nil => simp [hP.nil]
  | cons c rest =>
    have hc := isSeparator_of_isBlank (StartsBlank.cons_iff.mp hr)
    rw [hP.cut hc, hP.cons hc]

/-- A text falls apart where the first part ends with a separator. -/
theorem append_concat {c : Char} (hc : isSeparator c = true) (t rest : Text) :
    P (t ++ [c] ++ rest) ↔ P (t ++ [c]) ∧ P rest := by
  rw [List.append_assoc, List.singleton_append, hP.cut hc, hP.concat hc]

theorem trimBlanks {t : Text} (h : P t) : P t.trimBlanks :=
  trimBy_of_cut (fun hc before after => (hP.cut (isSeparator_of_isBlank hc) before after).mp) h

/-- **A text has the property just if a token at its start and what follows have it.** -/
theorem readToken_iff (offset : Nat) (t : Text) :
    P t ↔ P (readToken offset t).1.text ∧ P (readToken offset t).2 := by
  have heq := readToken_eq offset t
  rcases readToken_boundary offset t with hblank | ⟨front, c, htext, hc⟩
  · rw [← hP.append_startsBlank hblank, heq]
  · rw [htext] at heq ⊢
    rw [← hP.append_concat hc, heq]

theorem of_mem_tokensFrom {offset : Nat} {t : Text} (h : P t) {token : Token}
    (ht : token ∈ tokensFrom offset t) : P token.text := by
  fun_induction tokensFrom offset t with
  | case1 => simp at ht
  | case2 offset t c rest hd start read ih =>
    have hsplit := (hP.readToken_iff start (c :: rest)).mp (hd ▸ hP.dropWhile h)
    rcases List.mem_cons.mp ht with rfl | ht
    · exact hsplit.1
    · exact ih hsplit.2 ht

/-- The source of a group has the property if the group has it. -/
theorem source {token : Token} {rest source : Text} (hread : token.Reads rest)
    (hne : token.text ≠ []) (hbody : token.body = .group source) (h : P token.text) :
    P source := by
  obtain ⟨inside, htext, rfl, -⟩ := hread.exists_group hne hbody
  rw [htext, hP.cut (by decide), hP.concat (by decide)] at h
  exact hP.trimBlanks h.2

theorem unwords {pieces : List Text} (h : ∀ piece ∈ pieces, P piece) : P (unwords pieces) := by
  induction pieces with
  | nil => exact hP.nil
  | cons piece rest ih =>
    rw [List.forall_mem_cons] at h
    cases rest with
    | nil => simpa [Text.unwords] using h.1
    | cons next rest =>
      rw [unwords_cons_cons, hP.cut (by decide)]
      exact ⟨h.1, ih h.2⟩

/-- A group has the property if what it is written around has it. -/
theorem renderGroup {children : List Text} (h : ∀ child ∈ children, P child)
    (modifier : Option Modifier) : P (renderGroup (Modifier.text modifier) children) := by
  have hinner : P (Text.unwords (children.filter (!·.isEmpty))) :=
    hP.unwords fun child hchild => h child (List.mem_filter.mp hchild).1
  have hclosing : P [')'] := (hP.cons (by decide) []).mpr hP.nil
  unfold TagSearch.renderGroup
  dsimp only
  split
  · rw [hP.cut (by decide), hP.cons (by decide)]
    exact ⟨hP.modifier modifier, hclosing⟩
  · rw [hP.cut (by decide), hP.cons (by decide), hP.cut (by decide)]
    exact ⟨hP.modifier modifier, hinner, hclosing⟩

theorem ofGroup {tokens : List Token} (h : ∀ token ∈ tokens, P token.text)
    (modifier : Option Modifier) : P (Token.ofGroup modifier tokens).text :=
  hP.renderGroup (List.forall_mem_map.mpr h) modifier

end Piecewise

/-! ## Cleaning again -/

/-- A text that is composed and has no NUL. -/
structure IsClean (t : Text) : Prop where
  composed : t.compose = t
  noNul : ∀ c ∈ t, c ≠ '\x00'

/-- **A text made of the pieces of a clean one is clean.** -/
theorem IsClean.of_pieces {t t' : Text} (h : IsClean t)
    (hpieces : ∀ {P : Text → Prop}, Piecewise P → P t → P t') : IsClean t' where
  composed := by
    have hcomposed := h.composed
    rw [compose_eq_self_iff] at hcomposed ⊢
    exact hcomposed.imp (hpieces piecewise_isPlain) (hpieces piecewise_isStable)
  noNul := hpieces piecewise_noNul h.noNul

theorem cleanSearch_eq_self {t : Text} (h : IsClean t) (hstart : StartsSolid t)
    (hend : EndsSolid t) : cleanSearch t = t := by
  rw [cleanSearch, h.composed]
  refine trimBy_eq_self ?_ ?_
  · intro c hc
    simp [hstart c hc, h.noNul c (List.mem_of_mem_head? hc)]
  · intro c hc
    simp [hend c hc, h.noNul c (List.mem_of_getLast? hc)]

/-- A cleaned search is composed. -/
theorem compose_cleanSearch (t : Text) : (cleanSearch t).compose = cleanSearch t := by
  have h := compose_compose t
  rw [compose_eq_self_iff] at h ⊢
  refine h.imp (fun hplain => ?_) fun hstable => ?_
  · refine trimBy_of_cut (fun {c} _ before after hcut => ?_) hplain
    exact ⟨fun d hd => hcut d (by simp [hd]), fun d hd => hcut d (by simp [hd])⟩
  · refine trimBy_of_cut (fun {c} hc before after hcut => ?_) hstable
    have hinert : isInert c = true := by
      rcases Bool.or_eq_true_iff.mp hc with hc | hc
      · exact isInert_of_isBlank hc
      · rw [beq_iff_eq.mp hc]
        rfl
    exact (isStable_inert hinert).mp hcut

/-- A cleaned search neither starts nor ends with a blank. -/
theorem solid_cleanSearch (t : Text) : StartsSolid (cleanSearch t) ∧ EndsSolid (cleanSearch t) := by
  constructor
  · intro c hc
    exact (Bool.or_eq_false_iff.mp (trimBy_head? hc)).1
  · intro c hc
    exact (Bool.or_eq_false_iff.mp (trimBy_getLast? hc)).1

end TagSearch
