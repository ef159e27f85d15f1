import Mathlib.Data.List.TakeWhile
import TagSearch.Token.Tree

/-!
# Tokens set apart by blanks

What follows a token does not change how the token is read, as long as a blank or the end of the
text comes first. The exceptions are texts that look further than their own end: a lone `(`, which
opens a group before a blank, and a value whose quote is still open.

* `readBody_append`: a tag or a metatag is read alike in front of any text that starts blank.
* `stepInside_eq_readToken`: inside a group, a token is stepped over exactly as it would be read at
  its own level, unless it opens a group.
-/

namespace TagSearch

open Text

/-- A text that does not continue the token in front of it. -/
def StartsBlank (t : Text) : Prop :=
  ∀ c ∈ t.head?, isBlank c = true

/-- A text whose first character belongs to a token. -/
def StartsSolid (t : Text) : Prop :=
  ∀ c ∈ t.head?, isBlank c = false

/-- A text whose last character belongs to a token. -/
def EndsSolid (t : Text) : Prop :=
  ∀ c ∈ t.getLast?, isBlank c = false

theorem startsBlank_nil : StartsBlank [] := by
  intro c hc
  simp at hc

theorem startsBlank_space (t : Text) : StartsBlank (' ' :: t) := by
  intro c hc
  simp only [List.head?_cons, Option.mem_def, Option.some.injEq] at hc
  subst hc
  decide

theorem isNameChar_of_isBlank {c : Char} (h : isBlank c = true) : isNameChar c = false := by
  simp only [isBlank, Bool.or_eq_true, beq_iff_eq] at h
  rcases h with ((((rfl | rfl) | rfl) | rfl) | rfl) | rfl <;> decide

theorem not_isNameChar_toChar (m : Modifier) : isNameChar m.toChar = false := by
  cases m <;> rfl

theorem ne_of_isBlank {c d : Char} (h : isBlank c = true) (hd : isBlank d = false) : c ≠ d := by
  intro he
  rw [he, hd] at h
  exact Bool.false_ne_true h

theorem StartsSolid.dropWhile {t : Text} (h : StartsSolid t) : t.dropWhile isBlank = t := by
  cases t with
  | nil => rfl
  | cons c rest => rw [List.dropWhile_cons_of_neg (by simp [h c rfl])]

theorem StartsSolid.takeWhile {t : Text} (h : StartsSolid t) : t.takeWhile isBlank = [] := by
  cases t with
  | nil => rfl
  | cons c rest => rw [List.takeWhile_cons_of_neg (by simp [h c rfl])]

theorem StartsSolid.append {t : Text} (h : StartsSolid t) (hne : t ≠ []) (rest : Text) :
    StartsSolid (t ++ rest) := by
  cases t with
  | nil => exact absurd rfl hne
  | cons c t => exact h

theorem EndsSolid.append {t : Text} (h : EndsSolid t) (hne : t ≠ []) (front : Text) :
    EndsSolid (front ++ t) := by
  intro c hc
  have hlast := List.getLast?_eq_some_getLast hne
  rw [List.getLast?_append, hlast, Option.some_or] at hc
  exact h c (by rw [hlast]; exact hc)

theorem endsSolid_concat {c : Char} (h : isBlank c = false) (t : Text) : EndsSolid (t ++ [c]) := by
  intro d hd
  rw [List.getLast?_concat, Option.mem_def, Option.some.injEq] at hd
  rwa [← hd]

theorem endsSolid_of_all {t : Text} (h : ∀ c ∈ t, isBlank c = false) : EndsSolid t :=
  fun c hc => h c (List.mem_of_getLast? hc)

/-! ## Trimming -/

theorem dropWhile_of_head? {p : Char → Bool} {t : Text} (h : ∀ c ∈ t.head?, p c = false) :
    t.dropWhile p = t := by
  cases t with
  | nil => rfl
  | cons c rest => exact List.dropWhile_cons_of_neg (by simp [h c rfl])

/-- Trimming takes off what a text was padded with. -/
theorem trimBy_padded {p : Char → Bool} {left t right : Text} (hleft : ∀ c ∈ left, p c = true)
    (hright : ∀ c ∈ right, p c = true) (hfirst : ∀ c ∈ t.head?, p c = false)
    (hlast : ∀ c ∈ t.getLast?, p c = false) : Text.trimBy p (left ++ t ++ right) = t := by
  cases t with
  | nil =>
    have hall : ∀ c ∈ left ++ [] ++ right, p c = true := by
      simpa [or_imp, forall_and] using ⟨hleft, hright⟩
    rw [Text.trimBy, List.dropWhile_eq_nil_iff.mpr hall]
    rfl
  | cons c rest =>
    have hfront : ((c :: rest) ++ right).dropWhile p = (c :: rest) ++ right :=
      List.dropWhile_cons_of_neg (by simp [hfirst c rfl])
    rw [Text.trimBy, List.append_assoc, List.dropWhile_append_of_pos hleft, hfront,
      List.reverse_append, List.dropWhile_append_of_pos (by simpa using hright),
      dropWhile_of_head? (by rwa [List.head?_reverse]), List.reverse_reverse]

theorem trimBy_eq_self {p : Char → Bool} {t : Text} (hfirst : ∀ c ∈ t.head?, p c = false)
    (hlast : ∀ c ∈ t.getLast?, p c = false) : t.trimBy p = t := by
  simpa using @trimBy_padded p [] t [] (by simp) (by simp) hfirst hlast

theorem trimBy_surrounded {p : Char → Bool} {a b : Char} {t : Text} (ha : p a = true)
    (hb : p b = true) (hfirst : ∀ c ∈ t.head?, p c = false)
    (hlast : ∀ c ∈ t.getLast?, p c = false) : Text.trimBy p (a :: (t ++ [b])) = t :=
  @trimBy_padded p [a] t [b] (by simpa using ha) (by simpa using hb) hfirst hlast

namespace Lexer

/-! ## Modifiers -/

theorem takeModifier_append {t rest : Text} (hne : t ≠ []) (hr : StartsBlank rest) :
    takeModifier (t ++ rest) = ((takeModifier t).1, (takeModifier t).2 ++ rest) := by
  match t, rest with
  | [_], [] => rfl
  | [m], c :: rest =>
    have hc : isBlank c = true := hr c rfl
    simp only [List.cons_append, List.nil_append, takeModifier, hc, if_true]
    split <;> rfl
  | m :: c :: t, rest =>
    simp only [List.cons_append, takeModifier]
    split
    · split <;> rfl
    · rfl

/-- A modifier in front of an opening parenthesis is read as one. -/
theorem takeModifier_opening (modifier : Option Modifier) (rest : Text) :
    takeModifier (Modifier.text modifier ++ '(' :: rest) = (modifier, '(' :: rest) := by
  cases modifier with
  | none => cases rest <;> rfl
  | some m => cases m <;> rfl

/-- After a modifier the body starts at once. -/
theorem takeModifier_solid {t : Text} {m : Modifier} (h : (takeModifier t).1 = some m) :
    StartsSolid (takeModifier t).2 := by
  match t with
  | [] | [_] => simp [takeModifier] at h
  | sign :: c :: rest =>
    simp only [takeModifier] at h ⊢
    split at h
    · split at h
      · simp at h
      · next hm hc =>
        rw [if_neg hc]
        intro d hd
        simp only [List.head?_cons, Option.mem_def, Option.some.injEq] at hd
        rw [← hd]
        simpa using hc
    · simp at h

/-! ## Runs -/

theorem run_cons {c : Char} (h : isBlank c = false) (t : Text) : run (c :: t) = c :: run t := by
  simp [run, h]

theorem afterRun_cons {c : Char} (h : isBlank c = false) (t : Text) :
    afterRun (c :: t) = afterRun t := by
  simp [afterRun, h]

theorem run_append {t rest : Text} (h : afterRun t = []) (hr : StartsBlank rest) :
    run (t ++ rest) = t := by
  have hall : ∀ c ∈ t, (!isBlank c) = true := List.dropWhile_eq_nil_iff.mp h
  unfold run
  rw [List.takeWhile_append_of_pos hall]
  cases rest with
  | nil => simp
  | cons c rest => rw [List.takeWhile_cons_of_neg (by simp [hr c rfl]), List.append_nil]

theorem afterRun_append {t rest : Text} (h : afterRun t = []) (hr : StartsBlank rest) :
    afterRun (t ++ rest) = rest := by
  have hall : ∀ c ∈ t, (!isBlank c) = true := List.dropWhile_eq_nil_iff.mp h
  unfold afterRun
  rw [List.dropWhile_append_of_pos hall]
  cases rest with
  | nil => rfl
  | cons c rest => rw [List.dropWhile_cons_of_neg (by simp [hr c rfl])]

theorem run_of_afterRun {t : Text} (h : afterRun t = []) : run t = t := by
  rw [← List.append_nil (run t), ← h, run_append_afterRun]

/-! ## Metatags -/

theorem not_mem_of_cut? {sep : Char} {t before after : Text}
    (h : cut? sep t = some (before, after)) : sep ∉ before := by
  induction t generalizing before with
  | nil => simp [cut?] at h
  | cons c t ih =>
    unfold cut? at h
    split at h
    · simp only [Option.some.injEq, Prod.mk.injEq] at h
      rw [← h.1]
      simp
    · next hc =>
      obtain ⟨⟨b, a⟩, hb, he⟩ := Option.map_eq_some_iff.mp h
      simp only [Prod.mk.injEq] at he
      obtain ⟨rfl, rfl⟩ := he
      rw [List.mem_cons, not_or]
      exact ⟨fun heq => hc (by simp [heq]), ih hb⟩

theorem cut?_of_not_mem {sep : Char} {before : Text} (h : sep ∉ before) (after : Text) :
    cut? sep (before ++ sep :: after) = some (before, after) := by
  induction before with
  | nil => simp [cut?]
  | cons c before ih =>
    rw [List.mem_cons, not_or] at h
    rw [List.cons_append, cut?, if_neg (by simp [Ne.symm h.1]), ih h.2]
    rfl

/-- The first separator stays the first one, whatever comes after the text. -/
theorem cut?_append {sep : Char} {t before after : Text} (h : cut? sep t = some (before, after))
    (rest : Text) : cut? sep (t ++ rest) = some (before, after ++ rest) := by
  rw [cut?_eq h, List.append_assoc]
  exact cut?_of_not_mem (not_mem_of_cut? h) (after ++ rest)

theorem takeQuoted?_append {t value after : Text} (h : takeQuoted? t = some (value, after))
    (rest : Text) : takeQuoted? (t ++ rest) = some (value, after ++ rest) := by
  unfold takeQuoted? at h
  split at h
  · exact cut?_append h rest
  · simp at h

/-- A value that does not start with a quote is not read as quoted, whatever follows it. -/
theorem takeQuoted?_append_none {t rest : Text} (h : t.head? ≠ some '"') (hr : StartsBlank rest) :
    takeQuoted? (t ++ rest) = none := by
  match t, rest with
  | [], [] => rfl
  | [], c :: rest =>
    have hc : c ≠ '"' := ne_of_isBlank (hr c rfl) (by decide)
    simp only [List.nil_append]
    unfold takeQuoted?
    split
    · next he => simp_all
    · rfl
  | c :: t, rest =>
    simp only [List.head?_cons, ne_eq, Option.some.injEq] at h
    unfold takeQuoted?
    split
    · next he => simp_all
    · rfl

/-- The characters of a name end where a blank comes. -/
theorem dropWhile_name_append {t rest : Text} (hr : StartsBlank rest) :
    (t ++ rest).dropWhile isNameChar = t.dropWhile isNameChar ++ rest := by
  rw [List.dropWhile_append]
  split
  · next he =>
    rw [List.isEmpty_iff.mp he, List.nil_append]
    cases rest with
    | nil => rfl
    | cons c rest => rw [List.dropWhile_cons_of_neg (by simp [isNameChar_of_isBlank (hr c rfl)])]
  · rfl

theorem takeWhile_name_append {t after : Text} (h : t.dropWhile isNameChar = ':' :: after)
    (rest : Text) : (t ++ rest).takeWhile isNameChar = t.takeWhile isNameChar := by
  rw [List.takeWhile_append, if_neg]
  intro hlen
  have hsplit := congrArg List.length (List.takeWhile_append_dropWhile (p := isNameChar) (l := t))
  rw [List.length_append, h, List.length_cons] at hsplit
  omega

/-- A metatag that ends the text is read alike in front of a blank, if its value leaves no quote
open. -/
theorem takeMetatag?_append {t rest : Text} {m : MetatagParts} (h : takeMetatag? t = some m)
    (hm : m.rest = []) (hq : m.quoted = false → m.value.head? ≠ some '"')
    (hr : StartsBlank rest) : takeMetatag? (t ++ rest) = some { m with rest := rest } := by
  unfold takeMetatag? at h
  split at h
  · next after hd =>
    have hd' : (t ++ rest).dropWhile isNameChar = ':' :: (after ++ rest) := by
      rw [dropWhile_name_append hr, hd, List.cons_append]
    dsimp only at h
    split at h
    · next value left hv =>
      cases h
      have hleft : left = [] := hm
      simp only [takeMetatag?, hd', takeQuoted?_append hv, takeWhile_name_append hd, hleft,
        List.nil_append]
    · cases h
      have hrun : afterRun after = [] := hm
      have hhead : after.head? ≠ some '"' := by
        rw [← run_of_afterRun hrun]
        exact hq rfl
      simp only [takeMetatag?, hd', takeQuoted?_append_none hhead hr, takeWhile_name_append hd,
        run_append hrun hr, afterRun_append hrun hr, run_of_afterRun hrun]
  · simp at h

/-- What is no metatag is none in front of a blank either. -/
theorem takeMetatag?_append_none {t rest : Text} (h : takeMetatag? t = none)
    (hr : StartsBlank rest) : takeMetatag? (t ++ rest) = none := by
  unfold takeMetatag? at h ⊢
  rw [dropWhile_name_append hr]
  split at h
  · dsimp only at h
    split at h <;> simp at h
  · next hd =>
    split
    · next after he =>
      cases hdrop : t.dropWhile isNameChar with
      | nil =>
        rw [hdrop, List.nil_append] at he
        have hblank := hr ':' (by rw [he]; rfl)
        exact absurd hblank (by decide)
      | cons c rest =>
        rw [hdrop, List.cons_append, List.cons.injEq] at he
        exact absurd (by rw [hdrop, he.1]) (hd rest)
    · rfl

/-- Parentheses start no metatag. -/
theorem takeMetatag?_opening (rest : Text) : takeMetatag? ('(' :: rest) = none := by
  have hd : ('(' :: rest).dropWhile isNameChar = '(' :: rest :=
    List.dropWhile_cons_of_neg (by decide)
  unfold takeMetatag?
  split
  · next he =>
    rw [hd] at he
    simp at he
  · rfl

/-! ## Bodies -/

/-- A lone parenthesis apart, what opens no group at the end of a text opens none before a blank. -/
theorem opensGroup_append {t rest : Text} (hne : t ≠ []) (hopen : t ≠ ['('])
    (h : opensGroup t = false) : opensGroup (t ++ rest) = false := by
  match t with
  | [c] =>
    have hc : c ≠ '(' := fun he => hopen (by rw [he])
    unfold opensGroup
    split
    · next he => simp_all
    · rfl
  | a :: b :: t =>
    simp only [List.cons_append]
    unfold opensGroup at h ⊢
    split at h
    · next he =>
      simp only [List.cons.injEq] at he
      obtain ⟨rfl, rfl, _⟩ := he
      exact h
    · next hn =>
      split
      · next he =>
        simp only [List.cons.injEq] at he
        exact absurd (by rw [he.1, he.2.1]) (hn b t)
      · rfl

theorem readBody_of_run {t : Text} (hm : takeMetatag? t = none) (hg : takeGroup? t = none) :
    readBody t = ⟨.tag (t.take 1 ++ run (t.drop 1)), t.take 1 ++ run (t.drop 1),
      afterRun (t.drop 1)⟩ := by
  simp only [readBody, hm, hg]

theorem readBody_of_metatag {t : Text} {m : MetatagParts} (h : takeMetatag? t = some m) :
    readBody t = ⟨.metatag m.name m.value m.quoted, m.text, m.rest⟩ := by
  simp only [readBody, h]

theorem takeGroup?_of_not_opens {t : Text} (h : opensGroup t = false) : takeGroup? t = none := by
  simp [takeGroup?, h]

/-- Whether the value of a metatag starts with a quote that the metatag does not close. -/
def leavesQuoteOpen : Body → Bool
  | .metatag _ ('"' :: _) false => true
  | _ => false

/-- A group body is read from a metatag-free text that opens a group. -/
theorem readBody_cases {t : Text} (hg : ∀ source, (readBody t).body ≠ .group source) :
    (∃ m, takeMetatag? t = some m) ∨ (takeMetatag? t = none ∧ takeGroup? t = none) := by
  cases hm : takeMetatag? t with
  | some m => exact Or.inl ⟨m, rfl⟩
  | none =>
    cases ht : takeGroup? t with
    | none => exact Or.inr ⟨rfl, rfl⟩
    | some pair =>
      exact absurd (show (readBody t).body = .group (trimBlanks pair.1) by
        simp only [readBody, hm, ht]) (hg _)

/-- **A tag or a metatag that ends the text is read alike in front of a blank.** -/
theorem readBody_append {t rest : Text} (hne : t ≠ []) (hopen : t ≠ ['('])
    (hend : (readBody t).rest = []) (hg : ∀ source, (readBody t).body ≠ .group source)
    (hq : leavesQuoteOpen (readBody t).body = false) (hr : StartsBlank rest) :
    readBody (t ++ rest) = ⟨(readBody t).body, t, rest⟩ := by
  have htext : (readBody t).text = t := by
    have h := readBody_eq t
    rwa [hend, List.append_nil] at h
  rcases readBody_cases hg with ⟨m, hm⟩ | ⟨hm, ht⟩
  · rw [readBody_of_metatag hm] at hend hq htext ⊢
    have hquote : m.quoted = false → m.value.head? ≠ some '"' := by
      intro hb hv
      obtain ⟨tail, hv⟩ := List.head?_eq_some_iff.mp hv
      simp [leavesQuoteOpen, hb, hv] at hq
    rw [readBody_of_metatag (takeMetatag?_append hm hend hquote hr)]
    exact congrArg (ReadBody.mk _ · rest) htext
  · rw [readBody_of_run hm ht] at hend htext ⊢
    obtain ⟨c, tail, rfl⟩ := List.exists_cons_of_ne_nil hne
    have hend : afterRun tail = [] := hend
    have hopens : opensGroup (c :: tail) = false := by
      -- a blank after the first character would be left unread
      cases tail with
      | nil => simp [opensGroup]
      | cons d tail =>
        have hd : isBlank d = false := by
          have := List.dropWhile_eq_nil_iff.mp hend d List.mem_cons_self
          simpa using this
        unfold opensGroup
        split
        · next he => simp_all
        · rfl
    have hm' := takeMetatag?_append_none hm hr
    have ht' : takeGroup? (c :: tail ++ rest) = none :=
      takeGroup?_of_not_opens (opensGroup_append hne hopen hopens)
    rw [readBody_of_run hm' ht']
    simp only [List.cons_append, List.take_succ_cons, List.take_zero, List.drop_succ_cons,
      List.drop_zero, List.nil_append, run_append hend hr, afterRun_append hend hr,
      run_of_afterRun hend]

theorem takeMetatag?_endsSolid {t : Text} {m : MetatagParts} (h : takeMetatag? t = some m) :
    EndsSolid m.text := by
  have hbare : ∀ name after : Text, EndsSolid (metatagText name (run after) false) := by
    intro name after
    refine EndsSolid.append (endsSolid_of_all ?_) (by simp) name
    intro c hc
    rcases List.mem_cons.mp hc with rfl | hc
    · decide
    · simpa using List.mem_takeWhile_imp hc
  unfold takeMetatag? at h
  split at h
  · dsimp only at h
    split at h
    · next name after value rest hq =>
      cases h
      have htext : metatagText (t.takeWhile isNameChar) value true
          = (t.takeWhile isNameChar ++ ':' :: '"' :: value) ++ ['"'] := by
        simp [metatagText]
      rw [MetatagParts.text, htext]
      exact endsSolid_concat (by decide) _
    · cases h
      exact hbare _ _
  · simp at h

/-- A tag or a metatag does not end with a blank. -/
theorem readBody_endsSolid {t : Text} (hsolid : StartsSolid t)
    (hg : ∀ source, (readBody t).body ≠ .group source) : EndsSolid (readBody t).text := by
  rcases readBody_cases hg with ⟨m, hm⟩ | ⟨hm, ht⟩
  · rw [readBody_of_metatag hm]
    exact takeMetatag?_endsSolid hm
  · rw [readBody_of_run hm ht]
    refine endsSolid_of_all ?_
    intro c hc
    rcases List.mem_append.mp hc with hc | hc
    · cases t with
      | nil => simp at hc
      | cons d rest =>
        simp only [List.take_succ_cons, List.take_zero, List.mem_singleton] at hc
        exact hsolid c (by rw [hc]; rfl)
    · simpa using List.mem_takeWhile_imp hc

/-- The token and what follows it make up the text. -/
theorem readToken_eq (offset : Nat) (t : Text) :
    (readToken offset t).1.text ++ (readToken offset t).2 = t := by
  unfold readToken
  rw [List.append_assoc, readBody_eq, takeModifier_eq]

/-! ## Steps inside a group -/

/-- **Inside a group, a token that opens no group is stepped over as it would be read.** -/
theorem stepInside_eq_readToken {t : Text} (h : opensGroup (takeModifier t).2 = false)
    (offset : Nat) :
    stepInside t = ⟨(readToken offset t).1.text, (readToken offset t).2, 0⟩ := by
  unfold stepInside readToken
  simp only [h, Bool.false_eq_true, if_false]
  cases hm : takeMetatag? (takeModifier t).2 with
  | some m => simp only [readBody_of_metatag hm]
  | none =>
    rw [readBody_of_run hm (takeGroup?_of_not_opens h)]
    have heq := takeModifier_eq t
    cases hmod : (takeModifier t).1 with
    | none =>
      rw [hmod] at heq
      simp only [Modifier.text, List.nil_append] at heq ⊢
      rw [heq]
    | some m =>
      -- the modifier is the first character, and the run starts with the body
      have hsolid := takeModifier_solid hmod
      rw [hmod] at heq
      simp only [Modifier.text, List.cons_append, List.nil_append] at heq ⊢
      cases hb : (takeModifier t).2 with
      | nil =>
        rw [hb] at heq
        rw [← heq]
        rfl
      | cons c body =>
        rw [hb] at heq hsolid
        have hc : isBlank c = false := hsolid c rfl
        rw [← heq]
        simp only [List.take_succ_cons, List.take_zero, List.drop_succ_cons, List.drop_zero,
          run_cons hc, afterRun_cons hc, List.cons_append, List.nil_append]

end Lexer

open Lexer

/-! ## Levels -/

@[simp] theorem tokensFrom_nil (offset : Nat) : tokensFrom offset [] = [] := by
  rw [tokensFrom]
  rfl

/-- A level that starts with a token is that token and the level behind it. -/
theorem tokensFrom_solid {t : Text} (hne : t ≠ []) (h : StartsSolid t) (offset : Nat) :
    tokensFrom offset t = (readToken offset t).1
      :: tokensFrom (readToken offset t).1.stop (readToken offset t).2 := by
  obtain ⟨c, rest, rfl⟩ := List.exists_cons_of_ne_nil hne
  rw [tokensFrom]
  split
  · next hd =>
    rw [h.dropWhile] at hd
    simp at hd
  · next d rest' hd =>
    rw [h.dropWhile] at hd
    simp only [h.takeWhile, ← hd]
    rfl

/-- A space in front of a level moves it by one byte. -/
theorem tokensFrom_space (offset : Nat) (t : Text) :
    tokensFrom offset (' ' :: t) = tokensFrom (offset + 1) t := by
  have hd : (' ' :: t).dropWhile isBlank = t.dropWhile isBlank :=
    List.dropWhile_cons_of_pos (by decide)
  have ht : (' ' :: t).takeWhile isBlank = ' ' :: t.takeWhile isBlank :=
    List.takeWhile_cons_of_pos (by decide)
  have hlen : byteLength (' ' :: t.takeWhile isBlank) = 1 + byteLength (t.takeWhile isBlank) := rfl
  rw [tokensFrom, tokensFrom]
  split
  · next h =>
    rw [hd] at h
    split
    · rfl
    · next h' => simp [h] at h'
  · next c rest h =>
    rw [hd] at h
    split
    · next h' => simp [h] at h'
    · next d rest' h' =>
      rw [h, List.cons.injEq] at h'
      obtain ⟨rfl, rfl⟩ := h'
      simp only [ht, hlen, Nat.add_assoc]

end TagSearch
