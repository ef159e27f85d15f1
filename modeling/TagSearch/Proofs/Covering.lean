import TagSearch.Proofs.Locality
import TagSearch.Proofs.Pieces
import TagSearch.Proofs.Repeats
import TagSearch.Scan.Flat

/-!
# What a flat scan covers

A flat scan takes the quoted metatags out of a search from left to right and cuts the rest at white
space. `Scanned` says so step by step, for quoted metatags as they are written (`IsQuoted`): each is
the leftmost one of what is left, and its value ends at the next quote.

* `findQuotedMetatag?_eq_some_iff`, `findQuotedMetatag?_eq_none_iff`: the leftmost quoted metatag is
  found, if there is one.
* `scanned_iff`: `Scanned` has the pieces of a text, and no others.
* `Scanned.cut`: the pieces make up the text but for white space (`Cut`).
* `Scanned.isQuoted_or_plain`: no quoted metatag is left inside another piece.

Main statement: `flat_covers`.
-/

namespace TagSearch.Scan

open Text Lexer

variable {t gap metatag rest piece : Text} {ps qs : List Text}

/-! ## Quoted metatags -/

/-- A quoted metatag: a modifier or none, word characters, a colon, and a value in double quotes
that holds neither a quote nor a line feed. -/
inductive IsQuoted : Text → Prop
  | mk {sign name value : Text} (hsign : sign = [] ∨ sign = ['-'] ∨ sign = ['~'])
    (hname : ∀ c ∈ name, isWordChar c = true) (hquote : '"' ∉ value) (hline : '\n' ∉ value) :
    IsQuoted (sign ++ (name ++ ':' :: '"' :: (value ++ ['"'])))

theorem IsQuoted.ne_nil (h : IsQuoted metatag) : metatag ≠ [] := by
  obtain ⟨-, -, -, -⟩ := h
  simp

/-- A name ends at its colon. -/
theorem span_name {name : Text} (h : ∀ c ∈ name, isWordChar c = true) (rest : Text) :
    (name ++ ':' :: rest).takeWhile isWordChar = name
      ∧ (name ++ ':' :: rest).dropWhile isWordChar = ':' :: rest := by
  have hcolon : isWordChar ':' = false := by decide
  rw [List.takeWhile_append_of_pos h, List.dropWhile_append_of_pos h]
  simp [hcolon]

theorem takeNamedQuote?_append {name value : Text} (hname : ∀ c ∈ name, isWordChar c = true)
    (hquote : '"' ∉ value) (hline : '\n' ∉ value) (rest : Text) :
    takeNamedQuote? (name ++ ':' :: '"' :: (value ++ '"' :: rest))
      = some (name ++ ':' :: '"' :: (value ++ ['"']), rest) := by
  obtain ⟨htake, hdrop⟩ := span_name hname ('"' :: (value ++ '"' :: rest))
  rw [takeNamedQuote?, htake, hdrop]
  simp only [cut?_of_not_mem hquote]
  rw [if_neg (by simpa using hline)]

/-- No name starts with a modifier. -/
theorem takeSign_name {name : Text} (h : ∀ c ∈ name, isWordChar c = true) (rest : Text) :
    takeSign (name ++ ':' :: rest) = ([], name ++ ':' :: rest) := by
  unfold takeSign
  split
  · next heq =>
    cases name with
    | nil => simp at heq
    | cons c name =>
      obtain rfl : c = '-' := (List.cons.inj heq).1
      exact absurd (h '-' List.mem_cons_self) (by decide)
  · next heq =>
    cases name with
    | nil => simp at heq
    | cons c name =>
      obtain rfl : c = '~' := (List.cons.inj heq).1
      exact absurd (h '~' List.mem_cons_self) (by decide)
  · rfl

/-- **A quoted metatag is taken from the front of a text just if it stands there.** -/
theorem takeQuotedMetatag?_eq_some_iff :
    takeQuotedMetatag? t = some (metatag, rest) ↔ t = metatag ++ rest ∧ IsQuoted metatag := by
  constructor
  · intro h
    refine ⟨(takeQuotedMetatag?_eq h).1, ?_⟩
    obtain ⟨⟨named, rest'⟩, hnamed, heq⟩ := Option.map_eq_some_iff.mp h
    cases heq
    have hsign : (takeSign t).1 = [] ∨ (takeSign t).1 = ['-'] ∨ (takeSign t).1 = ['~'] := by
      unfold takeSign
      split <;> simp
    unfold takeNamedQuote? at hnamed
    split at hnamed
    · next quoted hdrop =>
      split at hnamed
      · next value after hcut =>
        split at hnamed
        · simp at hnamed
        · next hline =>
          cases hnamed
          exact .mk hsign (fun c hc => List.mem_takeWhile_imp hc) (not_mem_of_cut? hcut)
            (by simpa using hline)
      · simp at hnamed
    · simp at hnamed
  · rintro ⟨rfl, hquoted⟩
    obtain ⟨hsign, hname, hquote, hline⟩ := hquoted
    have hnamed := takeNamedQuote?_append hname hquote hline rest
    rcases hsign with rfl | rfl | rfl
    · simp [takeQuotedMetatag?, takeSign_name hname, hnamed]
    · simp [takeQuotedMetatag?, takeSign, hnamed]
    · simp [takeQuotedMetatag?, takeSign, hnamed]

/-! ## The leftmost one -/

/-- A quoted metatag stands behind a gap, and no other one starts before it. -/
structure Leftmost (gap metatag rest : Text) : Prop where
  isQuoted : IsQuoted metatag
  first : ∀ gap' metatag' rest', gap ++ metatag ++ rest = gap' ++ metatag' ++ rest' →
    IsQuoted metatag' → gap.length ≤ gap'.length

/-- No quoted metatag stands anywhere in a text. -/
def Unquoted (t : Text) : Prop :=
  ∀ metatag, IsQuoted metatag → ¬ metatag <:+: t

theorem unquoted_nil : Unquoted [] :=
  fun _ h hin => h.ne_nil (List.eq_nil_of_infix_nil hin)

/-- A quoted metatag stands in a text either at its front or behind its first character. -/
theorem unquoted_cons {c : Char} :
    Unquoted (c :: t) ↔ takeQuotedMetatag? (c :: t) = none ∧ Unquoted t := by
  constructor
  · intro h
    refine ⟨Option.eq_none_iff_forall_ne_some.mpr ?_, fun metatag hquoted hin =>
      h metatag hquoted (hin.trans (List.suffix_cons c t).isInfix)⟩
    rintro ⟨metatag, rest⟩ htaken
    obtain ⟨heq, hquoted⟩ := takeQuotedMetatag?_eq_some_iff.mp htaken
    exact h metatag hquoted ⟨[], rest, by simp [heq]⟩
  · rintro ⟨hnone, h⟩ metatag hquoted ⟨before, after, heq⟩
    cases before with
    | nil =>
      rw [takeQuotedMetatag?_eq_some_iff.mpr ⟨heq.symm, hquoted⟩] at hnone
      simp at hnone
    | cons d before => exact h metatag hquoted ⟨before, after, (List.cons.inj heq).2⟩

theorem findQuotedMetatag?_eq_none_iff : findQuotedMetatag? t = none ↔ Unquoted t := by
  induction t with
  | nil => exact iff_of_true rfl unquoted_nil
  | cons c t ih =>
    rw [unquoted_cons, ← ih, findQuotedMetatag?]
    cases takeQuotedMetatag? (c :: t) <;> simp

theorem leftmost_nil (h : IsQuoted metatag) : Leftmost [] metatag rest :=
  ⟨h, fun _ _ _ _ _ => Nat.zero_le _⟩

/-- Behind a character at which no quoted metatag starts, the leftmost one stays the leftmost. -/
theorem leftmost_cons {c : Char} : Leftmost (c :: gap) metatag rest
    ↔ takeQuotedMetatag? (c :: (gap ++ metatag ++ rest)) = none ∧ Leftmost gap metatag rest := by
  constructor
  · intro h
    refine ⟨Option.eq_none_iff_forall_ne_some.mpr ?_, h.isQuoted, ?_⟩
    · rintro ⟨metatag', rest'⟩ htaken
      obtain ⟨heq, hquoted⟩ := takeQuotedMetatag?_eq_some_iff.mp htaken
      exact absurd (h.first [] metatag' rest' heq hquoted) (by simp)
    · intro gap' metatag' rest' heq hquoted
      have hle := h.first (c :: gap') metatag' rest' (by simp [heq]) hquoted
      simpa using hle
  · rintro ⟨hnone, h⟩
    refine ⟨h.isQuoted, fun gap' metatag' rest' heq hquoted => ?_⟩
    cases gap' with
    | nil =>
      have htaken := takeQuotedMetatag?_eq_some_iff.mpr ⟨heq, hquoted⟩
      rw [List.cons_append, List.cons_append, hnone] at htaken
      simp at htaken
    | cons d gap' =>
      have hle := h.first gap' metatag' rest' (List.cons.inj heq).2 hquoted
      simpa using hle

/-- **The leftmost quoted metatag is found,** with what stands before and behind it. -/
theorem findQuotedMetatag?_eq_some_iff : findQuotedMetatag? t = some (gap, metatag, rest)
    ↔ t = gap ++ metatag ++ rest ∧ Leftmost gap metatag rest := by
  induction t generalizing gap with
  | nil =>
    simp only [findQuotedMetatag?, reduceCtorEq, false_iff, not_and]
    intro heq h
    exact h.isQuoted.ne_nil (by simp_all)
  | cons c t ih =>
    unfold findQuotedMetatag?
    split
    · next metatag' rest' htaken =>
      obtain ⟨heq, hquoted⟩ := takeQuotedMetatag?_eq_some_iff.mp htaken
      constructor
      · intro h
        cases h
        exact ⟨heq, leftmost_nil hquoted⟩
      · rintro ⟨htext, h⟩
        cases gap with
        | nil =>
          rw [takeQuotedMetatag?_eq_some_iff.mpr ⟨htext, h.isQuoted⟩] at htaken
          cases htaken
          rfl
        | cons d gap =>
          have hnone := (leftmost_cons.mp h).1
          rw [← List.cons_append, ← List.cons_append, ← htext, htaken] at hnone
          simp at hnone
    · next hnone =>
      rw [Option.map_eq_some_iff]
      constructor
      · rintro ⟨⟨gap', metatag', rest'⟩, hfound, heq⟩
        cases heq
        obtain ⟨htext, h⟩ := ih.mp hfound
        refine ⟨by rw [htext]; rfl, leftmost_cons.mpr ⟨?_, h⟩⟩
        rwa [← htext]
      · rintro ⟨htext, h⟩
        cases gap with
        | nil =>
          rw [takeQuotedMetatag?_eq_some_iff.mpr ⟨htext, h.isQuoted⟩] at hnone
          simp at hnone
        | cons d gap =>
          obtain ⟨rfl, rfl⟩ := List.cons.inj htext
          exact ⟨(gap, metatag, rest), ih.mpr ⟨rfl, (leftmost_cons.mp h).2⟩, rfl⟩

/-- The gap before the leftmost quoted metatag holds none. -/
theorem Leftmost.unquoted (h : Leftmost gap metatag rest) : Unquoted gap := by
  rintro metatag' hquoted ⟨before, after, rfl⟩
  have hle := h.first before metatag' (after ++ metatag ++ rest) (by simp) hquoted
  have hpos := List.length_pos_iff.mpr hquoted.ne_nil
  simp only [List.length_append] at hle
  omega

theorem Unquoted.of_infix (h : Unquoted t) (hin : piece <:+: t) : Unquoted piece :=
  fun metatag hquoted hmetatag => h metatag hquoted (hmetatag.trans hin)

/-! ## Scanning from metatag to metatag -/

/-- The pieces of a text: the words before the leftmost quoted metatag, the metatag, and the pieces
of what follows it; the words of the text, if there is none. -/
inductive Scanned : Text → List Text → Prop
  | words {t : Text} (h : Unquoted t) : Scanned t t.words
  | metatag {gap metatag rest : Text} {ps : List Text} (h : Leftmost gap metatag rest)
    (hrest : Scanned rest ps) : Scanned (gap ++ metatag ++ rest) (gap.words ++ metatag :: ps)

theorem pieces_of_unquoted (h : Unquoted t) : pieces t = t.words := by
  have hnone := findQuotedMetatag?_eq_none_iff.mpr h
  rw [pieces]
  split
  · rfl
  · next hfound => simp [hnone] at hfound

theorem pieces_of_leftmost (h : Leftmost gap metatag rest) :
    pieces (gap ++ metatag ++ rest) = gap.words ++ metatag :: pieces rest := by
  have hsome := findQuotedMetatag?_eq_some_iff.mpr ⟨rfl, h⟩
  rw [pieces]
  split
  · next hfound =>
    rw [hsome] at hfound
    cases hfound
  · next hfound =>
    rw [hsome] at hfound
    cases hfound
    rfl

/-- **The pieces are those of the scan from metatag to metatag,** and a text has no others. -/
theorem scanned_iff : Scanned t ps ↔ ps = pieces t := by
  constructor
  · intro h
    induction h with
    | words h => exact (pieces_of_unquoted h).symm
    | metatag h _ ih => rw [pieces_of_leftmost h, ih]
  · rintro rfl
    -- by the length of the text: what follows a metatag is shorter
    induction hn : t.length using Nat.strongRecOn generalizing t with
    | ind n ih =>
      cases hfound : findQuotedMetatag? t with
      | none =>
        have h := findQuotedMetatag?_eq_none_iff.mp hfound
        rw [pieces_of_unquoted h]
        exact .words h
      | some found =>
        obtain ⟨gap, metatag, rest⟩ := found
        have hshort := length_findQuotedMetatag?_lt hfound
        obtain ⟨rfl, h⟩ := findQuotedMetatag?_eq_some_iff.mp hfound
        rw [pieces_of_leftmost h]
        exact .metatag h (ih rest.length (by omega) rfl)

/-! ## Covering a text -/

/-- Pieces make up a text from left to right, but for white space between them and at the ends. -/
inductive Cut : Text → List Text → Prop
  | nil {gap : Text} (hgap : ∀ c ∈ gap, isSpace c = true) : Cut gap []
  | cons {gap piece rest : Text} {ps : List Text} (hgap : ∀ c ∈ gap, isSpace c = true)
    (hne : piece ≠ []) (hrest : Cut rest ps) : Cut (gap ++ piece ++ rest) (piece :: ps)

namespace Cut

/-- White space in front changes nothing. -/
theorem behind (h : Cut t ps) (hgap : ∀ c ∈ gap, isSpace c = true) : Cut (gap ++ t) ps := by
  cases h with
  | nil hgap' => exact .nil (List.forall_mem_append.mpr ⟨hgap, hgap'⟩)
  | cons hgap' hne hrest =>
    rw [← List.append_assoc, ← List.append_assoc]
    exact .cons (List.forall_mem_append.mpr ⟨hgap, hgap'⟩) hne hrest

/-- A piece may stand right in front. -/
theorem touching (h : Cut rest ps) (hne : piece ≠ []) : Cut (piece ++ rest) (piece :: ps) :=
  @cons [] piece rest ps (by simp) hne h

theorem append (h : Cut t ps) (hrest : Cut rest qs) : Cut (t ++ rest) (ps ++ qs) := by
  induction h with
  | nil hgap => exact hrest.behind hgap
  | cons hgap hne _ ih =>
    rw [List.append_assoc]
    exact .cons hgap hne ih

theorem isInfix (h : Cut t ps) : ∀ piece ∈ ps, piece <:+: t := by
  induction h with
  | nil => simp
  | @cons gap first rest ps hgap hne hrest ih =>
    intro piece hpiece
    rcases List.mem_cons.mp hpiece with rfl | hpiece
    · exact List.infix_append gap piece rest
    · exact (ih piece hpiece).trans (List.suffix_append _ rest).isInfix

end Cut

/-- An empty piece is no word, and another one may stand right in front. -/
theorem cut_first (first : Text) (h : Cut t (ps.filter (!·.isEmpty))) :
    Cut (first ++ t) ((first :: ps).filter (!·.isEmpty)) := by
  cases first with
  | nil => simpa using h
  | cons c first => simpa using h.touching (List.cons_ne_nil c first)

/-- A text is cut into its words. -/
theorem cut_words (t : Text) : Cut t t.words := by
  -- what stands behind the first piece is told apart, for the next character goes to either
  have hbehind : ∃ first rest behind, t.piecesBy isSpace = first :: rest ∧ t = first ++ behind
      ∧ Cut behind (rest.filter (!·.isEmpty)) := by
    induction t with
    | nil => exact ⟨[], [], [], rfl, rfl, .nil (by simp)⟩
    | cons c t ih =>
      obtain ⟨first, rest, behind, hpieces, heq, hcut⟩ := ih
      obtain ⟨first', rest', hpieces', hcons⟩ := piecesBy_cons isSpace c t
      cases hpieces.symm.trans hpieces'
      by_cases hc : isSpace c = true
      · refine ⟨[], first :: rest, c :: t, by rw [hcons, if_pos hc], rfl, ?_⟩
        have hspace : ∀ d ∈ [c], isSpace d = true := by simpa using hc
        rw [heq]
        exact (cut_first first hcut).behind hspace
      · exact ⟨c :: first, rest, behind, by rw [hcons, if_neg hc], by rw [heq]; rfl, hcut⟩
  obtain ⟨first, rest, behind, hpieces, heq, hcut⟩ := hbehind
  rw [words, hpieces, heq]
  exact cut_first first hcut

theorem not_isSpace_of_mem_words (h : piece ∈ t.words) : ∀ c ∈ piece, isSpace c = false :=
  fun _ hc => (mem_of_mem_piecesBy (List.mem_filter.mp h).1 hc).2

/-- A word of a text without quoted metatags is a plain piece. -/
theorem unquoted_word (h : Unquoted t) (hword : piece ∈ t.words) : Unquoted piece :=
  h.of_infix ((cut_words t).isInfix piece hword)

theorem Scanned.cut (h : Scanned t ps) : Cut t ps := by
  induction h with
  | words h => exact cut_words _
  | metatag h _ ih =>
    rw [List.append_assoc]
    exact (cut_words _).append (ih.touching h.isQuoted.ne_nil)

/-- A piece is a quoted metatag, or it holds neither white space nor a quoted metatag. -/
theorem Scanned.isQuoted_or_plain (h : Scanned t ps) : ∀ piece ∈ ps,
    IsQuoted piece ∨ (∀ c ∈ piece, isSpace c = false) ∧ Unquoted piece := by
  induction h with
  | words h => exact fun piece hword => .inr ⟨not_isSpace_of_mem_words hword, unquoted_word h hword⟩
  | metatag h _ ih =>
    intro piece hpiece
    rw [List.mem_append, List.mem_cons] at hpiece
    rcases hpiece with hword | rfl | hpiece
    · exact .inr ⟨not_isSpace_of_mem_words hword, unquoted_word h.unquoted hword⟩
    · exact .inl h.isQuoted
    · exact ih piece hpiece

/-- **A flat scan loses nothing but white space and repeats.** The cleaned search is cut, but for
white space, into the pieces of the scan from metatag to metatag; each is a quoted metatag, or it
holds neither white space nor a quoted metatag. The flat scan has those pieces, each where it first
stands. -/
theorem flat_covers (search : Text) :
    (∀ ps, Scanned (cleanSearch search) ps ↔ ps = pieces (cleanSearch search))
      ∧ Cut (cleanSearch search) (pieces (cleanSearch search))
      ∧ (∀ piece ∈ pieces (cleanSearch search),
        IsQuoted piece ∨ (∀ c ∈ piece, isSpace c = false) ∧ Unquoted piece)
      ∧ (∀ piece, piece ∈ flat search ↔ piece ∈ pieces (cleanSearch search))
      ∧ (flat search).Pairwise fun a b =>
        (pieces (cleanSearch search)).idxOf a < (pieces (cleanSearch search)).idxOf b := by
  have hscanned : Scanned (cleanSearch search) (pieces (cleanSearch search)) := scanned_iff.mpr rfl
  refine ⟨fun _ => scanned_iff, hscanned.cut, hscanned.isQuoted_or_plain, fun _ => ?_, ?_⟩
  · exact List.mem_eraseDups
  · have horder := eraseDups_inOrder (fun _ => true) (pieces (cleanSearch search))
    rwa [List.filter_true] at horder

/-- A quoted metatag is found in the middle of a word, and its modifier goes with it. -/
example : flat "x~a:\"b c\"y  x".toList
    = ["x".toList, "~a:\"b c\"".toList, "y".toList] := by decide +kernel

end TagSearch.Scan
