import TagSearch.Proofs.Backtracking
import TagSearch.Proofs.Hoisting

/-!
# Tokens written side by side

Tokens that stand can be taken from where they were read and written anew, one space apart, without
a change to how they are read.

* `Token.stands_ofGroup`: a group that is written around tokens is one token, and holds these.
* `tokenize_unwords`: a level of tokens is read back. It may hold lone parentheses, if no `)` behind
  them could close them.
-/

namespace TagSearch

open Text Lexer

/-! ## Pieces and spaces -/

/-- Pieces of text, each behind a space. -/
def behindSpaces (pieces : List Text) : Text :=
  pieces.flatMap (' ' :: ·)

theorem behindSpaces_cons (piece : Text) (rest : List Text) :
    behindSpaces (piece :: rest) = ' ' :: (piece ++ behindSpaces rest) := by
  simp [behindSpaces]

theorem unwords_cons (piece : Text) (rest : List Text) :
    unwords (piece :: rest) = piece ++ behindSpaces rest := by
  induction rest generalizing piece with
  | nil => simp [unwords, behindSpaces]
  | cons next rest ih => rw [unwords_cons_cons, ih, behindSpaces_cons]

theorem behindSpaces_eq (piece : Text) (rest : List Text) :
    behindSpaces (piece :: rest) = ' ' :: unwords (piece :: rest) := by
  rw [behindSpaces_cons, unwords_cons]

theorem startsBlank_behindSpaces (pieces : List Text) : StartsBlank (behindSpaces pieces) := by
  cases pieces with
  | nil => exact startsBlank_nil
  | cons piece rest =>
    rw [behindSpaces_cons]
    exact startsBlank_space _

theorem quote_mem_behindSpaces {pieces : List Text} (h : '"' ∈ behindSpaces pieces) :
    ∃ piece ∈ pieces, '"' ∈ piece := by
  obtain ⟨piece, hpiece, hq⟩ := List.mem_flatMap.mp h
  exact ⟨piece, hpiece, by simpa using hq⟩

/-! ## A token at a time -/

theorem startsSolid_opening (modifier : Option Modifier) (t : Text) :
    StartsSolid (Modifier.text modifier ++ '(' :: t) := by
  intro c hc
  rcases modifier with _ | _ | _ <;> cases hc <;> decide

/-- The search for a group's end goes on behind a token that is no lone `(`. -/
theorem closeGroup?_reads {token : Token} {rest : Text} (h : token.Reads rest)
    (hne : token.text ≠ []) (hclosing : token.text.head? ≠ some ')')
    (hopen : token.body ≠ .tag ['(']) (depth : Nat) (spaced : Bool) :
    closeGroup? depth spaced (token.text ++ rest) = ahead token.text (onward depth rest) := by
  obtain ⟨c, t, htext⟩ := List.exists_cons_of_ne_nil hne
  have hread := h 0
  rw [htext, List.cons_append] at hread
  have hc : ¬(c == ')' && spaced) = true := by
    rw [htext] at hclosing
    simp_all
  have hclosed : opensGroup (takeModifier (c :: (t ++ rest))).2 = true →
      takeGroup? (takeModifier (c :: (t ++ rest))).2 ≠ none := by
    intro ho hnone
    have hbody := (readToken_opening_iff ho 0).mpr hnone
    rw [hread] at hbody
    exact hopen hbody
  rw [htext, List.cons_append, closeGroup?_token hc hclosed depth 0, hread, ← htext]

theorem onward_space {t : Text} (h : StartsSolid t) (depth : Nat) :
    onward depth (' ' :: t) = ahead [' '] (closeGroup? depth true t) := by
  have hspace : ∀ c ∈ [' '], isBlank c = true := by simp [isBlank]
  exact onward_blanks hspace h depth

/-! ## Groups -/

/-- A group written around some tokens. -/
def Token.ofGroup (modifier : Option Modifier) (tokens : List Token) : Token where
  modifier := modifier
  body := .group (unwords (tokens.map Token.text))
  text := renderGroup (Modifier.text modifier) (tokens.map Token.text)
  offset := 0

theorem renderGroup_eq {texts : List Text} (h : ∀ text ∈ texts, text ≠ []) (modifier : Text) :
    renderGroup modifier texts
      = modifier ++ '(' :: ' ' :: (texts.flatMap (· ++ [' ']) ++ [')']) := by
  have hfilter : texts.filter (!·.isEmpty) = texts := by
    rw [List.filter_eq_self]
    intro text ht
    simpa using h text ht
  rw [renderGroup, hfilter]
  cases texts with
  | nil => rfl
  | cons text rest =>
    have hne : unwords (text :: rest) ≠ [] := by
      rw [unwords_cons]
      simp [h text List.mem_cons_self]
    rw [if_neg (by simpa using hne), ← unwords_spaced (by simp), List.append_assoc]
    rfl

theorem Token.Stands.endsSolid {token : Token} {loud : Prop} (h : token.Stands loud) :
    EndsSolid token.text := by
  have hread := h.reads startsBlank_nil (by simp) 0
  have hsolid := readToken_endsSolid h.text_ne_nil h.startsSolid 0
  rw [List.append_nil] at hread
  rwa [hread] at hsolid

theorem endsSolid_unwords : ∀ {tokens : List Token}, (∀ token ∈ tokens, EndsSolid token.text) →
    (∀ token ∈ tokens, token.text ≠ []) → EndsSolid (unwords (tokens.map Token.text))
  | [], _, _ => by simp [unwords, EndsSolid]
  | [token], h, _ => by simpa [unwords] using h
  | token :: next :: rest, h, hne => by
    rw [List.forall_mem_cons] at h hne
    rw [List.map_cons, List.map_cons, unwords_cons_cons, ← List.map_cons]
    have hrest := endsSolid_unwords h.2 hne.2
    refine EndsSolid.append (t := ' ' :: unwords _) ?_ (by simp) token.text
    rw [← List.singleton_append]
    refine hrest.append ?_ [' ']
    rw [List.map_cons, unwords_cons]
    simp [hne.2 next]

theorem startsSolid_unwords {tokens : List Token} (h : ∀ token ∈ tokens, StartsSolid token.text)
    (hne : ∀ token ∈ tokens, token.text ≠ []) : StartsSolid (unwords (tokens.map Token.text)) := by
  cases tokens with
  | nil => simp [unwords, StartsSolid]
  | cons token rest =>
    rw [List.map_cons, unwords_cons]
    exact (h token List.mem_cons_self).append (hne token List.mem_cons_self) _

/-- **The search for a group's end steps over tokens that stand.** -/
theorem closeGroup?_settled {loud : Prop} {rest : Text} (hrest : '"' ∈ rest → loud) :
    ∀ {tokens : List Token}, Settled loud tokens →
      (∀ token ∈ tokens, token.text.head? ≠ some ')') →
      closeGroup? 0 true ((tokens.map Token.text).flatMap (· ++ [' ']) ++ ')' :: rest)
        = some ((tokens.map Token.text).flatMap (· ++ [' ']), rest)
  | [], _, _ => closeGroup?_closing rest
  | token :: others, h, hclosing => by
    rw [List.forall_mem_cons] at hclosing
    have hothers := closeGroup?_settled hrest h.2 hclosing.2
    generalize hspread : (others.map Token.text).flatMap (· ++ [' ']) = spread at hothers
    have hreads : token.Reads (' ' :: (spread ++ ')' :: rest)) := by
      refine h.1.reads (startsBlank_space _) fun hq => ?_
      have hq : '"' ∈ spread ∨ '"' ∈ rest := by simpa using hq
      rcases hq with hq | hq
      · right
        rw [← hspread] at hq
        obtain ⟨piece, hpiece, hq⟩ := List.mem_flatMap.mp hq
        obtain ⟨other, hother, rfl⟩ := List.mem_map.mp hpiece
        exact ⟨other, hother, by simpa using hq⟩
      · exact Or.inl (hrest hq)
    have hsolid : StartsSolid (spread ++ ')' :: rest) := by
      rw [← hspread]
      cases others with
      | nil => exact startsSolid_closing rest
      | cons next others =>
        rw [List.map_cons, List.flatMap_cons, List.append_assoc, List.append_assoc]
        exact h.2.1.startsSolid.append h.2.1.text_ne_nil _
    rw [List.map_cons, List.flatMap_cons, hspread]
    have hshape : token.text ++ [' '] ++ spread ++ ')' :: rest
        = token.text ++ ' ' :: (spread ++ ')' :: rest) := by simp
    rw [hshape, closeGroup?_reads hreads h.1.text_ne_nil hclosing.1 h.1.body_ne_opening,
      onward_space hsolid, hothers]
    simp [ahead]

/-- Trimming takes the space before and the space after the tokens of a group. -/
theorem trimBlanks_settled {loud : Prop} {tokens : List Token} (h : Settled loud tokens) :
    trimBlanks (' ' :: (tokens.map Token.text).flatMap (· ++ [' ']))
      = unwords (tokens.map Token.text) := by
  have hstands : ∀ token ∈ tokens, token.Stands False := fun token ht => h.stands ht
  have hne : ∀ token ∈ tokens, token.text ≠ [] := fun token ht => (hstands token ht).text_ne_nil
  cases tokens with
  | nil => rfl
  | cons token rest =>
    rw [← unwords_spaced (by simp)]
    exact trimBy_surrounded (by decide) (by decide)
      (startsSolid_unwords (fun token ht => (hstands token ht).startsSolid) hne)
      (endsSolid_unwords (fun token ht => (hstands token ht).endsSolid) hne)

/-- **A group that is written around tokens that stand is one token, and stands.** -/
theorem Token.stands_ofGroup {loud : Prop} {tokens : List Token} (h : Settled loud tokens)
    (hclosing : ∀ token ∈ tokens, token.text.head? ≠ some ')') (modifier : Option Modifier) :
    (Token.ofGroup modifier tokens).Stands loud := by
  have htexts : ∀ text ∈ tokens.map Token.text, text ≠ [] := by
    intro text ht
    obtain ⟨token, htoken, rfl⟩ := List.mem_map.mp ht
    exact (h.stands htoken).text_ne_nil
  have htext : (Token.ofGroup modifier tokens).text = Modifier.text modifier
      ++ '(' :: ' ' :: ((tokens.map Token.text).flatMap (· ++ [' ']) ++ [')']) :=
    renderGroup_eq htexts _
  refine ⟨by simp [htext], by rw [htext]; exact startsSolid_opening _ _, ?_⟩
  intro rest _ hq offset
  have hsolid : StartsSolid ((tokens.map Token.text).flatMap (· ++ [' ']) ++ ')' :: rest) := by
    cases tokens with
    | nil => exact startsSolid_closing rest
    | cons token others =>
      rw [List.map_cons, List.flatMap_cons, List.append_assoc, List.append_assoc]
      exact h.1.startsSolid.append h.1.text_ne_nil _
  have hgroup : takeGroup? ('(' :: ' ' :: ((tokens.map Token.text).flatMap (· ++ [' '])
      ++ ')' :: rest)) = some (' ' :: (tokens.map Token.text).flatMap (· ++ [' ']), rest) := by
    rw [takeGroup?_opening rfl, List.drop_succ_cons, List.drop_zero, onward_space hsolid,
      closeGroup?_settled hq h hclosing]
    rfl
  have hread : readToken offset (Modifier.text modifier ++ '(' :: ' ' ::
      ((tokens.map Token.text).flatMap (· ++ [' ']) ++ ')' :: rest))
        = ({ Token.ofGroup modifier tokens with offset }, rest) := by
    simp only [readToken, takeModifier_opening, readBody_of_group hgroup, trimBlanks_settled h,
      Token.ofGroup, renderGroup_eq htexts, List.cons_append]
  rw [← hread, htext]
  simp

theorem Token.ofGroup_head (modifier : Option Modifier) (tokens : List Token) :
    (Token.ofGroup modifier tokens).text.head? ≠ some ')' := by
  unfold Token.ofGroup renderGroup
  dsimp only
  split <;> rcases modifier with _ | _ | _ <;> simp [Modifier.text, Modifier.toChar]

/-! ## Levels -/

/-- A lone `(`, with its modifier. -/
structure Token.IsOpening (token : Token) : Prop where
  body : token.body = .tag ['(']
  text : token.text = Modifier.text token.modifier ++ ['(']

/-- Tokens of a level that can be written side by side: each of them stands before those behind it,
or is a lone `(` that none of these could close. -/
def Laid : List Token → Prop
  | [] => True
  | token :: rest =>
    (token.Stands (∃ other ∈ rest, '"' ∈ other.text)
      ∨ token.IsOpening ∧ ∀ other ∈ rest, other.text.head? ≠ some ')') ∧ Laid rest

theorem Laid.startsSolid {token : Token} {rest : List Token} (h : Laid (token :: rest)) :
    StartsSolid token.text := by
  rcases h.1 with hstands | ⟨hopening, -⟩
  · exact hstands.startsSolid
  · rw [hopening.text]
    exact startsSolid_opening _ _

theorem Laid.text_ne_nil {token : Token} {rest : List Token} (h : Laid (token :: rest)) :
    token.text ≠ [] := by
  rcases h.1 with hstands | ⟨hopening, -⟩
  · exact hstands.text_ne_nil
  · simp [hopening.text]

theorem Laid.startsSolid_unwords {token : Token} {rest : List Token} (h : Laid (token :: rest)) :
    StartsSolid (unwords ((token :: rest).map Token.text)) := by
  rw [List.map_cons, unwords_cons]
  exact h.startsSolid.append h.text_ne_nil _

/-- What is found behind a level is what is found in its tokens. -/
theorem onward_behindSpaces {tokens : List Token} (h : Laid tokens)
    (hnone : closeGroup? 0 true (unwords (tokens.map Token.text)) = none) :
    onward 0 (behindSpaces (tokens.map Token.text)) = none := by
  cases tokens with
  | nil =>
    rw [onward]
    simp [behindSpaces, closeGroup?_nil, ahead]
  | cons token rest =>
    rw [List.map_cons, behindSpaces_eq, ← List.map_cons, onward_space h.startsSolid_unwords, hnone]
    rfl

/-- A lone `(` is read as such where what follows does not close it. -/
theorem Token.IsOpening.reads {token : Token} (h : token.IsOpening) {rest : List Token}
    (hrest : onward 0 (behindSpaces (rest.map Token.text)) = none) :
    token.Reads (behindSpaces (rest.map Token.text)) := by
  intro offset
  have hbody : readBody ('(' :: behindSpaces (rest.map Token.text))
      = ⟨.tag ['('], ['('], behindSpaces (rest.map Token.text)⟩ := by
    cases rest with
    | nil => exact readBody_of_run (takeMetatag?_opening []) (takeGroup?_of_not_opens rfl)
    | cons next rest =>
      have hopen : opensGroup ('(' :: behindSpaces ((next :: rest).map Token.text)) = true := by
        rw [List.map_cons, behindSpaces_cons]
        rfl
      exact readBody_of_unclosed hopen (by rw [takeGroup?_opening hopen]; exact hrest)
  rw [h.text, List.append_assoc, List.singleton_append]
  simp only [readToken, takeModifier_opening, hbody, ← h.text, ← h.body]

/-- Where nothing behind a token ends the group around it, nothing from the token on does. -/
theorem closeGroup?_eq_none {token : Token} {rest : Text} (h : token.Reads rest)
    (hne : token.text ≠ []) (hclosing : token.text.head? ≠ some ')') (hrest : onward 0 rest = none)
    (spaced : Bool) : closeGroup? 0 spaced (token.text ++ rest) = none := by
  obtain ⟨c, t, htext⟩ := List.exists_cons_of_ne_nil hne
  have hread := h 0
  rw [htext, List.cons_append] at hread
  have hc : ¬(c == ')' && spaced) = true := by
    rw [htext] at hclosing
    simp_all
  rw [htext, List.cons_append]
  by_cases hopen : opensGroup (takeModifier (c :: (t ++ rest))).2 = true
    ∧ takeGroup? (takeModifier (c :: (t ++ rest))).2 = none
  · exact closeGroup?_unclosed hc hopen.1 hopen.2 0
  · rw [closeGroup?_token hc (fun ho hg => hopen ⟨ho, hg⟩) 0 0, hread]
    dsimp only
    rw [hrest]
    rfl

theorem Laid.reads_of_onward {token : Token} {rest : List Token} (h : Laid (token :: rest))
    (hrest : (∀ other ∈ rest, other.text.head? ≠ some ')') →
      onward 0 (behindSpaces (rest.map Token.text)) = none) :
    token.Reads (behindSpaces (rest.map Token.text)) := by
  rcases h.1 with hstands | ⟨hopening, hclosing⟩
  · refine hstands.reads (startsBlank_behindSpaces _) fun hq => ?_
    obtain ⟨piece, hpiece, hq⟩ := quote_mem_behindSpaces hq
    obtain ⟨other, hother, rfl⟩ := List.mem_map.mp hpiece
    exact ⟨other, hother, hq⟩
  · exact hopening.reads (hrest hclosing)

/-- **A level without a `)` that could close a group closes none.** -/
theorem closeGroup?_laid : ∀ {tokens : List Token}, Laid tokens →
    (∀ token ∈ tokens, token.text.head? ≠ some ')') →
    closeGroup? 0 true (unwords (tokens.map Token.text)) = none
  | [], _, _ => closeGroup?_nil 0 true
  | token :: rest, h, hclosing => by
    rw [List.forall_mem_cons] at hclosing
    have hrest := onward_behindSpaces h.2 (closeGroup?_laid h.2 hclosing.2)
    rw [List.map_cons, unwords_cons]
    exact closeGroup?_eq_none (h.reads_of_onward fun _ => hrest) h.text_ne_nil hclosing.1 hrest true

theorem Laid.reads {token : Token} {rest : List Token} (h : Laid (token :: rest)) :
    token.Reads (behindSpaces (rest.map Token.text)) :=
  h.reads_of_onward fun hclosing => onward_behindSpaces h.2 (closeGroup?_laid h.2 hclosing)

theorem tokensFrom_unwords : ∀ {tokens : List Token}, Laid tokens → ∀ offset,
    (tokensFrom offset (unwords (tokens.map Token.text))).map Token.atStart
      = tokens.map Token.atStart
  | [], _, offset => by simp [unwords]
  | token :: rest, h, offset => by
    have hread := h.reads offset
    have hsolid := h.startsSolid_unwords
    rw [List.map_cons, unwords_cons] at hsolid ⊢
    rw [tokensFrom_solid (by simp [h.text_ne_nil]) hsolid, hread, List.map_cons, List.map_cons]
    refine congrArg₂ List.cons rfl ?_
    cases rest with
    | nil => simp [behindSpaces]
    | cons next rest =>
      rw [List.map_cons, behindSpaces_eq, tokensFrom_space, ← List.map_cons]
      exact tokensFrom_unwords h.2 _

/-- **Tokens written side by side are read back.** -/
theorem tokenize_unwords {tokens : List Token} (h : Laid tokens) :
    (tokenize (unwords (tokens.map Token.text))).map Token.atStart = tokens.map Token.atStart :=
  tokensFrom_unwords h 0

theorem Token.Reads.tokenize {token : Token} (h : token.Reads []) (hne : token.text ≠ [])
    (hsolid : StartsSolid token.text) : tokenize token.text = [token.atStart] := by
  have hread := h 0
  rw [List.append_nil] at hread
  rw [TagSearch.tokenize, tokensFrom_solid hne hsolid, hread, tokensFrom_nil]
  rfl

/-- A token that stands is the only token of its text. -/
theorem Token.Stands.tokenize {token : Token} {loud : Prop} (h : token.Stands loud) :
    tokenize token.text = [token.atStart] :=
  (h.reads startsBlank_nil (by simp)).tokenize h.text_ne_nil h.startsSolid

/-- So is a lone parenthesis, which opens nothing where nothing follows. -/
theorem Token.IsOpening.tokenize {token : Token} (h : token.IsOpening) :
    tokenize token.text = [token.atStart] := by
  have hlaid : Laid [token] := ⟨Or.inr ⟨h, by simp⟩, trivial⟩
  have hreads : token.Reads [] := hlaid.reads
  refine hreads.tokenize ?_ ?_
  · simp [h.text]
  · rw [h.text]
    exact startsSolid_opening _ _

end TagSearch
