import TagSearch.Proofs.Unwrapping

/-!
# Hoisting twice

Hoisting is meant to be idempotent: hoisting from the tokens of a hoisted search, written one space
apart, should yield the same tokens. It does not for every search (`hoistTexts_idempotent_fails`): a
token may follow another one without a blank, and means something else once it is set apart.

`hoistTexts_idempotent` says that this is all there is to it. Where no token is set apart from what
closes or quotes it, what hoisting yields is laid out side by side, reads back as it was written,
and holds nothing more to be hoisted.
-/

namespace TagSearch

open Text Lexer

/-! ## The result stands side by side -/

/-- A leaf that leaves no quote open stands before quotes, too. -/
theorem Token.Stands.of_closed {token : Token} (h : token.Stands False)
    (hbody : ∀ source, token.body ≠ .group source) (hquote : leavesQuoteOpen token.body = false)
    (loud : Prop) : token.Stands loud := by
  refine ⟨h.text_ne_nil, h.startsSolid, fun {rest} hblank _ => ?_⟩
  have hreads := h.reads startsBlank_nil (by simp)
  obtain ⟨body, hne, htext, htake, hread⟩ := (Token.reads_iff h.text_ne_nil).mp hreads
  rw [List.append_nil, List.append_nil] at htake
  rw [List.append_nil] at hread
  have hopen : body ≠ ['('] := by
    rintro rfl
    have htag : readBody ['('] = ⟨.tag ['('], ['('], []⟩ :=
      readBody_of_run (takeMetatag?_opening []) (takeGroup?_of_not_opens rfl)
    exact h.body_ne_opening (congrArg ReadBody.body (hread.symm.trans htag))
  refine (Token.reads_iff h.text_ne_nil).mpr ⟨body, hne, htext, ?_, ?_⟩
  · rw [takeModifier_append h.text_ne_nil hblank, htake]
  · have happend := readBody_append hne hopen (by rw [hread]) (by rwa [hread])
      (by rwa [hread]) hblank
    rwa [hread] at happend

/-- The characters of a leaf are characters of the token that it stands in. -/
theorem mem_of_mem_leavesIn {token leaf : Token} {loud : Prop} (h : token.Stands loud)
    (hleaf : leaf ∈ leavesIn [token]) {c : Char} (hc : c ∈ leaf.text) : c ∈ token.text := by
  refine (forall_stands_leavesIn (R := fun text => ∀ c ∈ text, c ∈ token.text) ?_
    (by simpa using h.imp False.elim) leaf hleaf).2 c hc
  intro outer source hstands hbody houter inner hinner c hc
  exact houter c (hstands.mem_of_mem_source hbody (mem_of_mem_tokensFrom hinner hc))

/-- No token inside the groups of a level starts with `)`. -/
def ClosingApart (tokens : List Token) : Prop :=
  HoldsInside (fun leaf => leaf.text.head? ≠ some ')') tokens

theorem ClosingApart.liftsApart {tokens : List Token} (h : ClosingApart tokens)
    (names : List Text) : LiftsApart names tokens :=
  fun token htoken hgroup _ => h token htoken hgroup

theorem Laid.append {rest : List Token} (hrest : Laid rest) :
    ∀ {front : List Token}, (∀ token ∈ front, ∀ loud, token.Stands loud) → Laid (front ++ rest)
  | [], _ => hrest
  | _ :: _, h => by
    rw [List.forall_mem_cons] at h
    exact ⟨Or.inl (h.1 _), hrest.append h.2⟩

namespace HoistedFrom

variable {names : List Text} {remaining : Nat} {tokens result : List Token}

theorem quotes (h : HoistedFrom names remaining tokens result)
    (hq : ∃ token ∈ result, '"' ∈ token.text) : ∃ token ∈ tokens, '"' ∈ token.text := by
  induction h with
  | nil => exact hq
  | @cons token rest result others h hrest ih =>
    obtain ⟨t, ht, hq⟩ := hq
    rcases List.mem_append.mp ht with ht | ht
    · refine ⟨token, List.mem_cons_self, ?_⟩
      cases h with
      | same h => simp_all
      | @lifted lifted left hgroup hstands h =>
        rcases List.mem_append.mp ht with ht | ht
        · exact mem_of_mem_leavesIn hstands (h.taken t ht).1 hq
        · rw [List.mem_singleton] at ht
          simpa using h.quotes ⟨left, by simp, by rwa [ht] at hq⟩
    · obtain ⟨other, hother, hq⟩ := ih ⟨t, ht, hq⟩
      exact ⟨other, List.mem_cons_of_mem _ hother, hq⟩

theorem closing (h : HoistedFrom names remaining tokens result) (hinside : ClosingApart tokens)
    (hclosing : ∀ token ∈ tokens, token.text.head? ≠ some ')') :
    ∀ token ∈ result, token.text.head? ≠ some ')' := by
  induction h with
  | nil => simp
  | @cons token rest result others h hrest ih =>
    rw [ClosingApart, HoldsInside, List.forall_mem_cons] at hinside
    rw [List.forall_mem_cons] at hclosing
    refine List.forall_mem_append.mpr ⟨?_, ih hinside.2 hclosing.2⟩
    cases h with
    | same h => simpa using hclosing.1
    | @lifted lifted left hgroup hstands h =>
      refine List.forall_mem_append.mpr ⟨fun t ht => ?_, ?_⟩
      · exact hinside.1 hgroup t.atStart (h.taken t ht).1
      · simpa using h.closing

/-- **What hoisting makes of tokens that are laid out is laid out again**, if the metatags that it
takes close their quotes. -/
theorem laid (h : HoistedFrom names remaining tokens result) (hlaid : Laid tokens)
    (hinside : ClosingApart tokens)
    (hquotes : HoldsInside (fun leaf => Hoist.isHoisted names leaf = true →
      leavesQuoteOpen leaf.body = false) tokens) : Laid result := by
  induction h with
  | nil => trivial
  | @cons token rest result others h hrest ih =>
    rw [ClosingApart, HoldsInside, List.forall_mem_cons] at hinside
    rw [HoldsInside, List.forall_mem_cons] at hquotes
    have hothers := ih hlaid.2 hinside.2 hquotes.2
    cases h with
    | same h =>
      refine ⟨hlaid.1.imp (fun hstands => hstands.imp hrest.quotes) ?_, hothers⟩
      rintro ⟨hopening, hclosing⟩
      exact ⟨hopening, hrest.closing hinside.2 hclosing⟩
    | @lifted lifted left hgroup hstands h =>
      have hleft : Laid (left.atStart :: others) :=
        ⟨Or.inl ((Token.stands_atStart.mpr (settled_singleton.mp h.settled)).imp hrest.quotes),
          hothers⟩
      rw [List.append_assoc, List.singleton_append]
      refine hleft.append fun t ht loud => ?_
      obtain ⟨hleaf, hhoisted⟩ := h.taken t ht
      exact (Token.stands_atStart.mp (hstands.leaf hleaf)).of_closed (h.body_ne_group ht)
        (hquotes.1 hgroup t.atStart hleaf hhoisted) loud

/-- Every token leaves one. -/
theorem length_le (h : HoistedFrom names remaining tokens result) :
    tokens.length ≤ result.length := by
  induction h with
  | nil => exact Nat.le_refl _
  | cons h hrest ih =>
    cases h with
    | same h => simpa using ih
    | lifted hgroup hstands h =>
      simp only [List.length_cons, List.length_append, List.length_nil]
      omega

/-- A single token comes from a single one, and is that or a group written anew. -/
theorem of_singleton {token : Token} (h : HoistedFrom names remaining tokens [token]) :
    ∃ origin, tokens = [origin] ∧ (token.atStart = origin.atStart
      ∨ origin.isGroup = true ∧ ∃ inner, token = Token.ofGroup origin.modifier inner) := by
  have hlength := h.length_le
  generalize hresult : [token] = result at h hlength
  cases h with
  | nil => simp at hresult
  | @cons origin rest first others h hrest =>
    have hrest_nil : rest = [] := by
      have hone := congrArg List.length hresult
      have hle := hrest.length_le
      have hfirst : first ≠ [] := by cases h <;> simp
      have hpos := List.length_pos_iff.mpr hfirst
      simp only [List.length_append, List.length_singleton] at hone
      exact List.eq_nil_of_length_eq_zero (by omega)
    subst hrest_nil
    cases hrest
    refine ⟨origin, rfl, ?_⟩
    cases h with
    | same h =>
      simp only [List.append_nil, List.cons.injEq, and_true] at hresult
      exact Or.inl (congrArg Token.atStart hresult)
    | @lifted lifted left hgroup hstands h =>
      rw [List.append_nil, eq_comm, List.append_eq_singleton_iff] at hresult
      rcases hresult with ⟨-, hleft⟩ | ⟨-, hleft⟩
      · rw [List.cons.injEq] at hleft
        rcases h.origin left (by simp) with hsame | ⟨group, hgroup', hisGroup, inner, hwritten⟩
        · rw [← hleft.1, List.mem_singleton.mp hsame]
          exact Or.inl rfl
        · rw [List.mem_singleton.mp hgroup'] at hwritten
          exact Or.inr ⟨hgroup, inner, by rw [← hleft.1, hwritten]; rfl⟩
      · simp at hleft

end HoistedFrom

/-! ## The second pass -/

section Again

variable (options : Hoist.Options) (limit remaining : Nat)

theorem hoistTree_same {token : Token}
    (h : token.isGroup = true → (leavesIn [token]).any (Hoist.isHoisted options.names) = false) :
    Hoist.hoistTree options limit remaining (Tree.ofToken token) = .ok [token] := by
  by_cases hgroup : token.isGroup = true
  · obtain ⟨source, hbody⟩ := Token.isGroup_iff.mp hgroup
    have hnone : Hoist.holdsHoisted options.names (Tree.ofToken token) = false := by
      rw [Tree.ofToken_group hbody, Hoist.holdsHoisted, anyHoisted_ofToken,
        ← leavesIn_group hbody, h hgroup]
    rw [Tree.ofToken_group hbody] at hnone ⊢
    rw [Hoist.hoistTree, hnone]
    rfl
  · rw [Tree.ofToken_leaf fun source hbody => hgroup (Token.isGroup_iff.mpr ⟨source, hbody⟩)]
    rfl

theorem mapM_hoistTree_same {tokens : List Token}
    (h : ∀ token ∈ tokens, token.isGroup = true →
      (leavesIn [token]).any (Hoist.isHoisted options.names) = false) :
    (tokens.map Tree.ofToken).mapM (Hoist.hoistTree options limit remaining)
      = .ok (tokens.map ([·])) := by
  induction tokens with
  | nil => rfl
  | cons token rest ih =>
    rw [List.forall_mem_cons] at h
    rw [List.map_cons, List.mapM_cons, hoistTree_same options limit remaining h.1, ih h.2]
    rfl

/-- **Nothing is hoisted from tokens that are laid out and hold nothing to be hoisted.** -/
theorem hoistText_laid {tokens : List Token} (hlaid : Laid tokens)
    (hnone : ∀ token ∈ tokens, token.isGroup = true →
      (leavesIn [token]).any (Hoist.isHoisted options.names) = false)
    (hsome : holdsNothing (unwords (tokens.map Token.text)) = false)
    (hplain : ∀ token, tokens = [token] → token.isGroup = true → token.modifier ≠ none) :
    Hoist.hoistText options limit remaining (unwords (tokens.map Token.text))
      = .ok (tokenize (unwords (tokens.map Token.text)), limit - remaining) := by
  have hread := tokenize_unwords hlaid
  generalize unwords (tokens.map Token.text) = written at hsome hread ⊢
  have hlevel : ∀ source whole offset,
      tokenize written ≠ [⟨none, .group source, whole, offset⟩] := by
    intro source whole offset htokens
    rw [htokens, List.map_singleton, eq_comm, List.map_eq_singleton_iff] at hread
    obtain ⟨token, rfl, htoken⟩ := hread
    have hbody : token.body = .group source := congrArg Token.body htoken
    exact hplain token rfl (Token.isGroup_iff.mpr ⟨source, hbody⟩) (congrArg Token.modifier htoken)
  have hsame : ∀ token ∈ tokenize written, token.isGroup = true →
      (leavesIn [token]).any (Hoist.isHoisted options.names) = false := by
    intro token htoken hgroup
    have hmem := List.mem_map_of_mem (f := Token.atStart) htoken
    rw [hread] at hmem
    obtain ⟨other, hother, hat⟩ := List.mem_map.mp hmem
    have hgroup' : other.atStart.isGroup = true := by
      rw [hat]
      exact hgroup
    rw [← leavesIn_atStart, ← hat, leavesIn_atStart]
    exact hnone other hother hgroup'
  rw [hoistText_level options limit remaining hsome hlevel, Tree.ofText_eq,
    mapM_hoistTree_same options limit remaining hsame]
  show Except.ok (((tokenize written).map ([·])).flatten, limit - remaining) = _
  rw [← List.flatMap_def, List.flatMap_singleton']

end Again

theorem unwords_eq_nil {texts : List Text} (h : unwords texts = []) :
    texts = [] ∨ texts = [[]] := by
  match texts with
  | [] => exact Or.inl rfl
  | [text] =>
    rw [unwords_cons] at h
    simp_all [behindSpaces]
  | _ :: _ :: _ => simp [unwords_cons, behindSpaces_cons] at h

/-- A group whose text is empty is written as such. -/
theorem Token.ofGroup_text_of_empty {modifier : Option Modifier} {tokens : List Token}
    (h : (Token.ofGroup modifier tokens).body = .group []) :
    (Token.ofGroup modifier tokens).text = renderGroup (Modifier.text modifier) [] := by
  have hunwords : unwords (tokens.map Token.text) = [] := by simpa [Token.ofGroup] using h
  rcases unwords_eq_nil hunwords with htexts | htexts
  · simp only [Token.ofGroup, htexts]
  · simp only [Token.ofGroup, htexts]
    rfl

theorem Laid.stands_or_opening : ∀ {tokens : List Token}, Laid tokens → ∀ token ∈ tokens,
    token.Stands False ∨ token.IsOpening
  | [], _ => by simp
  | _ :: _, h => by
    refine List.forall_mem_cons.mpr ⟨?_, h.2.stands_or_opening⟩
    exact h.1.imp (fun hstands => hstands.imp False.elim) And.left

theorem Laid.solid_unwords {tokens : List Token} (h : Laid tokens) :
    StartsSolid (unwords (tokens.map Token.text))
      ∧ EndsSolid (unwords (tokens.map Token.text)) := by
  have htokens : ∀ token ∈ tokens, StartsSolid token.text ∧ EndsSolid token.text
      ∧ token.text ≠ [] := by
    intro token ht
    rcases h.stands_or_opening token ht with hstands | hopening
    · exact ⟨hstands.startsSolid, hstands.endsSolid, hstands.text_ne_nil⟩
    · rw [hopening.text]
      exact ⟨startsSolid_opening _ _, endsSolid_concat (by decide) _, by simp⟩
  exact ⟨TagSearch.startsSolid_unwords (fun t ht => (htokens t ht).1)
      fun t ht => (htokens t ht).2.2,
    endsSolid_unwords (fun t ht => (htokens t ht).2.1) fun t ht => (htokens t ht).2.2⟩

/-! ## Both passes -/

/-- What a text must be for its hoisted tokens to read back. -/
structure Settles (options : Hoist.Options) (t : Text) : Prop where
  clean : IsClean t
  solid : StartsSolid t ∧ EndsSolid t
  laid : Laid (tokenize t)
  closing : ClosingApart (tokenize t)
  quotes : HoldsInside (fun leaf => Hoist.isHoisted options.names leaf = true →
    leavesQuoteOpen leaf.body = false) (tokenize t)

theorem Settles.inside {options : Hoist.Options} {groups : Nat} {t inside : Text}
    (h : Settles options t) (hunwraps : Unwraps groups t inside) : Settles options inside where
  clean := h.clean.of_pieces fun hP => hunwraps.pieces hP
  solid := hunwraps.solid h.solid
  laid := hunwraps.laid h.laid
  closing := hunwraps.holdsInside h.closing
  quotes := hunwraps.holdsInside h.quotes

theorem hoistTexts_nil (options : Hoist.Options) : Hoist.hoistTexts options [] = .ok [] := by
  rw [Hoist.hoistTexts, Hoist.hoist, show cleanSearch [] = [] from rfl,
    hoistText_empty options options.limit options.limit rfl]
  rfl

section Level

variable {options : Hoist.Options} {remaining : Nat} {t : Text} {result : List Token}

/-- A plain group that is left alone was one before, and would have been unwrapped. -/
theorem HoistedFrom.modifier_ne_none {token : Token}
    (htokens : ∀ source whole offset, tokenize t ≠ [⟨none, .group source, whole, offset⟩])
    (h : HoistedFrom options.names remaining (tokenize t) [token]) (hgroup : token.isGroup = true) :
    token.modifier ≠ none := by
  intro hmodifier
  obtain ⟨⟨modifier, body, text, offset⟩, horigin, hsame⟩ := h.of_singleton
  have hplain : (∃ source, body = .group source) ∧ modifier = none := by
    rcases hsame with hsame | ⟨hgroup', inner, rfl⟩
    · have hbody : token.body = body := congrArg Token.body hsame
      have hmod : token.modifier = modifier := congrArg Token.modifier hsame
      exact ⟨hbody ▸ Token.isGroup_iff.mp hgroup, hmod ▸ hmodifier⟩
    · exact ⟨Token.isGroup_iff.mp hgroup', hmodifier⟩
  obtain ⟨⟨source, rfl⟩, rfl⟩ := hplain
  exact htokens source text offset horigin

/-- An empty group that is left alone was written anew. -/
theorem HoistedFrom.eq_renderGroup {token : Token} (ht : StartsSolid t ∧ EndsSolid t)
    (hsome : holdsNothing t = false) (h : HoistedFrom options.names remaining (tokenize t) [token])
    (hbody : token.body = .group []) (hempty : isEmptyGroup token.text = true) :
    ∃ modifier, token.text = renderGroup (Modifier.text modifier) [] := by
  obtain ⟨origin, horigin, hsame⟩ := h.of_singleton
  rcases hsame with hsame | ⟨-, inner, rfl⟩
  · have htext : token.text = t := by
      rw [eq_text_of_tokenize horigin ht, ← origin.atStart_text, ← hsame, token.atStart_text]
    rw [htext] at hempty
    simp [holdsNothing, hempty] at hsome
  · exact ⟨_, Token.ofGroup_text_of_empty hbody⟩

variable (ht : Settles options t) (hsome : holdsNothing t = false)
  (h : HoistedFrom options.names remaining (tokenize t) result)
  (hleft : ∀ modifier, result.map Token.text ≠ [renderGroup (Modifier.text modifier) []])

include ht hsome h hleft

theorem HoistedFrom.eq_nil (hnothing : holdsNothing (unwords (result.map Token.text)) = true) :
    result = [] := by
  have hread := tokenize_unwords (h.laid ht.laid ht.closing ht.quotes)
  rw [holdsNothing, Bool.or_eq_true] at hnothing
  rcases hnothing with hnil | hempty
  · rw [List.isEmpty_iff.mp hnil, tokenize, tokensFrom_nil] at hread
    exact List.map_eq_nil_iff.mp hread.symm
  · obtain ⟨modifier, htokens⟩ := tokenize_emptyGroup hempty
    rw [htokens, List.map_singleton, eq_comm, List.map_eq_singleton_iff] at hread
    obtain ⟨token, rfl, htoken⟩ := hread
    have htext : unwords ([token].map Token.text) = token.text := by simp [unwords]
    rw [htext] at hempty
    obtain ⟨modifier, hwritten⟩ :=
      h.eq_renderGroup ht.solid hsome (congrArg Token.body htoken) hempty
    exact absurd (congrArg (fun text => [text]) hwritten) (hleft modifier)

/-- What hoisting makes of a level is cleaned, read and hoisted from without a change. -/
theorem hoistTexts_unwords
    (htokens : ∀ source whole offset, tokenize t ≠ [⟨none, .group source, whole, offset⟩]) :
    Hoist.hoistTexts options (unwords (result.map Token.text)) = .ok (result.map Token.text) := by
  have hlaid := h.laid ht.laid ht.closing ht.quotes
  have hclean : IsClean (unwords (result.map Token.text)) := ht.clean.of_pieces fun {P} hP hPt => by
    have hresult := h.pieces hP fun token htoken => hP.of_mem_tokensFrom hPt htoken
    exact hP.unwords (by simpa using hresult)
  by_cases hnothing : holdsNothing (unwords (result.map Token.text)) = true
  · rw [h.eq_nil ht hsome hleft hnothing]
    exact hoistTexts_nil options
  · have hplain : ∀ token, result = [token] → token.isGroup = true → token.modifier ≠ none := by
      rintro token rfl hgroup
      exact h.modifier_ne_none htokens hgroup
    have htexts := congrArg (List.map Token.text) (tokenize_unwords hlaid)
    rw [List.map_map, List.map_map] at htexts
    rw [Hoist.hoistTexts, Hoist.hoist,
      cleanSearch_eq_self hclean hlaid.solid_unwords.1 hlaid.solid_unwords.2,
      hoistText_laid options options.limit options.limit hlaid h.holds_none
        (by simpa using hnothing) hplain]
    exact congrArg Except.ok htexts

end Level

/-- **Hoisting from a text that settles is final**, unless it leaves but an empty group. -/
theorem hoistTexts_again {options : Hoist.Options} {q : Text} {texts : List Text}
    (hsettles : Settles options (cleanSearch q)) (h : Hoist.hoistTexts options q = .ok texts)
    (hleft : ∀ modifier, texts ≠ [renderGroup (Modifier.text modifier) []]) :
    Hoist.hoistTexts options (unwords texts) = .ok texts := by
  obtain ⟨⟨result, unwrapped⟩, hhoist, rfl⟩ := exists_ok_of_map h
  obtain ⟨groups, inside, hunwraps, -, -, hends⟩ := hoistText_unwraps options _ _ _ hhoist
  have hinside := hsettles.inside hunwraps
  cases hends with
  | nothing _ => exact hoistTexts_nil options
  | tooDeep _ _ => exact hoistTexts_nil options
  | level hsome htokens hfound =>
    have hhoisted := hoistedFrom_of_mapM (hinside.closing.liftsApart _) hfound
    exact hoistTexts_unwords hinside hsome hhoisted hleft htokens

/-- **Hoisting is idempotent where setting tokens apart changes none of them.** That is so if no NUL
is uncovered, no token that starts with `)` stands inside a group or behind a lone `(`, and the
metatags that are hoisted close their quotes; and unless all that is left is an empty group, which
counts as nothing. -/
theorem hoistTexts_idempotent (q : Text) (hnul : '\x00' ∉ cleanSearch q)
    (hinside : ∀ inner ∈ (tokenize (cleanSearch q)).flatMap Token.held,
      inner.text.head? ≠ some ')'
        ∧ (Hoist.isHoisted Hoist.defaultNames inner = true → leavesQuoteOpen inner.body = false))
    (hbehind : (tokenize (cleanSearch q)).Pairwise fun first second =>
      first.body = .tag ['('] → second.text.head? ≠ some ')')
    (hleft : ∀ modifier, Hoist.hoistTexts {} q ≠ .ok [renderGroup (Modifier.text modifier) []]) :
    ∃ texts, Hoist.hoistTexts {} q = .ok texts
      ∧ Hoist.hoistTexts {} (unwords texts) = .ok texts := by
  have hinside := (holdsInside_iff fun _ => Iff.rfl).mpr hinside
  have hsettles : Settles {} (cleanSearch q) :=
    { clean := ⟨compose_cleanSearch q, fun c hc he => hnul (he ▸ hc)⟩
      solid := solid_cleanSearch q
      laid := (strung_tokensFrom 0 _).laid hbehind
      closing := fun token ht hgroup leaf hleaf => (hinside token ht hgroup leaf hleaf).1
      quotes := fun token ht hgroup leaf hleaf => (hinside token ht hgroup leaf hleaf).2 }
  obtain ⟨⟨result, unwrapped⟩, hhoist⟩ := @hoistText_silent {} rfl maxDepth maxDepth (cleanSearch q)
  have htexts : Hoist.hoistTexts {} q = .ok (result.map Token.text) := by
    show (fun result => result.1.map Token.text)
      <$> Hoist.hoistText {} maxDepth maxDepth (cleanSearch q) = _
    rw [hhoist]
    rfl
  refine ⟨_, htexts, hoistTexts_again hsettles htexts fun modifier he => hleft modifier ?_⟩
  rw [htexts, he]

/-- A lone parenthesis, and metatags from two nested groups. -/
theorem hoistTexts_idempotent_nested :
    Hoist.hoistTexts {} "a ( b order:x -( c limit:\"2 3\" ) ) ( d".toList
        = .ok (["a", "order:x", "limit:\"2 3\"", "( b -( c ) )", "(", "d"].map String.toList)
      ∧ Hoist.hoistTexts {} "a order:x limit:\"2 3\" ( b -( c ) ) ( d".toList
        = .ok (["a", "order:x", "limit:\"2 3\"", "( b -( c ) )", "(", "d"].map String.toList) := by
  have hfirst : Hoist.hoistTexts {} "a ( b order:x -( c limit:\"2 3\" ) ) ( d".toList
      = .ok (["a", "order:x", "limit:\"2 3\"", "( b -( c ) )", "(", "d"].map String.toList) := by
    decide +kernel
  have hinside : ((tokenize (cleanSearch "a ( b order:x -( c limit:\"2 3\" ) ) ( d".toList)).flatMap
      Token.held).all (fun inner => decide (inner.text.head? ≠ some ')'
        ∧ (Hoist.isHoisted Hoist.defaultNames inner = true →
          leavesQuoteOpen inner.body = false))) = true := by
    decide +kernel
  obtain ⟨texts, htexts, hagain⟩ :=
    hoistTexts_idempotent "a ( b order:x -( c limit:\"2 3\" ) ) ( d".toList
      (by decide +kernel)
      (fun inner h => of_decide_eq_true (List.all_eq_true.mp hinside inner h))
      (by decide +kernel) (by rw [hfirst]; simp)
  rw [hfirst] at htexts
  cases htexts
  exact ⟨hfirst, hagain⟩

/-- **Hoisting is not idempotent**: where `)` follows a token without a blank, it closes no group,
and does so once it is set apart. -/
theorem hoistTexts_idempotent_fails :
    ¬ ∀ q : Text, ∃ texts,
      Hoist.hoistTexts {} q = .ok texts ∧ Hoist.hoistTexts {} (unwords texts) = .ok texts := by
  intro h
  have hfirst : Hoist.hoistTexts {} "( a:\"b\")".toList
      = .ok (["(", "a:\"b\"", ")"].map String.toList) := by decide +kernel
  have hsecond : Hoist.hoistTexts {} (unwords (["(", "a:\"b\"", ")"].map String.toList))
      = .ok (["a:\"b\""].map String.toList) := by decide +kernel
  obtain ⟨texts, htexts, hagain⟩ := h "( a:\"b\")".toList
  rw [hfirst] at htexts
  cases htexts
  rw [hsecond] at hagain
  simp at hagain

end TagSearch
