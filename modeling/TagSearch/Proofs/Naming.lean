import TagSearch.Proofs.Status
import TagSearch.Proofs.Unwrapping

/-!
# Metatags as they are written

Looking a search up finds metatags by cutting the text of each token at its first colon. On the
tokens that the lexer reads this yields the name and the value of the metatag, with the modifier in
front of the name. Names are matched as they are written, so the lookup and the compiler find the
same metatags where these are in lowercase (`any_namesDeletion`).
-/

namespace TagSearch

open Text Lexer

/-- A name as metatags have it, with or without a modifier in front. -/
def Lookup.IsName (name : Text) : Prop :=
  ∃ modifier word, (∀ c ∈ word, isNameChar c = true) ∧ name = Modifier.text modifier ++ word

/-! ## Names of deletion -/

namespace Token

/-- Whether a token, as it is written, asks for posts by their deletion. -/
def namesDeletion (token : Token) : Bool :=
  (Lookup.match? Lookup.deletionNames token).any fun (name, value) =>
    Lookup.concernsDeletion name value

/-- Whether a token that is a metatag about deletion has its name in lowercase. -/
def inLowercase (token : Token) : Bool :=
  match token.body with
  | .metatag name _ _ =>
    (Metatag.ofName? name).all fun m => !deletionMetatags.contains m || name == m.name.toList
  | _ => true

end Token

/-- The names that are looked up are the metatags with the modifiers that these take. -/
theorem exists_of_mem_deletionNames {name : Text} (h : name ∈ Lookup.deletionNames) :
    ∃ modifier, ∃ m ∈ deletionMetatags, m.accepts (Clause.ofModifier modifier) = true
      ∧ name = Modifier.text modifier ++ m.name.toList := by
  have hall : Lookup.deletionNames.all (fun name =>
      [none, some .mustNot, some .should].any fun modifier => deletionMetatags.any fun m =>
        m.accepts (Clause.ofModifier modifier)
          && name == Modifier.text modifier ++ m.name.toList) = true := by
    decide +kernel
  have hname := List.all_eq_true.mp hall name h
  simp only [List.any_eq_true, Bool.and_eq_true, beq_iff_eq] at hname
  obtain ⟨modifier, -, m, hm, haccepts, heq⟩ := hname
  exact ⟨modifier, m, hm, haccepts, heq⟩

theorem mem_deletionNames {modifier : Option Modifier} {m : Metatag} (hm : m ∈ deletionMetatags)
    (haccepts : m.accepts (Clause.ofModifier modifier) = true) :
    Modifier.text modifier ++ m.name.toList ∈ Lookup.deletionNames := by
  simp only [deletionMetatags, List.mem_cons, List.not_mem_nil, or_false] at hm
  rcases hm with rfl | rfl | rfl <;> rcases modifier with _ | _ | _ <;>
    revert haccepts <;> decide +kernel

theorem Lookup.concernsDeletion_eq {m : Metatag} (hm : m ∈ deletionMetatags)
    (modifier : Option Modifier) (value : Text) :
    Lookup.concernsDeletion (Modifier.text modifier ++ m.name.toList) value
      = m.concernsDeletion value := by
  simp only [deletionMetatags, List.mem_cons, List.not_mem_nil, or_false] at hm
  rcases hm with rfl | rfl | rfl <;> rcases modifier with _ | _ | _ <;> rfl

theorem isNameChar_of_deletion {m : Metatag} (hm : m ∈ deletionMetatags) :
    ∀ c ∈ m.name.toList, isNameChar c = true := by
  have hall : deletionMetatags.all (fun m => m.name.toList.all isNameChar) = true := by
    decide +kernel
  exact List.all_eq_true.mp (List.all_eq_true.mp hall m hm)

theorem Lookup.isName_of_mem_deletionNames {name : Text} (h : name ∈ Lookup.deletionNames) :
    Lookup.IsName name := by
  obtain ⟨modifier, m, hm, -, rfl⟩ := exists_of_mem_deletionNames h
  exact ⟨modifier, m.name.toList, isNameChar_of_deletion hm, rfl⟩

/-! ## Reading names -/

theorem unquote_quoted (t : Text) : unquote ('"' :: (t ++ ['"'])) = t := by
  simp [unquote]

theorem unquote_eq_self {t : Text} (h : t.head? = some '"' → '"' ∉ t.tail) : unquote t = t := by
  unfold unquote
  split
  · next rest =>
    have hrest : '"' ∉ rest := h rfl
    split
    · next inner hinner =>
      have hmem : '"' ∈ rest.reverse := by simp [hinner]
      exact absurd (List.mem_reverse.mp hmem) hrest
    · rfl
  · rfl

/-- A modifier is taken off the front of what is neither a blank nor a modifier. -/
theorem takeModifier_text {c : Char} (hsolid : isBlank c = false)
    (hsign : Modifier.ofChar? c = none) (modifier : Option Modifier) (t : Text) :
    takeModifier (Modifier.text modifier ++ c :: t) = (modifier, c :: t) := by
  cases modifier with
  | some m =>
    cases m <;>
      simp [Modifier.text, Modifier.toChar, takeModifier, Modifier.ofChar?, hsolid]
  | none =>
    cases t with
    | nil => rfl
    | cons d t => simp [Modifier.text, takeModifier, hsign]

/-- The modifier in front of a word and a colon is read as one, even if the word is empty. -/
theorem takeModifier_name {word : Text} (hword : ∀ c ∈ word, isNameChar c = true)
    (modifier : Option Modifier) (t : Text) :
    takeModifier (Modifier.text modifier ++ (word ++ ':' :: t)) = (modifier, word ++ ':' :: t) := by
  cases word with
  | nil => exact takeModifier_text rfl rfl modifier t
  | cons c word =>
    have hc : isNameChar c = true := hword c List.mem_cons_self
    have hsolid : isBlank c = false := by
      by_contra hblank
      rw [isNameChar_of_isBlank (by simpa using hblank)] at hc
      exact absurd hc (by decide)
    have hsign : Modifier.ofChar? c = none := by
      unfold Modifier.ofChar?
      split
      · revert hc; decide
      · revert hc; decide
      · rfl
    exact takeModifier_text hsolid hsign modifier _

theorem not_mem_name {modifier : Option Modifier} {name : Text}
    (h : ∀ c ∈ name, isNameChar c = true) : ':' ∉ Modifier.text modifier ++ name := by
  have hmodifier : ':' ∉ Modifier.text modifier := by
    rcases modifier with _ | _ | _ <;> decide
  rw [List.mem_append, not_or]
  exact ⟨hmodifier, fun hmem => absurd (h _ hmem) (by decide)⟩

/-- A name with a modifier in front is the one name and the one modifier. -/
theorem modifier_append_inj {modifier modifier' : Option Modifier} {name name' : Text}
    (hname : ∀ c ∈ name, isNameChar c = true) (hname' : ∀ c ∈ name', isNameChar c = true)
    (h : Modifier.text modifier ++ name = Modifier.text modifier' ++ name') :
    modifier = modifier' ∧ name = name' := by
  cases modifier with
  | none =>
    cases modifier' with
    | none => exact ⟨rfl, h⟩
    | some m =>
      have hsign := hname m.toChar (by simp_all [Modifier.text])
      simp [not_isNameChar_toChar] at hsign
  | some m =>
    cases modifier' with
    | none =>
      have hsign := hname' m.toChar (by rw [show name' = _ from h.symm]; simp [Modifier.text])
      simp [not_isNameChar_toChar] at hsign
    | some m' =>
      simp only [Modifier.text, List.singleton_append, List.cons.injEq] at h
      have hsame := congrArg Modifier.ofChar? h.1
      rw [Modifier.ofChar?_toChar, Modifier.ofChar?_toChar] at hsame
      exact ⟨hsame, h.2⟩

/-- A metatag is cut into its name with the modifier and its value. -/
theorem Token.Reads.cut_metatag {token : Token} {rest name value : Text} {quoted : Bool}
    (h : token.Reads rest) (hne : token.text ≠ [])
    (hbody : token.body = .metatag name value quoted) :
    (∀ c ∈ name, isNameChar c = true)
      ∧ ∃ written, cut? ':' token.text = some (Modifier.text token.modifier ++ name, written)
        ∧ unquote written = value := by
  obtain ⟨body, -, htext, -, hread⟩ := (Token.reads_iff hne).mp h
  obtain ⟨m, hm, hname, hvalue, hquoted⟩ : ∃ m, takeMetatag? (body ++ rest) = some m
      ∧ m.name = name ∧ m.value = value ∧ m.quoted = quoted := by
    cases hm : takeMetatag? (body ++ rest) with
    | some m =>
      rw [readBody_of_metatag hm, ReadBody.mk.injEq, hbody, Body.metatag.injEq] at hread
      exact ⟨m, rfl, hread.1⟩
    | none =>
      cases hg : takeGroup? (body ++ rest) with
      | some pair => simp [readBody_of_group hg, hbody] at hread
      | none => simp [readBody_of_run hm hg, hbody] at hread
  obtain ⟨isName, hclosed, -, hunclosed⟩ := isRead_of_takeMetatag? hm
  rw [hname] at isName
  refine ⟨isName, ?_⟩
  have hwritten : body = metatagText name value quoted := by
    rw [readBody_of_metatag hm, ReadBody.mk.injEq] at hread
    rw [← hread.2.1, MetatagParts.text, hname, hvalue, hquoted]
  have hcut : ∀ written, cut? ':' (Modifier.text token.modifier ++ (name ++ ':' :: written))
      = some (Modifier.text token.modifier ++ name, written) := by
    intro written
    rw [← List.append_assoc]
    exact cut?_of_not_mem (not_mem_name isName) written
  rw [htext, hwritten]
  cases quoted with
  | true => exact ⟨_, hcut _, unquote_quoted value⟩
  | false =>
    refine ⟨_, hcut _, unquote_eq_self fun hhead => ?_⟩
    rw [← hvalue] at hhead ⊢
    exact fun hmem => hunclosed hquoted hhead (List.mem_append_left _ hmem)

/-- A metatag is matched by its name as written, if it has a value. -/
theorem Token.Reads.match?_metatag {token : Token} {rest name value : Text} {quoted : Bool}
    (h : token.Reads rest) (hne : token.text ≠ [])
    (hbody : token.body = .metatag name value quoted) (names : List Text) :
    Lookup.match? names token
      = if names.contains (Modifier.text token.modifier ++ name) && !isWhite value then
          some (Modifier.text token.modifier ++ name, value)
        else none := by
  obtain ⟨-, written, hcut, rfl⟩ := h.cut_metatag hne hbody
  rw [Lookup.match?, hcut]

/-- What stands before the first colon of a tag is not the name of any metatag. -/
theorem Token.Reads.cut_tag {token : Token} {rest text name written : Text} (h : token.Reads rest)
    (hne : token.text ≠ []) (hbody : token.body = .tag text)
    (hcut : cut? ':' token.text = some (name, written)) : ¬ Lookup.IsName name := by
  rintro ⟨modifier, word, hword, rfl⟩
  obtain ⟨body, -, -, htake, hread⟩ := (Token.reads_iff hne).mp h
  have hbody_eq : body ++ rest = word ++ ':' :: (written ++ rest) := by
    rw [cut?_eq hcut, List.append_assoc, List.append_assoc, List.cons_append,
      takeModifier_name hword, Prod.mk.injEq] at htake
    exact htake.2.symm
  have hdrop : (body ++ rest).dropWhile isNameChar = ':' :: (written ++ rest) := by
    rw [hbody_eq, List.dropWhile_append_of_pos hword, List.dropWhile_cons_of_neg (by decide)]
  obtain ⟨parts, hparts⟩ : ∃ parts, takeMetatag? (body ++ rest) = some parts := by
    cases hquoted : takeQuoted? (written ++ rest) <;> simp [takeMetatag?, hdrop, hquoted]
  rw [readBody_of_metatag hparts, hbody] at hread
  simp at hread

theorem Token.Reads.namesDeletion_iff {token : Token} {rest name value : Text} {quoted : Bool}
    (h : token.Reads rest) (hne : token.text ≠ [])
    (hbody : token.body = .metatag name value quoted) :
    token.namesDeletion = true ↔ isWhite value = false ∧ ∃ m ∈ deletionMetatags,
      name = m.name.toList ∧ m.accepts token.clause = true ∧ m.concernsDeletion value = true := by
  have hname := (h.cut_metatag hne hbody).1
  have hnames : token.namesDeletion = true ↔ isWhite value = false
      ∧ Modifier.text token.modifier ++ name ∈ Lookup.deletionNames
      ∧ Lookup.concernsDeletion (Modifier.text token.modifier ++ name) value = true := by
    rw [Token.namesDeletion, h.match?_metatag hne hbody]
    by_cases hmem : Modifier.text token.modifier ++ name ∈ Lookup.deletionNames <;>
      cases isWhite value <;> simp [hmem]
  rw [hnames]
  refine and_congr_right fun _ => ⟨?_, ?_⟩
  · rintro ⟨hmem, hconcerns⟩
    obtain ⟨modifier, m, hm, haccepts, heq⟩ := exists_of_mem_deletionNames hmem
    rw [heq, Lookup.concernsDeletion_eq hm] at hconcerns
    obtain ⟨hmodifier, hsame⟩ := modifier_append_inj hname (isNameChar_of_deletion hm) heq
    exact ⟨m, hm, hsame, by rwa [Token.clause, hmodifier], hconcerns⟩
  · rintro ⟨m, hm, rfl, haccepts, hconcerns⟩
    exact ⟨mem_deletionNames hm haccepts, by rwa [Lookup.concernsDeletion_eq hm]⟩

/-- **In lowercase a metatag about deletion means the same written as compiled.** -/
theorem Token.Reads.namesDeletion_eq {token : Token} {rest : Text} (h : token.Reads rest)
    (hne : token.text ≠ []) (hleaf : ∀ source, token.body ≠ .group source)
    (hlower : token.inLowercase = true) : token.namesDeletion = token.asksDeletion := by
  cases hbody : token.body with
  | group source => exact absurd hbody (hleaf source)
  | tag text =>
    have hasks : token.asksDeletion = false := by
      simp [Token.asksDeletion, Compiler.metatag?, hbody]
    rw [hasks, Token.namesDeletion, Lookup.match?]
    cases hcut : cut? ':' token.text with
    | none => rfl
    | some pair =>
      have hname : pair.1 ∉ Lookup.deletionNames := fun hmem =>
        h.cut_tag hne hbody hcut (Lookup.isName_of_mem_deletionNames hmem)
      simp [hname]
  | metatag name value quoted =>
    rw [Bool.eq_iff_iff, h.namesDeletion_iff hne hbody, Token.asksDeletion_iff hbody]
    refine and_congr_right fun _ => ⟨?_, ?_⟩
    · rintro ⟨m, hm, rfl, hasked⟩
      exact ⟨m, Metatag.ofName?_name m, hasked⟩
    · rintro ⟨m, hfound, hasked⟩
      have hm := Metatag.concernsDeletion_mem hasked.2
      have hspelled : name = m.name.toList := by
        simpa [Token.inLowercase, hbody, hfound, hm] using hlower
      exact ⟨m, hm, hspelled, hasked⟩

/-! ## Leaves of a search -/

/-- What a search asks for, written and compiled, if it does so in lowercase. -/
theorem any_namesDeletion {t : Text}
    (hlower : ∀ leaf ∈ leavesIn (tokenize t), leaf.inLowercase = true) :
    (leavesIn (tokenize t)).any Token.namesDeletion
      = (leavesIn (tokenize t)).any Token.asksDeletion := by
  rw [Bool.eq_iff_iff, List.any_eq_true, List.any_eq_true]
  refine exists_congr fun leaf => and_congr_right fun h => ?_
  obtain ⟨⟨⟨rest, hreads⟩, hne⟩, hleaf⟩ :=
    forall_leavesIn (Q := fun token => (∃ rest, token.Reads rest) ∧ token.text ≠ [])
      (fun token h => h) (fun _ _ inner hinner => exists_reads_of_mem_tokensFrom hinner)
      (fun token htoken => exists_reads_of_mem_tokensFrom htoken) leaf h
  rw [hreads.namesDeletion_eq hne hleaf (hlower leaf h)]

/-- What a search is looked up for is decided by its leaves. -/
theorem Lookup.hidesDeleted_eq {t : Text} (h : depthIn (tokenize (cleanSearch t)) ≤ maxDepth)
    (alwaysShow : Bool) : Lookup.hidesDeleted t alwaysShow
      = (!alwaysShow && !(leavesIn (tokenize (cleanSearch t))).any Token.namesDeletion) := by
  have hvisited : Lookup.visited true t = Tree.tokensOf (Tree.ofText (cleanSearch t)) := by
    rw [Lookup.visited, if_pos rfl]
    refine Tree.leavesOf_eq_tokensOf _ _ ?_
    rwa [Tree.ofText_eq]
  rw [Lookup.hidesDeleted, Lookup.allMatches, hvisited, Tree.ofText_eq, leavesIn, List.any_map,
    List.any_filterMap]
  rfl

end TagSearch
