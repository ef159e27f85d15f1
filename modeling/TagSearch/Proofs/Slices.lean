import Mathlib.Data.List.Pairwise
import TagSearch.Lookup
import TagSearch.Proofs.Lifting

/-!
# Tokens as slices of a text

The lexer loses nothing but blanks and reads nothing twice: its tokens lie in the text one behind
the other, with blanks between them (`Lies`). So each token is the slice of the text at its span,
and every character that is no blank belongs to just one token (`tokenize_partition`).

What a token is does not depend on where it was cut out: its own text is lexed to that token and
nothing else (`tokenize_text_of_token`), for the tokens inside groups as well.
-/

namespace TagSearch

open Text Lexer

/-! ## Bytes -/

namespace Text

theorem byteLength_cons (c : Char) (t : Text) :
    byteLength (c :: t) = c.utf8Size + byteLength t := rfl

theorem byteLength_append (first second : Text) :
    byteLength (first ++ second) = byteLength first + byteLength second := by
  induction first with
  | nil => exact (Nat.zero_add _).symm
  | cons c first ih => rw [List.cons_append, byteLength_cons, byteLength_cons, ih, Nat.add_assoc]

theorem byteLength_pos {t : Text} (h : t ≠ []) : 0 < byteLength t := by
  obtain ⟨c, rest, rfl⟩ := List.exists_cons_of_ne_nil h
  rw [byteLength_cons]
  have := c.utf8Size_pos
  omega

/-- The bytes that are counted are those of the printed form. -/
theorem utf8ByteSize_ofList (t : Text) : (String.ofList t).utf8ByteSize = byteLength t := by
  induction t with
  | nil => rfl
  | cons c t ih =>
    rw [String.ofList_cons, String.utf8ByteSize_append, ih, byteLength_cons,
      String.utf8ByteSize_singleton]

/-- A part of a text starts and ends between characters, and is the slice there. -/
theorem exists_extract (before part after : Text) :
    ∃ start stop : (before ++ (part ++ after)).toStr.Pos,
      start.offset.byteIdx = byteLength before
        ∧ stop.offset.byteIdx = byteLength before + byteLength part
        ∧ (before ++ (part ++ after)).toStr.extract start stop = part.toStr := by
  have hstart : String.Pos.Raw.IsValid (before ++ (part ++ after)).toStr ⟨byteLength before⟩ := by
    refine String.Pos.Raw.isValid_iff_exists_append.mpr
      ⟨before.toStr, (part ++ after).toStr, String.ofList_append, ?_⟩
    rw [← utf8ByteSize_ofList]
    rfl
  have hstop : String.Pos.Raw.IsValid (before ++ (part ++ after)).toStr
      ⟨byteLength before + byteLength part⟩ := by
    refine String.Pos.Raw.isValid_iff_exists_append.mpr
      ⟨(before ++ part).toStr, after.toStr, ?_, ?_⟩
    · rw [← List.append_assoc]
      exact String.ofList_append
    · rw [← byteLength_append, ← utf8ByteSize_ofList]
      rfl
  refine ⟨⟨_, hstart⟩, ⟨_, hstop⟩, rfl, rfl, ?_⟩
  rw [← String.toByteArray_inj, String.toByteArray_extract]
  simp only [toStr, String.ofList_append, String.toByteArray_append]
  have hsize : ∀ t : Text, byteLength t = (String.ofList t).toByteArray.size := by
    intro t
    rw [String.size_toByteArray, utf8ByteSize_ofList]
  refine (ByteArray.extract_append_size_add' (i := 0) (hsize before)).trans ?_
  exact ByteArray.extract_append_eq_left (hsize part)

end Text

/-! ## How tokens lie in a text -/

/-- Tokens lie in a text, which starts `offset` bytes into the search, one behind the other, with
blanks in front of each and behind the last. -/
inductive Lies : Nat → Text → List Token → Prop where
  | nil {offset : Nat} {blanks : Text} (hb : ∀ c ∈ blanks, isBlank c = true) :
    Lies offset blanks []
  | cons {offset : Nat} {blanks rest : Text} {token : Token} {tokens : List Token}
    (hb : ∀ c ∈ blanks, isBlank c = true) (hoffset : token.offset = offset + byteLength blanks)
    (hne : token.text ≠ []) (hrest : Lies token.stop rest tokens) :
    Lies offset (blanks ++ (token.text ++ rest)) (token :: tokens)

/-- **The tokens of a text lie in it.** -/
theorem lies_tokensFrom (offset : Nat) (t : Text) : Lies offset t (tokensFrom offset t) := by
  fun_induction tokensFrom offset t with
  | case1 offset t hd =>
    exact .nil (List.dropWhile_eq_nil_iff.mp hd)
  | case2 offset t c rest hd start read ih =>
    have htext : t = t.takeWhile isBlank ++ (read.1.text ++ read.2) := by
      rw [readToken_eq, ← hd, List.takeWhile_append_dropWhile]
    have hlies := Lies.cons (fun c hc => List.mem_takeWhile_imp hc) rfl
      (readToken_text_ne_nil (t := c :: rest) (by simp) start) ih
    rwa [← htext] at hlies

/-- A character of two texts in a row belongs to the first or to the second. -/
theorem exists_of_append_eq {first second before after : Text} {c : Char}
    (h : first ++ second = before ++ c :: after) :
    (∃ rest, first = before ++ c :: rest)
      ∨ ∃ front, before = first ++ front ∧ second = front ++ c :: after := by
  rcases List.append_eq_append_iff.mp h with ⟨front, hbefore, hsecond⟩ | ⟨rest, hfirst, hafter⟩
  · exact Or.inr ⟨front, hbefore, hsecond⟩
  · cases rest with
    | nil => exact Or.inr ⟨[], by simpa using hfirst.symm, hafter.symm⟩
    | cons d rest =>
      rw [List.cons_append, List.cons.injEq] at hafter
      exact Or.inl ⟨rest, by rw [hafter.1, hfirst]⟩

namespace Lies

variable {offset : Nat} {t : Text} {tokens : List Token}

/-- Each token is a part of the text, as far from its start as the span says. -/
theorem exists_part (h : Lies offset t tokens) {token : Token} (hmem : token ∈ tokens) :
    ∃ before after, t = before ++ (token.text ++ after)
      ∧ token.offset = offset + byteLength before ∧ token.text ≠ [] := by
  induction h with
  | nil hb => simp at hmem
  | @cons offset blanks rest first tokens hb hoffset hne hrest ih =>
    rcases List.mem_cons.mp hmem with rfl | hmem
    · exact ⟨blanks, rest, rfl, hoffset, hne⟩
    · obtain ⟨before, after, rfl, hbefore, htext⟩ := ih hmem
      refine ⟨blanks ++ (first.text ++ before), after, by simp, ?_, htext⟩
      rw [hbefore, Token.stop, hoffset, byteLength_append, byteLength_append]
      omega

/-- **Spans follow each other.** -/
theorem pairwise (h : Lies offset t tokens) :
    tokens.Pairwise fun first second => first.stop ≤ second.offset := by
  induction h with
  | nil hb => exact .nil
  | cons hb hoffset hne hrest ih =>
    refine .cons (fun later hlater => ?_) ih
    obtain ⟨before, after, -, hbefore, -⟩ := hrest.exists_part hlater
    omega

/-- **What is no blank belongs to a token.** -/
theorem exists_token (h : Lies offset t tokens) {before after : Text} {c : Char}
    (ht : t = before ++ c :: after) (hc : isBlank c = false) :
    ∃ token ∈ tokens, token.offset ≤ offset + byteLength before
      ∧ offset + byteLength before + c.utf8Size ≤ token.stop := by
  induction h generalizing before with
  | nil hb =>
    have hblank := hb c (by simp [ht])
    rw [hc] at hblank
    exact absurd hblank Bool.false_ne_true
  | @cons offset blanks rest token tokens hb hoffset hne hrest ih =>
    rcases exists_of_append_eq ht with ⟨others, rfl⟩ | ⟨front, rfl, hbehind⟩
    · have hblank := hb c (by simp)
      rw [hc] at hblank
      exact absurd hblank Bool.false_ne_true
    · rcases exists_of_append_eq hbehind with ⟨others, htext⟩ | ⟨front, rfl, hlater⟩
      · -- the character is one of the token's own
        refine ⟨token, List.mem_cons_self, ?_, ?_⟩
        · rw [hoffset, byteLength_append]
          omega
        · rw [Token.stop, htext, hoffset, byteLength_append, byteLength_append, byteLength_cons]
          omega
      · obtain ⟨later, hmem, hstart, hstop⟩ := ih hlater
        refine ⟨later, List.mem_cons_of_mem _ hmem, ?_⟩
        rw [Token.stop, hoffset] at hstart hstop
        rw [byteLength_append, byteLength_append]
        omega

theorem length_le (h : Lies offset t tokens) : tokens.length ≤ t.length := by
  induction h with
  | nil hb => exact Nat.zero_le _
  | cons hb hoffset hne hrest ih =>
    have hpos := List.length_pos_iff.mpr hne
    rw [List.length_cons, List.length_append, List.length_append]
    omega

end Lies

/-! ## How tokens are written -/

/-- How a body is written. Blanks may stand around what a group holds. -/
inductive Body.IsWrittenAs : Body → Text → Prop where
  | tag (text : Text) : IsWrittenAs (.tag text) text
  | metatag (name value : Text) (quoted : Bool) :
    IsWrittenAs (.metatag name value quoted) (metatagText name value quoted)
  | group {before source after : Text} (hbefore : ∀ c ∈ before, isBlank c = true)
    (hafter : ∀ c ∈ after, isBlank c = true) :
    IsWrittenAs (.group source) ('(' :: (before ++ (source ++ (after ++ [')']))))

/-- What a token says about its own text: the text is the modifier and the body as written, and a
group holds less than that, without blanks at its ends. -/
structure Token.IsWritten (token : Token) : Prop where
  text : ∃ body, token.text = Modifier.text token.modifier ++ body ∧ token.body.IsWrittenAs body
  shorter : ∀ source, token.body = .group source → source.byteLength < token.text.byteLength
  trimmed : ∀ source, token.body = .group source → StartsSolid source ∧ EndsSolid source

/-- Trimming takes blanks off both ends, and all that are there. -/
theorem exists_trimBlanks (t : Text) :
    ∃ before after, (∀ c ∈ before, isBlank c = true) ∧ (∀ c ∈ after, isBlank c = true)
      ∧ t = before ++ (trimBlanks t ++ after)
      ∧ StartsSolid (trimBlanks t) ∧ EndsSolid (trimBlanks t) := by
  have hblanks : ∀ c ∈ t.takeWhile isBlank, isBlank c = true :=
    fun c hc => List.mem_takeWhile_imp hc
  obtain ⟨after, hafter, hsplit, hsolid⟩ := exists_trimmed hblanks (startsSolid_dropWhile t)
  rw [List.takeWhile_append_dropWhile] at hsplit hsolid
  refine ⟨t.takeWhile isBlank, after, hblanks, hafter, ?_, hsolid⟩
  rw [← hsplit, List.takeWhile_append_dropWhile]

theorem readBody_isWrittenAs (t : Text) : (readBody t).body.IsWrittenAs (readBody t).text := by
  cases hm : takeMetatag? t with
  | some m =>
    rw [readBody_of_metatag hm]
    exact .metatag m.name m.value m.quoted
  | none =>
    cases hg : takeGroup? t with
    | none =>
      rw [readBody_of_run hm hg]
      exact .tag _
    | some pair =>
      obtain ⟨inside, after⟩ := pair
      obtain ⟨front, back, hfront, hback, hinside, -⟩ := exists_trimBlanks inside
      have hwritten : (Body.group (trimBlanks inside)).IsWrittenAs _ := .group hfront hback
      rw [readBody_of_group hg]
      rwa [← List.append_assoc (trimBlanks inside), ← List.append_assoc front, ← hinside]
        at hwritten

theorem Body.IsWrittenAs.byteLength_lt {source text : Text}
    (h : (Body.group source).IsWrittenAs text) : source.byteLength < text.byteLength := by
  cases h with
  | group hbefore hafter =>
    have hclosing : 0 < byteLength [')'] := byteLength_pos (by simp)
    rw [byteLength_cons, byteLength_append, byteLength_append, byteLength_append]
    omega

theorem Token.Reads.exists_written {token : Token} {rest : Text} (h : token.Reads rest)
    (hne : token.text ≠ []) :
    ∃ body, token.text = Modifier.text token.modifier ++ body ∧ token.body.IsWrittenAs body := by
  obtain ⟨body, -, htext, -, hread⟩ := (Token.reads_iff hne).mp h
  have hwritten := readBody_isWrittenAs (body ++ rest)
  rw [hread] at hwritten
  exact ⟨body, htext, hwritten⟩

/-- A token is written as its modifier and then its body. -/
theorem Token.written_of_mem {token : Token} {t : Text} (h : token ∈ tokenize t) :
    token.text = Modifier.text token.modifier ++ token.bodyText
      ∧ token.body.IsWrittenAs token.bodyText := by
  obtain ⟨⟨rest, hreads⟩, hne⟩ := exists_reads_of_mem_tokensFrom h
  obtain ⟨body, htext, hwritten⟩ := hreads.exists_written hne
  have hbody : token.bodyText = body := by rw [Token.bodyText, htext, List.drop_left]
  rw [hbody]
  exact ⟨htext, hwritten⟩

/-- **A token is written as it was read.** -/
theorem Token.Reads.isWritten {token : Token} {rest : Text} (h : token.Reads rest)
    (hne : token.text ≠ []) : token.IsWritten where
  text := h.exists_written hne
  shorter source hbody := by
    obtain ⟨body, htext, hwritten⟩ := h.exists_written hne
    rw [hbody] at hwritten
    have hlt := hwritten.byteLength_lt
    rw [htext, byteLength_append]
    omega
  trimmed source hbody := by
    obtain ⟨inside, -, rfl, -⟩ := h.exists_group hne hbody
    obtain ⟨-, -, -, -, -, hsolid⟩ := exists_trimBlanks inside
    exact hsolid

/-! ## The partition -/

/-- The token is cut out of the text at its span, which starts and ends between characters. -/
def Token.IsSliceOf (token : Token) (s : Text) : Prop :=
  ∃ start stop : s.toStr.Pos, start.offset.byteIdx = token.offset
    ∧ stop.offset.byteIdx = token.stop ∧ s.toStr.extract start stop = token.text.toStr

theorem Token.isSliceOf {token : Token} {s before after : Text}
    (h : s = before ++ (token.text ++ after)) (hoffset : token.offset = byteLength before) :
    token.IsSliceOf s := by
  subst h
  obtain ⟨start, stop, hstart, hstop, hextract⟩ := exists_extract before token.text after
  exact ⟨start, stop, by rw [hstart, hoffset], by rw [hstop, Token.stop, hoffset], hextract⟩

/-- Spans that follow each other share no byte. -/
theorem eq_of_spans_meet {tokens : List Token}
    (h : tokens.Pairwise fun first second => first.stop ≤ second.offset) {token other : Token}
    (hmem : token ∈ tokens) (hother : other ∈ tokens) {n : Nat}
    (hn : token.offset ≤ n ∧ n < token.stop) (hn' : other.offset ≤ n ∧ n < other.stop) :
    token = other := by
  by_contra hne
  have hsymm : Std.Symm fun first second : Token =>
      first.stop ≤ second.offset ∨ second.stop ≤ first.offset := ⟨fun _ _ => Or.symm⟩
  have happart := (h.imp Or.inl : tokens.Pairwise fun first second : Token =>
    first.stop ≤ second.offset ∨ second.stop ≤ first.offset).forall hmem hother hne
  omega

/-- **The tokens of a text partition it.** There are no more of them than characters; each is the
slice of the text at a span that is not empty, and is written as its modifier and its body say; the
spans follow each other; and every character that is no blank lies in exactly one of them. -/
theorem tokenize_partition (s : Text) :
    (tokenize s).length ≤ s.length
      ∧ (∀ token ∈ tokenize s,
          token.offset < token.stop ∧ token.IsSliceOf s ∧ token.IsWritten)
      ∧ ((tokenize s).Pairwise fun first second => first.stop ≤ second.offset)
      ∧ ∀ before c after, s = before ++ c :: after → isBlank c = false →
          ∃! token, token ∈ tokenize s ∧ token.offset ≤ byteLength before
            ∧ byteLength before + c.utf8Size ≤ token.stop := by
  have hlies : Lies 0 s (tokenize s) := lies_tokensFrom 0 s
  refine ⟨hlies.length_le, fun token htoken => ?_, hlies.pairwise, ?_⟩
  · obtain ⟨before, after, hs, hoffset, hne⟩ := hlies.exists_part htoken
    rw [Nat.zero_add] at hoffset
    obtain ⟨⟨rest, hreads⟩, -⟩ := exists_reads_of_mem_tokensFrom htoken
    exact ⟨Nat.lt_add_of_pos_right (byteLength_pos hne), Token.isSliceOf hs hoffset,
      hreads.isWritten hne⟩
  · intro before c after hs hc
    obtain ⟨token, htoken, hstart, hstop⟩ := hlies.exists_token hs hc
    rw [Nat.zero_add] at hstart hstop
    refine ⟨token, ⟨htoken, hstart, hstop⟩, ?_⟩
    rintro other ⟨hother, hstart', hstop'⟩
    have hsize := c.utf8Size_pos
    exact eq_of_spans_meet hlies.pairwise hother htoken (n := byteLength before) (by omega)
      (by omega)

/-- Tokens that touch each other, characters of several bytes and a parenthesis inside quotes: the
group is the slice at its span, and the `y` in it belongs to no other token. -/
theorem tokenize_partition_umlauts :
    let s := "ö -( a:\"ü ) y\"b ) ~(".toList
    let token : Token := ⟨some .mustNot, .group "a:\"ü ) y\"b".toList,
      "-( a:\"ü ) y\"b )".toList, 3⟩
    token ∈ tokenize s ∧ token.stop = 19 ∧ token.IsSliceOf s ∧ token.IsWritten
      ∧ ∃! other, other ∈ tokenize s ∧ other.offset ≤ 14 ∧ 15 ≤ other.stop := by
  intro s token
  obtain ⟨-, htokens, -, hcovered⟩ := tokenize_partition s
  have htoken : token ∈ tokenize s := by decide +kernel
  obtain ⟨-, hslice, hwritten⟩ := htokens token htoken
  refine ⟨htoken, by decide +kernel, hslice, hwritten, ?_⟩
  exact hcovered "ö -( a:\"ü ) ".toList 'y' "\"b ) ~(".toList (by decide +kernel) (by decide)

/-! ## Tokens alone -/

mutual

/-- Every token of a tree, a group before what it holds. -/
def Tree.everyToken : Tree → List Token
  | .leaf token => [token]
  | .group token children => token :: Tree.everyTokenOf children

/-- Every token of some trees, groups and what they hold included. -/
def Tree.everyTokenOf : List Tree → List Token
  | [] => []
  | tree :: rest => tree.everyToken ++ Tree.everyTokenOf rest

end

theorem Tree.mem_everyTokenOf {token : Token} {trees : List Tree} :
    token ∈ Tree.everyTokenOf trees ↔ ∃ tree ∈ trees, token ∈ tree.everyToken := by
  induction trees with
  | nil => simp [Tree.everyTokenOf]
  | cons tree rest ih =>
    rw [Tree.everyTokenOf, List.mem_append, ih]
    simp

/-- A token at any depth is a token of the text that its level was read from. -/
theorem Tree.exists_level {s : Text} {token : Token}
    (h : token ∈ Tree.everyTokenOf (Tree.ofText s)) : ∃ level, token ∈ tokenize level := by
  obtain ⟨tree, htree, htoken⟩ := Tree.mem_everyTokenOf.mp h
  rw [Tree.ofText_eq] at htree
  obtain ⟨root, hroot, rfl⟩ := List.mem_map.mp htree
  unfold Tree.ofToken at htoken
  split at htoken
  · next source hbody =>
    rcases List.mem_cons.mp htoken with rfl | hinside
    · exact ⟨s, hroot⟩
    · have hlt := length_group_lt hroot hbody
      exact Tree.exists_level hinside
  · rw [Tree.everyToken, List.mem_singleton] at htoken
    exact ⟨s, htoken ▸ hroot⟩
termination_by s.length

/-- **A token of a text is all there is in its own text.** -/
theorem tokenize_text_of_mem {t : Text} {token : Token} (h : token ∈ tokenize t) :
    tokenize token.text = [token.atStart] := by
  rcases (strung_tokensFrom 0 t).stands_or_opening token h with hstands | hopening
  · exact hstands.tokenize
  · exact hopening.tokenize

/-- **Every token is read alike out of context.** At whatever depth of a text a token is found, its
own text is lexed to that one token, from the first byte on. So the tree of that text is the tree of
the token, and the text counts as one whole group just if the token is a group. -/
theorem tokenize_text_of_token (s : Text) (token : Token)
    (h : token ∈ Tree.everyTokenOf (Tree.ofText s)) :
    tokenize token.text = [{ token with offset := 0 }]
      ∧ Tree.ofText token.text = [Tree.ofToken { token with offset := 0 }]
      ∧ Lookup.isWholeGroup token.text = token.isGroup := by
  obtain ⟨level, hlevel⟩ := Tree.exists_level h
  have halone : tokenize token.text = [{ token with offset := 0 }] := tokenize_text_of_mem hlevel
  refine ⟨halone, by rw [Tree.ofText_eq, halone, List.map_singleton], ?_⟩
  simp [Lookup.isWholeGroup, halone, Token.isGroup, Token.group?]

/-- A group inside a group, whose `)` in quotes closes nothing, and a modified `(` that is never
closed: each is read alone as it was among the others. -/
theorem tokenize_text_of_token_nested :
    let s := "( ~( p:\"q ) r\" s ) ) -( u:\"v".toList
    let inner : Token := ⟨some .should, .group "p:\"q ) r\" s".toList,
      "~( p:\"q ) r\" s )".toList, 0⟩
    let opening : Token := ⟨some .mustNot, .tag ['('], "-(".toList, 21⟩
    inner ∈ Tree.everyTokenOf (Tree.ofText s) ∧ tokenize inner.text = [inner]
      ∧ opening ∈ Tree.everyTokenOf (Tree.ofText s)
      ∧ tokenize opening.text = [{ opening with offset := 0 }] := by
  intro s inner opening
  have hinner : inner ∈ Tree.everyTokenOf (Tree.ofText s) := by decide +kernel
  have hopening : opening ∈ Tree.everyTokenOf (Tree.ofText s) := by decide +kernel
  exact ⟨hinner, (tokenize_text_of_token s inner hinner).1, hopening,
    (tokenize_text_of_token s opening hopening).1⟩

end TagSearch
