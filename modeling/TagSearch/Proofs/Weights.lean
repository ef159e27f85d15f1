import TagSearch.Proofs.Counting
import TagSearch.Proofs.Provenance
import TagSearch.Proofs.Unwrapping

/-!
# Tags are no more than characters

Whatever hoisting and lexing make of a search, on any text and past any limit, they make it of the
characters of the search that are no blanks, and parentheses are written only where they stood
before. Every tag takes up one of these characters, so that the count of tags is bounded by the
search alone.

* `MadeOf`: tokens and texts that weigh no more than what they are made of. `hoist_madeOf` says that
  the tokens of a level are.
* `Yields.tagCount_le`: no level counts more tags than its text weighs.
-/

namespace TagSearch

open Text Lexer

/-! ## Weights -/

namespace Text

/-- The number of characters of a text that are no blanks. -/
def weight (t : Text) : Nat :=
  t.countP (!isBlank ·)

/-- What some texts weigh together. -/
def weightOf (texts : List Text) : Nat :=
  (texts.map weight).sum

@[simp] theorem weight_append (first second : Text) :
    weight (first ++ second) = weight first + weight second :=
  List.countP_append

@[simp] theorem weightOf_nil : weightOf [] = 0 := rfl

@[simp] theorem weightOf_cons (t : Text) (rest : List Text) :
    weightOf (t :: rest) = weight t + weightOf rest := by
  simp [weightOf]

@[simp] theorem weightOf_append (first second : List Text) :
    weightOf (first ++ second) = weightOf first + weightOf second := by
  simp [weightOf]

theorem weight_le_length (t : Text) : weight t ≤ t.length :=
  List.countP_le_length

theorem weight_cons (c : Char) (t : Text) :
    weight (c :: t) = weight t + if isBlank c then 0 else 1 := by
  rw [weight, weight, List.countP_cons]
  cases isBlank c <;> rfl

theorem weight_dropWhile (t : Text) : weight (t.dropWhile isBlank) = weight t := by
  induction t with
  | nil => rfl
  | cons c t ih =>
    by_cases hc : isBlank c = true
    · rw [List.dropWhile_cons_of_pos hc, ih, weight_cons, if_pos hc, Nat.add_zero]
    · rw [List.dropWhile_cons_of_neg hc]

theorem weight_trimBy_le (p : Char → Bool) (t : Text) : weight (t.trimBy p) ≤ weight t := by
  obtain ⟨left, right, h, -, -⟩ := exists_trimBy p t
  have hweight := congrArg weight h
  rw [weight_append, weight_append] at hweight
  omega

theorem weight_unwords (texts : List Text) : weight (unwords texts) = weightOf texts := by
  induction texts with
  | nil => rfl
  | cons t rest ih =>
    cases rest with
    | nil => simp [unwords]
    | cons next rest =>
      rw [unwords_cons_cons, weight_append, weight_cons, ih, if_pos (by decide)]
      simp

theorem weightOf_filter (texts : List Text) :
    weightOf (texts.filter (!·.isEmpty)) = weightOf texts := by
  induction texts with
  | nil => rfl
  | cons t rest ih =>
    cases t with
    | nil => simpa [weight] using ih
    | cons c t => simp [ih]

/-- A group weighs as much as its children, its modifier and the parentheses. -/
theorem weight_renderGroup (modifier : Text) (children : List Text) :
    weight (renderGroup modifier children) = weight modifier + weightOf children + 2 := by
  have hinner := weight_unwords (children.filter (!·.isEmpty))
  rw [weightOf_filter] at hinner
  unfold renderGroup
  dsimp only
  split
  · next hempty =>
    rw [List.isEmpty_iff.mp hempty] at hinner
    rw [weight_append, ← hinner]
    rfl
  · simp only [weight_append, weight_cons, hinner, show isBlank '(' = false by decide,
      show isBlank ' ' = true by decide, show weight [' ', ')'] = 1 by decide]
    simp
    omega

/-- Cleaning a composed text again adds nothing to it. -/
theorem weight_cleanSearch_le {t : Text} (h : IsStable t) : weight (cleanSearch t) ≤ weight t := by
  rw [cleanSearch, compose_eq_self_iff_isStable.mpr h]
  exact weight_trimBy_le _ t

end Text

/-! ## Tokens -/

/-- The tokens of a text weigh as much as the text, and each of them something. -/
theorem weight_tokensFrom (offset : Nat) (t : Text) :
    weightOf ((tokensFrom offset t).map Token.text) = weight t
      ∧ ∀ token ∈ tokensFrom offset t, 1 ≤ weight token.text := by
  fun_induction tokensFrom offset t with
  | case1 offset t hd =>
    rw [← weight_dropWhile t, hd]
    exact ⟨rfl, by simp⟩
  | case2 offset t c rest hd start read ih =>
    have heq : read.1.text ++ read.2 = c :: rest := readToken_eq start (c :: rest)
    have hweight := congrArg weight heq
    rw [← hd, weight_dropWhile, weight_append] at hweight
    have hpos : 1 ≤ weight read.1.text := by
      cases htext : read.1.text with
      | nil => exact absurd htext (readToken_text_ne_nil (by simp) start)
      | cons d text =>
        have hsolid : isBlank c = false := by
          have hsolid := startsSolid_dropWhile t
          rw [hd] at hsolid
          exact hsolid c rfl
        rw [htext] at heq
        obtain rfl : d = c := (List.cons.inj heq).1
        rw [weight_cons, hsolid]
        exact Nat.le_add_left 1 _
    rw [List.map_cons, weightOf_cons, ih.1]
    exact ⟨hweight, List.forall_mem_cons.mpr ⟨hpos, ih.2⟩⟩

theorem weightOf_flatMap_tokenize (texts : List Text) :
    weightOf ((texts.flatMap tokenize).map Token.text) = weightOf texts := by
  induction texts with
  | nil => rfl
  | cons t rest ih =>
    rw [List.flatMap_cons, List.map_append, weightOf_append, ih, weightOf_cons, tokenize,
      (weight_tokensFrom 0 t).1]

/-- The token was read from some text. -/
def Token.IsRead (token : Token) : Prop :=
  ∃ t, token ∈ tokenize t

namespace Token.IsRead

variable {token : Token} {source : Text}

theorem weight_pos (h : token.IsRead) : 1 ≤ weight token.text := by
  obtain ⟨t, ht⟩ := h
  exact (weight_tokensFrom 0 t).2 token ht

/-- A group is a pair of parentheses heavier than what it holds. -/
theorem weight_source (h : token.IsRead) (hbody : token.body = .group source) :
    weight (Modifier.text token.modifier) + weight source + 2 ≤ weight token.text := by
  obtain ⟨t, ht⟩ := h
  obtain ⟨⟨rest, hreads⟩, hne⟩ := exists_reads_of_mem_tokensFrom ht
  obtain ⟨inside, htext, rfl, -⟩ := hreads.exists_group hne hbody
  have htrim : weight (trimBlanks inside) ≤ weight inside := weight_trimBy_le _ inside
  have hclosing : weight [')'] = 1 := by decide
  rw [htext, weight_append, weight_cons, weight_append, hclosing, if_neg (by decide)]
  omega

theorem piecewise_source {P : Text → Prop} (h : token.IsRead) (hP : Piecewise P)
    (hbody : token.body = .group source) (htext : P token.text) : P source := by
  obtain ⟨t, ht⟩ := h
  obtain ⟨⟨rest, hreads⟩, hne⟩ := exists_reads_of_mem_tokensFrom ht
  exact hP.source hreads hne hbody htext

end Token.IsRead

/-! ## What hoisting makes of a text -/

/-- Tokens, and texts that are left, made of other texts. They weigh no more than those and have the
properties that pass to pieces. -/
structure MadeOf (texts : List Text) (tokens : List Token) (left : List Text) : Prop where
  weight_le : weightOf (tokens.map Token.text) + weightOf left ≤ weightOf texts
  pieces : ∀ {P : Text → Prop}, Piecewise P → (∀ t ∈ texts, P t) →
    (∀ token ∈ tokens, P token.text) ∧ ∀ t ∈ left, P t
  read : ∀ token ∈ tokens, token.IsRead

namespace MadeOf

variable {texts texts' left left' : List Text} {tokens tokens' : List Token} {token : Token}

theorem nil : MadeOf texts [] [] where
  weight_le := Nat.zero_le _
  pieces _ _ := by simp
  read := by simp

theorem append (h : MadeOf texts tokens left) (h' : MadeOf texts' tokens' left') :
    MadeOf (texts ++ texts') (tokens ++ tokens') (left ++ left') where
  weight_le := by
    have hle := h.weight_le
    have hle' := h'.weight_le
    rw [List.map_append, weightOf_append, weightOf_append, weightOf_append]
    omega
  pieces hP htexts := by
    obtain ⟨hfirst, hsecond⟩ := List.forall_mem_append.mp htexts
    obtain ⟨htokens, hleft⟩ := h.pieces hP hfirst
    obtain ⟨htokens', hleft'⟩ := h'.pieces hP hsecond
    exact ⟨List.forall_mem_append.mpr ⟨htokens, htokens'⟩,
      List.forall_mem_append.mpr ⟨hleft, hleft'⟩⟩
  read := List.forall_mem_append.mpr ⟨h.read, h'.read⟩

/-- A token by itself. -/
theorem single (h : token.IsRead) : MadeOf [token.text] [token] [] where
  weight_le := by simp
  pieces _ htexts := by simpa using htexts
  read := by simpa using h

/-- A text that is left as it is. -/
theorem kept (t : Text) : MadeOf [t] [] [t] where
  weight_le := by simp
  pieces _ htexts := by simpa using htexts
  read := by simp

theorem lexed (t : Text) : MadeOf [t] (tokenize t) [] where
  weight_le := by
    have hweight := (weight_tokensFrom 0 t).1
    simpa [tokenize] using hweight.le
  pieces hP htexts := by
    refine ⟨fun token htoken => ?_, by simp⟩
    exact hP.of_mem_tokensFrom (htexts t List.mem_cons_self) htoken
  read token htoken := ⟨t, htoken⟩

/-- What is made of the tokens of a text is made of the text. -/
theorem of_lexed {t : Text} (h : MadeOf ((tokenize t).map Token.text) tokens left) :
    MadeOf [t] tokens left where
  weight_le := by
    have hweight := (weight_tokensFrom 0 t).1
    have hle := h.weight_le
    rw [weightOf_cons, weightOf_nil, Nat.add_zero, ← hweight]
    exact hle
  pieces hP htexts :=
    h.pieces hP (List.forall_mem_map.mpr ((lexed t).pieces hP htexts).1)
  read := h.read

/-- What is made of the inside of a group is made of the group. -/
theorem inside {source : Text} (hread : token.IsRead) (hbody : token.body = .group source)
    (h : MadeOf [source] tokens left) : MadeOf [token.text] tokens left where
  weight_le := by
    have hsource := hread.weight_source hbody
    have hle := h.weight_le
    simp only [weightOf_cons, weightOf_nil] at hle ⊢
    omega
  pieces hP htexts := by
    have htext := htexts token.text List.mem_cons_self
    exact h.pieces hP (by simpa using hread.piecewise_source hP hbody htext)
  read := h.read

/-- A group that is written anew, from what is left of its inside. -/
theorem rewritten {source : Text} (hread : token.IsRead) (hbody : token.body = .group source)
    (h : MadeOf [source] tokens left) :
    MadeOf [token.text] tokens [renderGroup (Modifier.text token.modifier) left] where
  weight_le := by
    have hsource := hread.weight_source hbody
    have hle := h.weight_le
    simp only [weightOf_cons, weightOf_nil, weight_renderGroup] at hle ⊢
    omega
  pieces hP htexts := by
    have htext := htexts token.text List.mem_cons_self
    obtain ⟨htokens, hleft⟩ := h.pieces hP (by simpa using hread.piecewise_source hP hbody htext)
    exact ⟨htokens, by simpa using hP.renderGroup hleft token.modifier⟩
  read := h.read

/-- What is left is read once more. -/
theorem reread (h : MadeOf texts tokens left) :
    MadeOf texts (tokens ++ left.flatMap tokenize) [] where
  weight_le := by
    have hle := h.weight_le
    rw [List.map_append, weightOf_append, weightOf_flatMap_tokenize]
    exact hle
  pieces hP htexts := by
    obtain ⟨htokens, hleft⟩ := h.pieces hP htexts
    refine ⟨List.forall_mem_append.mpr ⟨htokens, fun token htoken => ?_⟩, by simp⟩
    obtain ⟨t, ht, htoken⟩ := List.mem_flatMap.mp htoken
    exact hP.of_mem_tokensFrom (hleft t ht) htoken
  read := by
    refine List.forall_mem_append.mpr ⟨h.read, fun token htoken => ?_⟩
    obtain ⟨t, -, htoken⟩ := List.mem_flatMap.mp htoken
    exact ⟨t, htoken⟩

end MadeOf

section Hoist

variable (options : Hoist.Options) (limit remaining : Nat)

mutual

theorem liftTree_madeOf : ∀ (tree : Tree) (nesting : Nat) {token : Token} {lifted : Hoist.Lifted},
    tree = Tree.ofToken token → token.IsRead →
    Hoist.liftTree options limit remaining nesting tree = .ok lifted →
    MadeOf [token.text] lifted.tokens lifted.left
  | .leaf _, nesting, token, lifted, htree, hread, h => by
    obtain ⟨rfl, -⟩ := Tree.ofToken_eq_leaf htree.symm
    rw [Hoist.liftTree] at h
    split at h
    · cases h
      exact .single hread
    · cases h
      exact .kept token.text
  | .group _ children, nesting, token, lifted, htree, hread, h => by
    obtain ⟨rfl, source, hbody, hchildren⟩ := Tree.ofToken_eq_group htree.symm
    rw [Hoist.liftTree] at h
    split at h
    · split at h
      · obtain ⟨inner, hinner, h⟩ := exists_ok_of_bind h
        cases h
        have hlifted := liftTrees_madeOf children (nesting + 1) hchildren
          (fun token htoken => ⟨source, htoken⟩) hinner
        exact .rewritten hread hbody (.of_lexed hlifted)
      · split at h
        · cases h
        · cases h
          exact .rewritten hread hbody .nil
    · cases h
      exact .kept token.text

theorem liftTrees_madeOf : ∀ (trees : List Tree) (nesting : Nat) {tokens : List Token}
    {lifted : Hoist.Lifted}, trees = tokens.map Tree.ofToken → (∀ token ∈ tokens, token.IsRead) →
    Hoist.liftTrees options limit remaining nesting trees = .ok lifted →
    MadeOf (tokens.map Token.text) lifted.tokens lifted.left
  | [], nesting, tokens, lifted, htrees, hread, h => by
    rw [List.map_eq_nil_iff.mp htrees.symm]
    cases h
    exact .nil
  | tree :: rest, nesting, tokens, lifted, htrees, hread, h => by
    obtain ⟨token, tokens, rfl, htree, hrest⟩ := List.map_eq_cons_iff.mp htrees.symm
    rw [Hoist.liftTrees] at h
    obtain ⟨first, hfirst, h⟩ := exists_ok_of_bind h
    obtain ⟨others, hothers, h⟩ := exists_ok_of_bind h
    cases h
    rw [List.forall_mem_cons] at hread
    exact (liftTree_madeOf tree nesting htree.symm hread.1 hfirst).append
      (liftTrees_madeOf rest nesting hrest.symm hread.2 hothers)

end

variable {options limit remaining}

theorem hoistTree_madeOf {token : Token} {result : List Token} (hread : token.IsRead)
    (h : Hoist.hoistTree options limit remaining (Tree.ofToken token) = .ok result) :
    MadeOf [token.text] result [] := by
  cases htree : Tree.ofToken token with
  | leaf leaf =>
    obtain ⟨rfl, -⟩ := Tree.ofToken_eq_leaf htree
    rw [htree] at h
    cases h
    exact .single hread
  | group group children =>
    obtain ⟨rfl, -⟩ := Tree.ofToken_eq_group htree
    rw [htree, Hoist.hoistTree] at h
    split at h
    · obtain ⟨lifted, hlift, h⟩ := exists_ok_of_bind h
      cases h
      exact (liftTree_madeOf options limit remaining _ 0 htree.symm hread hlift).reread
    · cases h
      exact .single hread

theorem mapM_hoistTree_madeOf : ∀ {tokens : List Token} {found : List (List Token)},
    (∀ token ∈ tokens, token.IsRead) →
    (tokens.map Tree.ofToken).mapM (Hoist.hoistTree options limit remaining) = .ok found →
    MadeOf (tokens.map Token.text) found.flatten []
  | [], _, _, h => by
    cases h
    exact .nil
  | token :: rest, _, hread, h => by
    rw [List.map_cons, List.mapM_cons] at h
    obtain ⟨first, hfirst, h⟩ := exists_ok_of_bind h
    obtain ⟨others, hothers, h⟩ := exists_ok_of_bind h
    cases h
    rw [List.forall_mem_cons] at hread
    exact (hoistTree_madeOf hread.1 hfirst).append (mapM_hoistTree_madeOf hread.2 hothers)

theorem Unwraps.madeOf {groups : Nat} {t inside : Text} (h : Unwraps groups t inside)
    {tokens : List Token} (htokens : MadeOf [inside] tokens []) : MadeOf [t] tokens [] := by
  induction h with
  | refl t => exact htokens
  | @step groups offset t source inside whole h _ ih =>
    have hread : Token.IsRead ⟨none, .group source, whole, offset⟩ := ⟨t, by simp [h]⟩
    refine .of_lexed ?_
    rw [h]
    exact .inside hread rfl (ih htokens)

/-- **The tokens of a level are made of the characters of its text.** -/
theorem hoist_madeOf {search : Text} {tokens : List Token} {unwrapped : Nat}
    (h : Hoist.hoist options search = .ok (tokens, unwrapped)) :
    MadeOf [cleanSearch search] tokens [] := by
  obtain ⟨groups, inside, hunwraps, -, -, hends⟩ :=
    hoistText_unwraps options options.limit options.limit (cleanSearch search) h
  refine hunwraps.madeOf ?_
  cases hends with
  | nothing => exact .nil
  | tooDeep => exact .nil
  | level _ _ hfound =>
    rw [Tree.ofText_eq] at hfound
    exact .of_lexed (mapM_hoistTree_madeOf (fun token htoken => ⟨inside, htoken⟩) hfound)

end Hoist

/-! ## Leaves -/

mutual

theorem length_tokens_le : ∀ (tree : Tree) {token : Token}, tree = Tree.ofToken token →
    token.IsRead → tree.tokens.length ≤ weight token.text
  | .leaf _, token, htree, hread => by
    obtain ⟨rfl, -⟩ := Tree.ofToken_eq_leaf htree.symm
    exact hread.weight_pos
  | .group _ children, token, htree, hread => by
    obtain ⟨rfl, source, hbody, hchildren⟩ := Tree.ofToken_eq_group htree.symm
    have hle := length_tokensOf_le children hchildren fun inner hinner => ⟨source, hinner⟩
    have hsource := hread.weight_source hbody
    rw [tokenize, (weight_tokensFrom 0 source).1] at hle
    show (Tree.tokensOf children).length ≤ weight token.text
    omega

/-- Every leaf takes up something of the weight. -/
theorem length_tokensOf_le : ∀ (trees : List Tree) {tokens : List Token},
    trees = tokens.map Tree.ofToken → (∀ token ∈ tokens, token.IsRead) →
    (Tree.tokensOf trees).length ≤ weightOf (tokens.map Token.text)
  | [], tokens, htrees, hread => Nat.zero_le _
  | tree :: rest, tokens, htrees, hread => by
    obtain ⟨token, tokens, rfl, htree, hrest⟩ := List.map_eq_cons_iff.mp htrees.symm
    rw [List.forall_mem_cons] at hread
    have hfirst := length_tokens_le tree htree.symm hread.1
    have hothers := length_tokensOf_le rest hrest.symm hread.2
    rw [Tree.tokensOf, List.length_append, List.map_cons, weightOf_cons]
    omega

end

theorem length_tokensOf_ofText_le (t : Text) :
    (Tree.tokensOf (Tree.ofText t)).length ≤ weight t := by
  rw [← (weight_tokensFrom 0 t).1]
  exact length_tokensOf_le _ (Tree.ofText_eq t) fun token htoken => ⟨t, htoken⟩

namespace Compiler

variable {c : Compiler} {level : Level}

/-! ## Counts of tags -/

/-- A group that is only counted has no more items than it weighs. -/
theorem length_scan_le {t : Text} {items : List Scan.Item}
    (h : Scan.scan (c.countOptions level) id t = .ok items) :
    items.length ≤ weight (cleanSearch t) := by
  refine Nat.le_trans ?_ (length_tokensOf_ofText_le (cleanSearch t))
  unfold Scan.scan at h
  split at h
  · next token children htrees =>
    obtain ⟨entry, hentry, rfl⟩ := exists_ok_of_map h
    have hle := (length_scanTree _ _ _ hentry).1
    rw [htrees]
    simpa [Tree.tokensOf] using hle
  · obtain ⟨entries, hentries, rfl⟩ := exists_ok_of_map h
    exact (length_scanTrees _ _ _ hentries).1

/-- Cleaning the inside of a group makes it no heavier than the group. -/
theorem weight_inside {token : Token} {source : Text} (hread : token.IsRead)
    (hstable : IsStable token.text) (hgroup : token.group? = some source) :
    weight (cleanSearch source) ≤ weight token.text := by
  have hbody := Token.group?_eq_some.mp hgroup
  have hclean := weight_cleanSearch_le (hread.piecewise_source piecewise_isStable hbody hstable)
  have hsource := hread.weight_source hbody
  omega

/-- What the insides of the groups of a level count is bounded by what they weigh. -/
def InsideBounded (c : Compiler) (level : Level) : Prop :=
  level.exceeds = false → ∀ free source whole taken inner,
    c.Yields (level.child free) source whole taken inner →
      inner.tagCount ≤ weight (cleanSearch source)

/-- A token counts no more than it weighs. -/
theorem Added.tagCount_le_weight {q q' : Query} {token : Token}
    (h : c.Added (c.inside level) level q token q') (hinside : c.InsideBounded level)
    (hread : token.IsRead) (hstable : IsStable token.text) :
    q'.tagCount ≤ q.tagCount + weight token.text := by
  cases h with
  | leaf _ hadd =>
    have hpos := hread.weight_pos
    rw [addToken_tagCount hadd]
    split <;> omega
  | @counted source items hgroup _ hscan =>
    have hcount := length_scan_le hscan
    have hclean := weight_cleanSearch_le hstable
    show q.tagCount + items.length ≤ q.tagCount + weight token.text
    omega
  | @built source build inner hgroup _ hbuild? hbuild =>
    obtain ⟨hroom, rfl⟩ := c.of_mem_inside hbuild?
    obtain ⟨taken, hyields⟩ := yields_of_compileLevel hbuild
    have hinner := hinside hroom _ _ _ _ _ hyields
    have hsource := weight_inside hread hstable hgroup
    show q.tagCount + inner.tagCount ≤ q.tagCount + weight token.text
    omega
  | @overrun source build max partly hgroup _ hbuild? hbuild =>
    obtain ⟨hroom, rfl⟩ := c.of_mem_inside hbuild?
    show q.tagCount + (partly.getD {}).tagCount ≤ q.tagCount + weight token.text
    cases partly with
    | none => exact Nat.le_add_right _ _
    | some inner =>
      obtain ⟨taken, hyields⟩ := yields_of_error hbuild rfl
      have hinner := hinside hroom _ _ _ _ _ hyields
      have hsource := weight_inside hread hstable hgroup
      show q.tagCount + inner.tagCount ≤ q.tagCount + weight token.text
      omega
  | cut => exact Nat.le_add_right _ _

theorem Reaches.tagCount_le_weight {tokens : List Token} {q : Query}
    (h : c.Reaches level tokens q) (hinside : c.InsideBounded level)
    (htokens : ∀ token ∈ tokens, token.IsRead ∧ IsStable token.text) :
    q.tagCount ≤ weightOf (tokens.map Token.text) := by
  induction h with
  | nil => exact Nat.zero_le _
  | @snoc before q q' token hbefore hadded ih =>
    obtain ⟨hbefores, htoken⟩ := List.forall_mem_append.mp htokens
    obtain ⟨hread, hstable⟩ := htoken token List.mem_cons_self
    have hle := ih hbefores
    have hadd := hadded.tagCount_le_weight hinside hread hstable
    rw [List.map_append, weightOf_append]
    simp only [List.map_cons, List.map_nil, weightOf_cons, weightOf_nil]
    omega

/-- The tokens of a level were read, from composed text. -/
theorem of_mem_hoist {text : Text} {tokens : List Token} {unwrapped : Nat}
    (h : Hoist.hoist (c.hoistOptions level) text = .ok (tokens, unwrapped)) :
    ∀ token ∈ tokens, token.IsRead ∧ IsStable token.text := by
  have hmade := hoist_madeOf h
  have hstable : ∀ t ∈ [cleanSearch text], IsStable t := by
    simpa using compose_eq_self_iff_isStable.mp (compose_cleanSearch text)
  exact fun token htoken =>
    ⟨hmade.read token htoken, (hmade.pieces piecewise_isStable hstable).1 token htoken⟩

/-- What a level yields is made of tokens that were read. -/
theorem Yields.isRead {text : Text} {whole : Bool} {taken : List Token} {q : Query}
    (h : c.Yields level text whole taken q) : ∀ token ∈ taken, token.IsRead := by
  obtain ⟨unwrapped, reached, -, -, rfl | ⟨rest, hhoist⟩⟩ := h.exists_hoisted
  · simp
  · have htokens := (List.forall_mem_append.mp (of_mem_hoist hhoist)).1
    exact fun token htoken => (htokens token htoken).1

/-- **No level counts more tags than its text weighs.** -/
theorem Yields.tagCount_le {text : Text} {whole : Bool} {taken : List Token} {q : Query}
    (h : c.Yields level text whole taken q) : q.tagCount ≤ weight (cleanSearch text) := by
  induction level using Level.descend generalizing text whole taken q with
  | step level ih =>
    obtain ⟨unwrapped, reached, hreached, rfl, hhoisted⟩ := h.exists_hoisted
    have hinside : c.InsideBounded (level.deeper unwrapped) := fun hroom free _ _ _ _ hyields =>
      ih unwrapped free hroom hyields
    rw [finished_tagCount]
    rcases hhoisted with rfl | ⟨rest, hhoist⟩
    · have hle := hreached.tagCount_le_weight hinside (by simp)
      exact Nat.le_trans hle (Nat.zero_le _)
    · have htokens := (List.forall_mem_append.mp (of_mem_hoist hhoist)).1
      have hle := hreached.tagCount_le_weight hinside htokens
      have hweight := (hoist_madeOf hhoist).weight_le
      rw [List.map_append, weightOf_append] at hweight
      simp only [weightOf_cons, weightOf_nil] at hweight
      omega

theorem insideBounded (level : Level) : c.InsideBounded level :=
  fun _ _ _ _ _ _ hyields => hyields.tagCount_le

end Compiler

end TagSearch
