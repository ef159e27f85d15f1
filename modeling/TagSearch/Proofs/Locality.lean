import TagSearch.Proofs.Nesting

/-!
# What may follow a token

A token is read with what follows it in view: a run ends at a blank, a value whose quote is still
open looks for the closing quote to the end of the text, and a group looks for its `)`. So a token
keeps its reading as long as what follows becomes no worse: a blank stays a blank, and no quote
turns up where there was none. That is `Milder`.

* `Token.Reads.milder`: a token is read alike before all that is milder, a lone `(` apart.
* `settled_of_closeGroup?`: the tokens inside a group are those the search for its end has stepped
  over. Each of them is read alike before any blank, quotes that did not follow it apart.
-/

namespace TagSearch

open Text Lexer

/-- `next` is no worse than `rest` to follow a token: it starts blank if `rest` does, and holds a
quote only if `rest` does. -/
structure Milder (next rest : Text) : Prop where
  blank : StartsBlank rest → StartsBlank next
  quote : '"' ∈ next → '"' ∈ rest

theorem Milder.append {next rest : Text} (h : Milder next rest) (front : Text)
    (hrest : ¬StartsBlank rest) : Milder (front ++ next) (front ++ rest) where
  blank hblank := by
    cases front with
    | nil => exact absurd hblank hrest
    | cons c front => exact hblank
  quote hq := by
    rcases List.mem_append.mp hq with hq | hq
    · exact List.mem_append_left _ hq
    · exact List.mem_append_right _ (h.quote hq)

theorem StartsSolid.of_append {t rest : Text} (h : StartsSolid (t ++ rest)) (hne : t ≠ []) :
    StartsSolid t := by
  cases t with
  | nil => exact absurd rfl hne
  | cons c t => exact h

theorem not_startsBlank_closing (t : Text) : ¬StartsBlank (')' :: t) :=
  fun h => absurd (h ')' rfl) (by decide)

theorem StartsBlank.cons_iff {c : Char} {t : Text} : StartsBlank (c :: t) ↔ isBlank c = true := by
  simp [StartsBlank]

namespace Lexer

/-! ## Metatags -/

theorem cut?_eq_none_iff {sep : Char} {t : Text} : cut? sep t = none ↔ sep ∉ t := by
  induction t with
  | nil => simp [cut?]
  | cons c t ih =>
    unfold cut?
    by_cases hc : c = sep
    · simp [hc]
    · simp [hc, ih, Ne.symm hc]

/-- What makes some parts the parts of a metatag, in front of what follows it. -/
structure MetatagParts.IsRead (m : MetatagParts) : Prop where
  name : ∀ c ∈ m.name, isNameChar c = true
  quoted : m.quoted = true → '"' ∉ m.value
  bare : m.quoted = false → (∀ c ∈ m.value, isBlank c = false) ∧ StartsBlank m.rest
  unclosed : m.quoted = false → m.value.head? = some '"' → '"' ∉ m.value.tail ++ m.rest

theorem startsBlank_afterRun (t : Text) : StartsBlank (afterRun t) := by
  intro c hc
  have h := List.head?_dropWhile_not (!isBlank ·) t
  rw [show t.dropWhile (!isBlank ·) = afterRun t from rfl, hc] at h
  simpa using h

theorem isBlank_of_mem_run {t : Text} {c : Char} (h : c ∈ run t) : isBlank c = false := by
  simpa using List.mem_takeWhile_imp h

theorem isRead_of_takeMetatag? {t : Text} {m : MetatagParts} (h : takeMetatag? t = some m) :
    m.IsRead := by
  unfold takeMetatag? at h
  split at h
  · next after hd =>
    have hname : ∀ c ∈ t.takeWhile isNameChar, isNameChar c = true :=
      fun c hc => List.mem_takeWhile_imp hc
    dsimp only at h
    split at h
    · next value rest hq =>
      cases h
      refine ⟨hname, fun _ => ?_, by simp, by simp⟩
      unfold takeQuoted? at hq
      split at hq
      · exact not_mem_of_cut? hq
      · simp at hq
    · next hq =>
      cases h
      refine ⟨hname, by simp, fun _ => ⟨fun c => isBlank_of_mem_run, startsBlank_afterRun _⟩, ?_⟩
      intro _ (hhead : (run after).head? = some '"')
      -- the value starts with a quote that nothing closes
      obtain ⟨tail, htail⟩ := List.head?_eq_some_iff.mp hhead
      have hafter : after = '"' :: (tail ++ afterRun after) := by
        rw [← List.cons_append, ← htail]
        exact (run_append_afterRun after).symm
      have htail' : (run after).tail = tail := by
        rw [htail]
        rfl
      dsimp only
      rw [htail', ← cut?_eq_none_iff]
      rw [hafter] at hq
      exact hq
  · simp at h

/-- The parts of a metatag are read back. -/
theorem MetatagParts.IsRead.takeMetatag? {m : MetatagParts} (h : m.IsRead) :
    takeMetatag? (m.text ++ m.rest) = some m := by
  obtain ⟨name, value, quoted, rest⟩ := m
  obtain ⟨hname, hquoted, hbare, hunclosed⟩ := h
  dsimp only at hname hquoted hbare hunclosed
  have hdrop : ∀ after, (name ++ ':' :: after).dropWhile isNameChar = ':' :: after := by
    intro after
    rw [List.dropWhile_append_of_pos hname, List.dropWhile_cons_of_neg (by decide)]
  have htake : ∀ after, (name ++ ':' :: after).takeWhile isNameChar = name := by
    intro after
    rw [List.takeWhile_append_of_pos hname, List.takeWhile_cons_of_neg (by decide),
      List.append_nil]
  cases quoted with
  | true =>
    have htext : MetatagParts.text ⟨name, value, true, rest⟩ ++ rest
        = name ++ ':' :: '"' :: (value ++ '"' :: rest) := by
      simp [MetatagParts.text, metatagText]
    rw [htext]
    simp only [Lexer.takeMetatag?, hdrop, htake, takeQuoted?, cut?_of_not_mem (hquoted rfl)]
  | false =>
    have htext : MetatagParts.text ⟨name, value, false, rest⟩ ++ rest
        = name ++ ':' :: (value ++ rest) := by
      simp [MetatagParts.text, metatagText]
    obtain ⟨hsolid, hblank⟩ := hbare rfl
    have hall : afterRun value = [] :=
      List.dropWhile_eq_nil_iff.mpr fun c hc => by simp [hsolid c hc]
    have hnone : takeQuoted? (value ++ rest) = none := by
      by_cases hhead : value.head? = some '"'
      · obtain ⟨tail, rfl⟩ := List.head?_eq_some_iff.mp hhead
        exact cut?_eq_none_iff.mpr (hunclosed rfl rfl)
      · exact takeQuoted?_append_none hhead hblank
    rw [htext]
    simp only [Lexer.takeMetatag?, hdrop, htake, hnone, run_append hall hblank,
      afterRun_append hall hblank]

theorem MetatagParts.IsRead.milder {m : MetatagParts} (h : m.IsRead) {next : Text}
    (hn : Milder next m.rest) : { m with rest := next }.IsRead where
  name := h.name
  quoted := h.quoted
  bare hb := ⟨(h.bare hb).1, hn.blank (h.bare hb).2⟩
  unclosed hb hq hmem := by
    refine h.unclosed hb hq ?_
    rcases List.mem_append.mp hmem with hm | hm
    · exact List.mem_append_left _ hm
    · exact List.mem_append_right _ (hn.quote hm)

theorem takeMetatag?_append_eq_none_iff {t rest : Text} (hr : StartsBlank rest) :
    takeMetatag? (t ++ rest) = none ↔ takeMetatag? t = none := by
  refine ⟨fun h => ?_, fun h => takeMetatag?_append_none h hr⟩
  unfold takeMetatag? at h ⊢
  rw [dropWhile_name_append hr] at h
  split
  · next after hd =>
    rw [hd, List.cons_append] at h
    cases hq : takeQuoted? (after ++ rest) <;> simp [hq] at h
  · rfl

/-! ## Bodies that are no groups -/

/-- A run starts with the first character, whatever that is, and ends at a blank. -/
theorem readBody_run_cases {t : Text} (hne : t ≠ []) (hm : takeMetatag? t = none)
    (hg : takeGroup? t = none) :
    ∃ c text, (readBody t).text = c :: text ∧ (readBody t).body = .tag (c :: text)
      ∧ (∀ d ∈ text, isBlank d = false) ∧ StartsBlank (readBody t).rest := by
  obtain ⟨c, t, rfl⟩ := List.exists_cons_of_ne_nil hne
  rw [readBody_of_run hm hg]
  exact ⟨c, run t, rfl, rfl, fun d hd => isBlank_of_mem_run hd, startsBlank_afterRun t⟩

/-- Behind its first character a run holds no blank, so it opens no group unless it is `(`. -/
theorem opensGroup_run {c : Char} {text : Text} (hsolid : ∀ d ∈ text, isBlank d = false)
    (hopen : c :: text ≠ ['(']) (rest : Text) : opensGroup (c :: text ++ rest) = false := by
  refine opensGroup_append (by simp) hopen ?_
  unfold opensGroup
  split
  · next d _ he =>
    rw [List.cons.injEq] at he
    exact hsolid d (by simp [he.2])
  · rfl

/-- **A tag or a metatag is read alike before all that is milder.** -/
theorem readBody_milder_of_leaf {body : Body} {text rest next : Text} (hne : text ++ rest ≠ [])
    (h : readBody (text ++ rest) = ⟨body, text, rest⟩) (hg : ∀ source, body ≠ .group source)
    (hopen : body ≠ .tag ['(']) (hn : Milder next rest) :
    readBody (text ++ next) = ⟨body, text, next⟩ := by
  have hg' : ∀ source, (readBody (text ++ rest)).body ≠ .group source := by rwa [h]
  rcases readBody_cases hg' with ⟨m, hm⟩ | ⟨hm, ht⟩
  · rw [readBody_of_metatag hm, ReadBody.mk.injEq] at h
    obtain ⟨rfl, rfl, rfl⟩ := h
    exact readBody_of_metatag (((isRead_of_takeMetatag? hm).milder hn).takeMetatag?)
  · obtain ⟨c, run, htext, hbody, hsolid, hblank⟩ := readBody_run_cases hne hm ht
    rw [h] at htext hbody hblank
    dsimp only at htext hbody hblank
    subst htext hbody
    have hm' : takeMetatag? (c :: run ++ next) = none :=
      (takeMetatag?_append_eq_none_iff (hn.blank hblank)).mpr
        ((takeMetatag?_append_eq_none_iff hblank).mp hm)
    have hopen' : c :: run ≠ ['('] := fun he => hopen (by rw [he])
    have hend : afterRun run = [] :=
      List.dropWhile_eq_nil_iff.mpr fun d hd => by simp [hsolid d hd]
    rw [readBody_of_run hm' (takeGroup?_of_not_opens (opensGroup_run hsolid hopen' next))]
    simp only [List.cons_append, List.take_succ_cons, List.take_zero, List.drop_succ_cons,
      List.drop_zero, List.nil_append, run_append hend (hn.blank hblank),
      afterRun_append hend (hn.blank hblank)]

/-- A group that cannot be closed is read as a lone `(`. -/
theorem readBody_of_unclosed {t : Text} (h : opensGroup t = true) (hg : takeGroup? t = none) :
    readBody t = ⟨.tag ['('], ['('], t.drop 1⟩ := by
  rw [readBody_of_run (takeMetatag?_of_opens h) hg]
  unfold opensGroup at h
  split at h
  · next c rest => simp [run, afterRun, h]
  · simp at h

theorem opensGroup_of_leaf {t : Text} (hg : ∀ source, (readBody t).body ≠ .group source)
    (hopen : (readBody t).body ≠ .tag ['(']) : opensGroup t = false := by
  by_contra ho
  rw [Bool.not_eq_false] at ho
  cases ht : takeGroup? t with
  | none => exact hopen (by rw [readBody_of_unclosed ho ht])
  | some pair => exact hg _ (by rw [readBody_of_group ht])

/-- Where no group opens, a tag or a metatag is read, and no lone `(` before anything else. -/
theorem leaf_of_not_opens {t : Text} (ho : opensGroup t = false) (hrest : (readBody t).rest ≠ []) :
    (∀ source, (readBody t).body ≠ .group source) ∧ (readBody t).body ≠ .tag ['('] := by
  have hg := takeGroup?_of_not_opens ho
  cases hm : takeMetatag? t with
  | some m => simp [readBody_of_metatag hm]
  | none =>
    have hne : t ≠ [] := fun he => hrest (by rw [he]; rfl)
    obtain ⟨c, text, htext, hbody, -, hblank⟩ := readBody_run_cases hne hm hg
    refine ⟨by simp [hbody], fun hopen => ?_⟩
    obtain ⟨d, rest, hd⟩ := List.exists_cons_of_ne_nil hrest
    rw [hd, StartsBlank.cons_iff] at hblank
    -- the text is `(` and a blank, which opens a group
    have ht : t = '(' :: d :: rest := by
      rw [hbody, Body.tag.injEq] at hopen
      rw [← readBody_eq t, htext, hopen, hd]
      rfl
    rw [ht] at ho
    exact absurd hblank (by simpa [opensGroup] using ho)

theorem takeModifier_milder {modifier : Option Modifier} {body rest next : Text} (hne : body ≠ [])
    (h : takeModifier (Modifier.text modifier ++ body ++ rest) = (modifier, body ++ rest))
    (hn : StartsBlank rest → StartsBlank next) :
    takeModifier (Modifier.text modifier ++ body ++ next) = (modifier, body ++ next) := by
  obtain ⟨c, body, rfl⟩ := List.exists_cons_of_ne_nil hne
  cases modifier with
  | some m =>
    -- the two characters that decide stand in front of what changes
    simp only [Modifier.text, List.cons_append, List.nil_append, takeModifier] at h ⊢
    split at h
    · split at h
      · simp at h
      · next hc => simp_all
    · simp at h
  | none =>
    simp only [Modifier.text, List.nil_append] at h ⊢
    cases body with
    | cons d body =>
      simp only [List.cons_append, takeModifier] at h ⊢
      split at h
      · split at h
        · next hd => simp [hd]
        · simp at h
      · rfl
    | nil =>
      by_cases hb : StartsBlank rest
      · exact takeModifier_append (by simp) (hn hb)
      · -- a modifier would have been taken off what follows it at once
        obtain ⟨d, rest, rfl⟩ : ∃ d r, rest = d :: r :=
          List.exists_cons_of_ne_nil fun he => hb (by rw [he]; exact startsBlank_nil)
        rw [StartsBlank.cons_iff] at hb
        simp only [List.cons_append, List.nil_append, takeModifier, hb] at h
        cases hm : Modifier.ofChar? c with
        | some m => simp [hm] at h
        | none => cases next <;> simp [takeModifier, hm]

end Lexer

/-! ## Tokens -/

/-- The token is what is read at the start of its text, with `rest` behind. -/
def Token.Reads (token : Token) (rest : Text) : Prop :=
  ∀ offset, readToken offset (token.text ++ rest) = ({ token with offset }, rest)

theorem reads_readToken (offset : Nat) (t : Text) :
    (readToken offset t).1.Reads (readToken offset t).2 := by
  intro start
  rw [readToken_eq]
  rfl

/-- The two steps of reading a token. -/
theorem Token.reads_iff {token : Token} {rest : Text} (hne : token.text ≠ []) :
    token.Reads rest ↔ ∃ body, body ≠ [] ∧ token.text = Modifier.text token.modifier ++ body
      ∧ takeModifier (token.text ++ rest) = (token.modifier, body ++ rest)
      ∧ readBody (body ++ rest) = ⟨token.body, body, rest⟩ := by
  obtain ⟨modifier, body, text, start⟩ := token
  constructor
  · intro h
    have h := h 0
    simp only [readToken, Prod.mk.injEq, Token.mk.injEq, and_true] at h
    obtain ⟨⟨hmod, hbody, htext⟩, hrest⟩ := h
    have hsplit := readBody_eq (takeModifier (text ++ rest)).2
    rw [hrest] at hsplit
    rw [hmod] at htext
    have hbody_ne : (readBody (takeModifier (text ++ rest)).2).text ≠ [] :=
      readBody_text_ne_nil (takeModifier_ne_nil (by simpa using fun h => absurd h hne))
    refine ⟨(readBody (takeModifier (text ++ rest)).2).text, hbody_ne, htext.symm, ?_, ?_⟩
    · rw [hsplit, ← hmod]
    · rw [hsplit, ← hbody]
      exact congrArg (ReadBody.mk _ _) hrest
  · rintro ⟨read, -, htext, htake, hread⟩ offset
    simp only at htext htake hread
    simp only [readToken, htake, hread, ← htext]

theorem Token.Reads.of_leaf {token : Token} {rest next : Text} (h : token.Reads rest)
    (hne : token.text ≠ []) (hg : ∀ source, token.body ≠ .group source)
    (hopen : token.body ≠ .tag ['(']) (hn : Milder next rest) : token.Reads next := by
  obtain ⟨body, hbody, htext, htake, hread⟩ := (Token.reads_iff hne).mp h
  rw [htext] at htake
  refine (Token.reads_iff hne).mpr ⟨body, hbody, htext, ?_, ?_⟩
  · rw [htext]
    exact takeModifier_milder hbody htake hn.blank
  · exact readBody_milder_of_leaf (by simp [hbody]) hread hg hopen hn

theorem Token.Reads.not_opens {token : Token} {rest : Text} (h : token.Reads rest)
    (hg : ∀ source, token.body ≠ .group source) (hopen : token.body ≠ .tag ['(']) :
    opensGroup (takeModifier (token.text ++ rest)).2 = false := by
  have hbody : (readBody (takeModifier (token.text ++ rest)).2).body = token.body :=
    congrArg (·.1.body) (h 0)
  exact opensGroup_of_leaf (by rwa [hbody]) (by rwa [hbody])

namespace Lexer

/-- **Inside a group, a step is taken alike before all that is milder.** -/
theorem stepInside_milder {text rest next : Text} {opened : Nat} (hne : text ≠ [])
    (h : stepInside (text ++ rest) = ⟨text, rest, opened⟩) (hrest : rest ≠ []) (hnext : next ≠ [])
    (hn : Milder next rest) : stepInside (text ++ next) = ⟨text, next, opened⟩ := by
  by_cases ho : opensGroup (takeModifier (text ++ rest)).2 = true
  · rw [stepInside_of_opens ho, Step.mk.injEq] at h
    obtain ⟨htext, hdrop, rfl⟩ := h
    obtain ⟨c, rest, rfl⟩ := List.exists_cons_of_ne_nil hrest
    obtain ⟨d, next, rfl⟩ := List.exists_cons_of_ne_nil hnext
    rw [opensGroup_eq ho, hdrop] at ho
    have hd : isBlank d = true := StartsBlank.cons_iff.mp (hn.blank (StartsBlank.cons_iff.mpr ho))
    rw [← htext, List.append_assoc, List.singleton_append]
    have htake := takeModifier_opening (takeModifier (text ++ c :: rest)).1 (d :: next)
    rw [stepInside_of_opens (by rw [htake]; exact hd), htake]
    rfl
  · rw [Bool.not_eq_true] at ho
    rw [stepInside_eq_readToken ho 0, Step.mk.injEq] at h
    obtain ⟨htext, hrest', rfl⟩ := h
    -- a step that opens no group is a token
    obtain ⟨hg, hopen⟩ := leaf_of_not_opens ho (ne_of_eq_of_ne hrest' hrest)
    have hreads : (readToken 0 (text ++ rest)).1.Reads next := by
      have h := reads_readToken 0 (text ++ rest)
      rw [hrest'] at h
      exact h.of_leaf (by rwa [htext]) hg hopen hn
    have hread := hreads 0
    have hopens := hreads.not_opens hg hopen
    rw [htext] at hread hopens
    rw [stepInside_eq_readToken hopens 0, hread, ← htext]

/-! ## Groups -/

theorem exists_of_ahead {read inside after : Text} {found : Option (Text × Text)}
    (h : ahead read found = some (inside, after)) :
    ∃ inner, found = some (inner, after) ∧ inside = read ++ inner := by
  obtain ⟨⟨inner, a⟩, hf, he⟩ := Option.map_eq_some_iff.mp h
  simp only [Prod.mk.injEq] at he
  obtain ⟨rfl, rfl⟩ := he
  exact ⟨inner, hf, rfl⟩

theorem onward_eq {depth : Nat} {t inside after : Text}
    (h : onward depth t = some (inside, after)) : t = inside ++ ')' :: after := by
  obtain ⟨inner, hinner, rfl⟩ := exists_of_ahead h
  rw [List.append_assoc, ← closeGroup?_eq hinner, List.takeWhile_append_dropWhile]

/-- A text starts blank if there are blanks to take off it. -/
theorem head?_any_isBlank (t : Text) :
    t.head?.any isBlank = !(t.takeWhile isBlank).isEmpty := by
  cases t with
  | nil => rfl
  | cons c t => by_cases hc : isBlank c = true <;> simp [hc]

/-- Blanks in front of a token, told apart from it. -/
theorem onward_blanks {blanks t : Text} (hb : ∀ c ∈ blanks, isBlank c = true) (ht : StartsSolid t)
    (depth : Nat) :
    onward depth (blanks ++ t) = ahead blanks (closeGroup? depth (!blanks.isEmpty) t) := by
  have htake : (blanks ++ t).takeWhile isBlank = blanks := by
    rw [List.takeWhile_append_of_pos hb, ht.takeWhile, List.append_nil]
  rw [onward, head?_any_isBlank, htake, List.dropWhile_append_of_pos hb, ht.dropWhile]

theorem startsSolid_dropWhile (t : Text) : StartsSolid (t.dropWhile isBlank) := by
  intro c hc
  have h := List.head?_dropWhile_not isBlank t
  rw [hc] at h
  simpa using h

theorem startsSolid_closing_append {inner rest : Text} (h : StartsSolid (inner ++ ')' :: rest))
    (next : Text) : StartsSolid (inner ++ ')' :: next) := by
  cases inner with
  | nil => exact h
  | cons c inner => exact h

theorem onward_quieter {depth : Nat} {t inside rest next : Text}
    (ih : ∀ {inner}, closeGroup? depth (t.head?.any isBlank) (t.dropWhile isBlank)
        = some (inner, rest)
      → closeGroup? depth (t.head?.any isBlank) (inner ++ ')' :: next) = some (inner, next))
    (h : onward depth t = some (inside, rest)) :
    onward depth (inside ++ ')' :: next) = some (inside, next) := by
  obtain ⟨inner, hinner, rfl⟩ := exists_of_ahead h
  have hsolid : StartsSolid (inner ++ ')' :: rest) := by
    rw [← closeGroup?_eq hinner]
    exact startsSolid_dropWhile t
  rw [List.append_assoc, onward_blanks (fun c hc => List.mem_takeWhile_imp hc)
    (startsSolid_closing_append hsolid next), ← head?_any_isBlank, ih hinner]
  rfl

/-- A step inside a group is taken alike before the end of the group and all that holds no quote
unless a quote was there before. -/
theorem stepInside_quieter {t inner rest next : Text} (hne : t ≠ []) (hn : '"' ∈ next → '"' ∈ rest)
    (hrest : (stepInside t).rest = inner ++ ')' :: rest) :
    stepInside ((stepInside t).text ++ (inner ++ ')' :: next))
      = ⟨(stepInside t).text, inner ++ ')' :: next, (stepInside t).opened⟩ := by
  have hmilder : Milder (inner ++ ')' :: next) (stepInside t).rest := by
    rw [hrest]
    refine Milder.append ⟨fun hb => absurd hb (not_startsBlank_closing _), fun hq => ?_⟩ inner
      (not_startsBlank_closing _)
    simpa using hn (by simpa using hq)
  exact stepInside_milder (stepInside_ne_nil hne) (by rw [stepInside_eq]) (by simp [hrest])
    (by simp) hmilder

/-- **A group ends alike before all that holds no quote unless a quote was there before.** -/
theorem closeGroup?_quieter {depth : Nat} {spaced : Bool} {t inside rest next : Text}
    (hn : '"' ∈ next → '"' ∈ rest) (h : closeGroup? depth spaced t = some (inside, rest)) :
    closeGroup? depth spaced (inside ++ ')' :: next) = some (inside, next) := by
  induction depth, spaced, t using closeGroup?.induct generalizing inside with
  | case1 depth spaced => simp [closeGroup?_nil] at h
  | case2 spaced c t hc =>
    simp only [Bool.and_eq_true, beq_iff_eq] at hc
    obtain ⟨rfl, rfl⟩ := hc
    rw [closeGroup?_closing, Option.some.injEq, Prod.mk.injEq] at h
    obtain ⟨rfl, rfl⟩ := h
    exact closeGroup?_closing next
  | case3 spaced c t hc depth ih =>
    simp only [Bool.and_eq_true, beq_iff_eq] at hc
    obtain ⟨rfl, rfl⟩ := hc
    rw [closeGroup?_closing_succ] at h
    obtain ⟨inner, hinner, rfl⟩ := exists_of_ahead h
    rw [List.append_assoc, List.singleton_append, closeGroup?_closing_succ,
      onward_quieter ih hinner]
    rfl
  | case4 depth spaced c t hc ih =>
    rw [closeGroup?_stepping hc] at h
    obtain ⟨inner, hinner, rfl⟩ := exists_of_ahead h
    -- the step is the same, and so is its first character
    have hstep := stepInside_quieter (by simp) hn (onward_eq hinner)
    have heq := stepInside_eq (c :: t)
    obtain ⟨d, text, htext⟩ :=
      List.exists_cons_of_ne_nil (stepInside_ne_nil (t := c :: t) (by simp))
    have hc' : ¬(d == ')' && spaced) = true := by
      rw [htext, List.cons_append, List.cons.injEq] at heq
      rwa [heq.1]
    rw [htext] at hstep
    rw [List.append_assoc, htext, List.cons_append, closeGroup?_stepping hc', ← List.cons_append,
      hstep]
    dsimp only
    rw [onward_quieter ih hinner]
    rfl

theorem opensGroup_of_takeGroup? {t inside after : Text}
    (h : takeGroup? t = some (inside, after)) : opensGroup t = true := by
  by_contra ho
  simp [takeGroup?_of_not_opens (by simpa using ho)] at h

theorem takeGroup?_quieter {t inside rest next : Text} (hn : '"' ∈ next → '"' ∈ rest)
    (h : takeGroup? t = some (inside, rest)) :
    takeGroup? ('(' :: (inside ++ ')' :: next)) = some (inside, next) := by
  have hopen := opensGroup_of_takeGroup? h
  have heq := takeGroup?_eq h
  rw [takeGroup?_opening hopen] at h
  have hopen' : opensGroup ('(' :: (inside ++ ')' :: next)) = true := by
    rw [heq] at hopen
    cases inside with
    | nil => simp [opensGroup, isBlank] at hopen
    | cons c inside => exact hopen
  rw [takeGroup?_opening hopen']
  exact onward_quieter (closeGroup?_quieter hn) h

end Lexer

/-- **A token is read alike before all that is milder**, a lone `(` apart. -/
theorem Token.Reads.milder {token : Token} {rest next : Text} (h : token.Reads rest)
    (hne : token.text ≠ []) (hopen : token.body ≠ .tag ['(']) (hn : Milder next rest) :
    token.Reads next := by
  by_cases hg : ∀ source, token.body ≠ .group source
  · exact h.of_leaf hne hg hopen hn
  · obtain ⟨body, hbody, htext, htake, hread⟩ := (Token.reads_iff hne).mp h
    refine (Token.reads_iff hne).mpr ⟨body, hbody, htext, ?_, ?_⟩
    · rw [htext] at htake ⊢
      exact takeModifier_milder hbody htake hn.blank
    · cases ht : takeGroup? (body ++ rest) with
      | none =>
        -- without a group to close, the body would be no group
        refine absurd (fun source hs => ?_) hg
        cases hm : takeMetatag? (body ++ rest) with
        | none => simp [readBody_of_run hm ht, hs] at hread
        | some m => simp [readBody_of_metatag hm, hs] at hread
      | some pair =>
        obtain ⟨inside, after⟩ := pair
        rw [readBody_of_group ht, ReadBody.mk.injEq] at hread
        obtain ⟨hgroup, rfl, rfl⟩ := hread
        have hnext := takeGroup?_quieter hn.quote ht
        rw [← hgroup, ← readBody_of_group hnext]
        simp

/-! ## Levels that do not depend on what follows -/

/-- A token that is read alike before any blank; `loud` says whether quotes may follow. -/
structure Token.Stands (token : Token) (loud : Prop) : Prop where
  text_ne_nil : token.text ≠ []
  startsSolid : StartsSolid token.text
  reads : ∀ {rest}, StartsBlank rest → ('"' ∈ rest → loud) → token.Reads rest

theorem Token.Stands.imp {token : Token} {loud loud' : Prop} (h : token.Stands loud)
    (hl : loud' → loud) : token.Stands loud' :=
  ⟨h.text_ne_nil, h.startsSolid, fun hblank hq => h.reads hblank fun hmem => hl (hq hmem)⟩

theorem Token.Reads.stands {token : Token} {rest : Text} (h : token.Reads rest)
    (hne : token.text ≠ []) (hsolid : StartsSolid token.text) (hopen : token.body ≠ .tag ['(']) :
    token.Stands ('"' ∈ rest) :=
  ⟨hne, hsolid, fun hblank hq => h.milder hne hopen ⟨fun _ => hblank, hq⟩⟩

/-- A token whose body is `(` is nothing but its modifier and `(`. -/
theorem Token.Reads.body_opening {body rest : Text} {token : Token}
    (hread : readBody (body ++ rest) = ⟨token.body, body, rest⟩) (h : token.body = .tag ['(']) :
    body = ['('] := by
  cases hm : takeMetatag? (body ++ rest) with
  | some m => simp [readBody_of_metatag hm, h] at hread
  | none =>
    cases ht : takeGroup? (body ++ rest) with
    | some pair => simp [readBody_of_group ht, h] at hread
    | none =>
      rw [readBody_of_run hm ht, ReadBody.mk.injEq, h, Body.tag.injEq] at hread
      rw [← hread.2.1, hread.1]

/-- A lone `(` does not stand: before ` )` it opens a group. -/
theorem Token.Stands.body_ne_opening {token : Token} {loud : Prop} (h : token.Stands loud) :
    token.body ≠ .tag ['('] := by
  intro hbody
  have hreads : token.Reads [' ', ')'] := h.reads (startsBlank_space _) (by simp)
  obtain ⟨body, -, -, -, hread⟩ := (Token.reads_iff h.text_ne_nil).mp hreads
  rw [Token.Reads.body_opening hread hbody, hbody, List.singleton_append] at hread
  have hgroup := readBody_of_group (takeGroup?_render [] [])
  exact absurd (congrArg ReadBody.body (hgroup.symm.trans hread)) (by simp)

/-- Tokens of a level that stand side by side, each before those behind it; `loud` says whether
quotes may follow the level. -/
def Settled (loud : Prop) : List Token → Prop
  | [] => True
  | token :: rest =>
    token.Stands (loud ∨ ∃ other ∈ rest, '"' ∈ other.text) ∧ Settled loud rest

theorem Settled.stands {loud : Prop} {tokens : List Token} (h : Settled loud tokens)
    {token : Token} (hmem : token ∈ tokens) : token.Stands False := by
  induction tokens with
  | nil => simp at hmem
  | cons first rest ih =>
    rcases List.mem_cons.mp hmem with rfl | hmem
    · exact h.1.imp False.elim
    · exact ih h.2 hmem

/-! ## The tokens inside a group -/

/-- Blanks in front of a level only move it. -/
theorem tokensFrom_dropWhile (offset : Nat) (t : Text) :
    tokensFrom offset t
      = tokensFrom (offset + byteLength (t.takeWhile isBlank)) (t.dropWhile isBlank) := by
  by_cases hne : t.dropWhile isBlank = []
  · rw [hne, tokensFrom_nil, tokensFrom]
    split
    · rfl
    · next h => simp [hne] at h
  · rw [tokensFrom_solid hne (startsSolid_dropWhile t), tokensFrom]
    split
    · next h => exact absurd h hne
    · next h =>
      simp only [h]

theorem takeModifier_startsSolid {t : Text} (h : StartsSolid t) :
    StartsSolid (takeModifier t).2 := by
  cases hm : (takeModifier t).1 with
  | some m => exact takeModifier_solid hm
  | none =>
    have heq := takeModifier_eq t
    rw [hm] at heq
    rwa [← heq] at h

/-- A token does not end with a blank. -/
theorem readToken_endsSolid {t : Text} (hne : t ≠ []) (h : StartsSolid t) (offset : Nat) :
    EndsSolid (readToken offset t).1.text := by
  refine EndsSolid.append ?_ (readBody_text_ne_nil (takeModifier_ne_nil hne)) _
  by_cases hg : ∀ source, (readBody (takeModifier t).2).body ≠ .group source
  · exact readBody_endsSolid (takeModifier_startsSolid h) hg
  · cases ht : takeGroup? (takeModifier t).2 with
    | some pair =>
      rw [readBody_of_group ht]
      exact endsSolid_concat (t := '(' :: pair.1) (by decide)
    | none =>
      refine absurd (fun source hs => ?_) hg
      cases hm : takeMetatag? (takeModifier t).2 with
      | none => simp [readBody_of_run hm ht] at hs
      | some m => simp [readBody_of_metatag hm] at hs

theorem readToken_text_ne_nil {t : Text} (hne : t ≠ []) (offset : Nat) :
    (readToken offset t).1.text ≠ [] :=
  List.append_ne_nil_of_right_ne_nil _ (readBody_text_ne_nil (takeModifier_ne_nil hne))

theorem exists_reads_of_mem_tokensFrom {offset : Nat} {t : Text} {token : Token}
    (h : token ∈ tokensFrom offset t) : (∃ rest, token.Reads rest) ∧ token.text ≠ [] := by
  fun_induction tokensFrom offset t with
  | case1 => simp at h
  | case2 offset t c rest hd start read ih =>
    rcases List.mem_cons.mp h with rfl | h
    · exact ⟨⟨_, reads_readToken start (c :: rest)⟩, readToken_text_ne_nil (by simp) start⟩
    · exact ih h

/-- The characters of a token are characters of the text. -/
theorem mem_of_mem_tokensFrom {offset : Nat} {t : Text} {token : Token}
    (h : token ∈ tokensFrom offset t) {c : Char} (hc : c ∈ token.text) : c ∈ t := by
  fun_induction tokensFrom offset t with
  | case1 => simp at h
  | case2 offset t d rest hd start read ih =>
    have ht : ∀ c ∈ d :: rest, c ∈ t := by
      intro c hc
      exact (List.dropWhile_sublist isBlank).subset (hd ▸ hc)
    have heq := readToken_eq start (d :: rest)
    rcases List.mem_cons.mp h with rfl | htail
    · exact ht c (heq ▸ List.mem_append_left _ hc)
    · exact ht c (heq ▸ List.mem_append_right _ (ih htail))

/-- Of two ways to cut a text, the one before blanks comes last. -/
theorem exists_of_append_blanks {read inner source blanks : Text}
    (h : source ++ blanks = read ++ inner) (hread : EndsSolid read)
    (hb : ∀ c ∈ blanks, isBlank c = true) :
    ∃ rest, source = read ++ rest ∧ inner = rest ++ blanks := by
  rcases List.append_eq_append_iff.mp h with ⟨extra, rfl, rfl⟩ | ⟨rest, rfl, rfl⟩
  · -- a solid end leaves no blank to be read
    have hnil : extra = [] := by
      by_contra hne
      obtain ⟨c, hc⟩ := Option.ne_none_iff_exists'.mp (mt List.getLast?_eq_none_iff.mp hne)
      have hsolid : isBlank c = false :=
        hread c (by rw [List.getLast?_append, hc]; rfl)
      have hblank := hb c (List.mem_append_left _ (List.mem_of_getLast? hc))
      rw [hsolid] at hblank
      exact Bool.false_ne_true hblank
    subst hnil
    exact ⟨[], by simp, by simp⟩
  · exact ⟨rest, rfl, rfl⟩

theorem EndsSolid.of_append {front t : Text} (h : EndsSolid (front ++ t)) : EndsSolid t := by
  intro c hc
  refine h c ?_
  rw [List.getLast?_append, hc]
  rfl

theorem EndsSolid.dropWhile {t : Text} (h : EndsSolid t) : EndsSolid (t.dropWhile isBlank) := by
  rw [← List.takeWhile_append_dropWhile (p := isBlank) (l := t)] at h
  exact h.of_append

theorem closeGroup?_of_onward {rest tail blanks after : Text}
    (h : onward 0 (rest ++ tail) = some (rest ++ blanks, after))
    (hne : rest.dropWhile isBlank ≠ []) :
    ∃ spaced, closeGroup? 0 spaced (rest.dropWhile isBlank ++ tail)
      = some (rest.dropWhile isBlank ++ blanks, after) := by
  have hsplit : ∀ t, rest ++ t = rest.takeWhile isBlank ++ (rest.dropWhile isBlank ++ t) := by
    intro t
    rw [← List.append_assoc, List.takeWhile_append_dropWhile]
  rw [hsplit tail, onward_blanks (fun c hc => List.mem_takeWhile_imp hc)
    ((startsSolid_dropWhile rest).append hne tail), hsplit blanks] at h
  obtain ⟨inner, hinner, heq⟩ := exists_of_ahead h
  exact ⟨_, by rw [hinner, List.append_cancel_left heq]⟩

/-- A group that is closed goes on behind its first token, and that token is no lone `(`. -/
theorem token_of_closeGroup? {c : Char} {t inside after : Text} {spaced : Bool}
    (hc : ¬(c == ')' && spaced) = true) (h : closeGroup? 0 spaced (c :: t) = some (inside, after))
    (offset : Nat) :
    (readToken offset (c :: t)).1.body ≠ .tag ['('] ∧
      ∃ inner, onward 0 (readToken offset (c :: t)).2 = some (inner, after)
        ∧ inside = (readToken offset (c :: t)).1.text ++ inner := by
  by_cases ho : opensGroup (takeModifier (c :: t)).2 = true
  · cases hg : takeGroup? (takeModifier (c :: t)).2 with
    | none => simp [closeGroup?_unclosed hc ho hg] at h
    | some pair =>
      rw [closeGroup?_token hc (by simp [hg]) 0 offset] at h
      refine ⟨?_, exists_of_ahead h⟩
      simp [readToken, readBody_of_group hg]
  · rw [closeGroup?_token hc (fun hopen => absurd hopen ho) 0 offset] at h
    obtain ⟨inner, hinner, hinside⟩ := exists_of_ahead h
    refine ⟨(leaf_of_not_opens (t := (takeModifier (c :: t)).2) (by simpa using ho) ?_).2, inner,
      hinner, hinside⟩
    show (readToken offset (c :: t)).2 ≠ []
    simp [onward_eq hinner]

/-- The first token inside a group stands, and the group is closed behind it. -/
theorem exists_first_of_closeGroup? {c : Char} {source blanks after : Text} {spaced : Bool}
    (hblanks : ∀ c ∈ blanks, isBlank c = true) (hsolid : StartsSolid (c :: source))
    (h : closeGroup? 0 spaced (c :: source ++ (blanks ++ ')' :: after))
      = some (c :: source ++ blanks, after)) (offset : Nat) :
    ∃ token rest, c :: source = token.text ++ rest
      ∧ readToken offset (c :: source) = (token, rest)
      ∧ token.Stands ('"' ∈ rest ++ blanks ++ ')' :: after)
      ∧ onward 0 (rest ++ (blanks ++ ')' :: after)) = some (rest ++ blanks, after) := by
  have hc : ¬(c == ')' && spaced) = true := by
    intro hc
    simp only [Bool.and_eq_true, beq_iff_eq] at hc
    obtain ⟨rfl, rfl⟩ := hc
    simp [closeGroup?_closing] at h
  rw [List.cons_append] at h
  obtain ⟨hopen, inner, hinner, hinside⟩ := token_of_closeGroup? hc h offset
  have hread := reads_readToken offset (c :: (source ++ (blanks ++ ')' :: after)))
  have hne := readToken_text_ne_nil (t := c :: (source ++ (blanks ++ ')' :: after))) (by simp)
    offset
  have hsolid' : StartsSolid (c :: (source ++ (blanks ++ ')' :: after))) := hsolid
  have hlast := readToken_endsSolid (by simp) hsolid' offset
  generalize htoken :
    (readToken offset (c :: (source ++ (blanks ++ ')' :: after)))).1 = token at *
  have hoffset : token.offset = offset := by rw [← htoken]; rfl
  generalize (readToken offset (c :: (source ++ (blanks ++ ')' :: after)))).2 = follow at *
  obtain ⟨rest, hsource, rfl⟩ := exists_of_append_blanks hinside hlast hblanks
  have hfollow := onward_eq hinner
  -- the token is read alike when the group ends with its source
  have hmilder : Milder rest follow := by
    rw [hfollow, List.append_assoc]
    refine ⟨fun hb => ?_, fun hq => List.mem_append_left _ hq⟩
    cases rest with
    | nil => exact startsBlank_nil
    | cons d rest => exact hb
  refine ⟨token, rest, hsource, ?_, ?_, ?_⟩
  · rw [hsource, hread.milder hne hopen hmilder offset, ← hoffset]
  · rw [hsource] at hsolid
    exact hfollow ▸ hread.stands hne (hsolid.of_append hne) hopen
  · rwa [hfollow, List.append_assoc] at hinner

/-- **The tokens inside a group stand**, before quotes only where quotes have followed them. -/
theorem settled_of_closeGroup? {blanks after : Text} (hblanks : ∀ c ∈ blanks, isBlank c = true)
    {source : Text} {spaced : Bool} (hsolid : StartsSolid source) (hend : EndsSolid source)
    (h : closeGroup? 0 spaced (source ++ (blanks ++ ')' :: after)) = some (source ++ blanks, after))
    (offset : Nat) : Settled ('"' ∈ after) (tokensFrom offset source) := by
  match source with
  | [] => simp [Settled]
  | c :: source =>
    obtain ⟨token, rest, hsource, hread, hstands, hinner⟩ :=
      exists_first_of_closeGroup? hblanks hsolid h offset
    have hlevel : Settled ('"' ∈ after) (tokensFrom token.stop rest) := by
      rw [tokensFrom_dropWhile]
      by_cases hrest : rest.dropWhile isBlank = []
      · simp [hrest, Settled]
      · obtain ⟨spaced', hclose⟩ := closeGroup?_of_onward hinner hrest
        rw [hsource] at hend
        exact settled_of_closeGroup? hblanks (startsSolid_dropWhile rest)
          hend.of_append.dropWhile hclose _
    rw [tokensFrom_solid (by simp) hsolid, hread]
    refine ⟨hstands.imp ?_, hlevel⟩
    rintro (hq | ⟨other, hother, hq⟩)
    · simp [hq]
    · simp [mem_of_mem_tokensFrom hother hq]
termination_by source.length
decreasing_by
  have hlen := congrArg List.length hsource
  have hpos := List.length_pos_iff.mpr hstands.text_ne_nil
  have hdrop := length_dropWhile_le isBlank rest
  rw [List.length_append] at hlen
  omega

/-- What is left of a text without its last blanks, and these blanks. -/
theorem exists_trimmed {blanks t : Text} (hb : ∀ c ∈ blanks, isBlank c = true)
    (ht : StartsSolid t) :
    ∃ trailing, (∀ c ∈ trailing, isBlank c = true) ∧ t = trimBlanks (blanks ++ t) ++ trailing
      ∧ StartsSolid (trimBlanks (blanks ++ t)) ∧ EndsSolid (trimBlanks (blanks ++ t)) := by
  have htrim : trimBlanks (blanks ++ t) = (t.reverse.dropWhile isBlank).reverse := by
    rw [trimBlanks, trimBy, List.dropWhile_append_of_pos hb, ht.dropWhile]
  have hsplit :
      t = (t.reverse.dropWhile isBlank).reverse ++ (t.reverse.takeWhile isBlank).reverse := by
    rw [← List.reverse_append, List.takeWhile_append_dropWhile, List.reverse_reverse]
  rw [htrim]
  refine ⟨(t.reverse.takeWhile isBlank).reverse, ?_, hsplit, ?_, ?_⟩
  · intro c hc
    exact List.mem_takeWhile_imp (List.mem_reverse.mp hc)
  · intro c hc
    refine ht c ?_
    rw [hsplit, List.head?_append, hc]
    rfl
  · intro c hc
    rw [List.getLast?_reverse] at hc
    exact startsSolid_dropWhile t.reverse c hc

theorem settled_of_takeGroup? {t inside after : Text} (h : takeGroup? t = some (inside, after))
    (offset : Nat) : Settled ('"' ∈ after) (tokensFrom offset (trimBlanks inside)) := by
  have hopen := opensGroup_of_takeGroup? h
  rw [takeGroup?_opening hopen] at h
  obtain ⟨inner, hinner, rfl⟩ := exists_of_ahead h
  have hsolid : StartsSolid inner := by
    have hs := startsSolid_dropWhile (t.drop 1)
    rw [closeGroup?_eq hinner] at hs
    cases inner with
    | nil => intro c hc; simp at hc
    | cons c inner => exact hs
  have hblanks : ∀ c ∈ (t.drop 1).takeWhile isBlank, isBlank c = true :=
    fun c hc => List.mem_takeWhile_imp hc
  obtain ⟨trailing, htrailing, hsplit, hstart, hend⟩ := exists_trimmed hblanks hsolid
  rw [closeGroup?_eq hinner, hsplit, List.append_assoc] at hinner
  exact settled_of_closeGroup? htrailing hstart hend hinner offset

/-- A group token is written as its parentheses around its source, with blanks between. -/
theorem Token.Reads.exists_group {token : Token} {rest source : Text} (h : token.Reads rest)
    (hne : token.text ≠ []) (hbody : token.body = .group source) :
    ∃ inside, token.text = Modifier.text token.modifier ++ '(' :: (inside ++ [')'])
      ∧ source = trimBlanks inside
      ∧ takeGroup? ('(' :: (inside ++ ')' :: rest)) = some (inside, rest) := by
  obtain ⟨body, -, htext, -, hread⟩ := (Token.reads_iff hne).mp h
  rw [hbody] at hread
  cases hm : takeMetatag? (body ++ rest) with
  | some m => simp [readBody_of_metatag hm] at hread
  | none =>
    cases ht : takeGroup? (body ++ rest) with
    | none => simp [readBody_of_run hm ht] at hread
    | some pair =>
      obtain ⟨inside, after⟩ := pair
      rw [readBody_of_group ht, ReadBody.mk.injEq, Body.group.injEq] at hread
      obtain ⟨hsource, hinside, rfl⟩ := hread
      refine ⟨inside, by rw [htext, ← hinside], hsource.symm, ?_⟩
      rwa [takeGroup?_eq ht] at ht

/-- **The tokens of a group stand**, before quotes only if quotes may follow the group. -/
theorem Token.Reads.settled {token : Token} {rest source : Text} (h : token.Reads rest)
    (hne : token.text ≠ []) (hbody : token.body = .group source) (offset : Nat) :
    Settled ('"' ∈ rest) (tokensFrom offset source) := by
  obtain ⟨inside, -, rfl, hgroup⟩ := h.exists_group hne hbody
  exact settled_of_takeGroup? hgroup offset

theorem Token.Stands.settled {token : Token} {loud : Prop} {source : Text} (h : token.Stands loud)
    (hbody : token.body = .group source) (offset : Nat) :
    Settled loud (tokensFrom offset source) := by
  -- if quotes may follow the group, let one follow it
  by_cases hloud : loud
  · have hread := h.reads (startsBlank_space ['"']) fun _ => hloud
    simpa [hloud] using hread.settled h.text_ne_nil hbody offset
  · have hread := h.reads startsBlank_nil (by simp)
    simpa [hloud] using hread.settled h.text_ne_nil hbody offset

end TagSearch
