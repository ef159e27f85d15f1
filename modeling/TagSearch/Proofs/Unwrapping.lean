import TagSearch.Proofs.Lifting

/-!
# Searches inside plain groups

Hoisting takes away the plain groups around a whole search before it looks at the tokens. What it
then looks at is a level of the search (`Unwraps`), with the leaves of the search, and reads like
any other text. `hoistText_unwraps` says how a successful run ends.
-/

namespace TagSearch

open Text Lexer

/-- So many plain groups stand around `inside` and nothing else. -/
inductive Unwraps : Nat → Text → Text → Prop where
  | refl (t : Text) : Unwraps 0 t t
  | step {groups offset : Nat} {t source inside whole : Text}
    (h : tokenize t = [⟨none, .group source, whole, offset⟩])
    (hrest : Unwraps groups source inside) : Unwraps (groups + 1) t inside

namespace Unwraps

variable {groups : Nat} {t inside : Text}

theorem leavesIn_eq (h : Unwraps groups t inside) :
    leavesIn (tokenize t) = leavesIn (tokenize inside) := by
  induction h with
  | refl t => rfl
  | step h hrest ih => rw [h, leavesIn_group rfl, ih]

theorem depthIn_eq (h : Unwraps groups t inside) :
    depthIn (tokenize t) = groups + depthIn (tokenize inside) := by
  induction h with
  | refl t => exact (Nat.zero_add _).symm
  | step h hrest ih => rw [h, depthIn_group rfl, ih, Nat.add_right_comm]

end Unwraps

/-- A text without blanks at its ends that is one token is that token. -/
theorem eq_text_of_tokenize {t : Text} {token : Token} (h : tokenize t = [token])
    (ht : StartsSolid t ∧ EndsSolid t) : t = token.text := by
  have hne : t ≠ [] := by
    rintro rfl
    simp [tokenize] at h
  rw [tokenize, tokensFrom_solid hne ht.1, List.cons.injEq] at h
  have hrest : (readToken 0 t).2.dropWhile isBlank = [] := by
    by_contra hrest
    have htokens := h.2
    rw [tokensFrom_dropWhile, tokensFrom_solid hrest (startsSolid_dropWhile _)] at htokens
    simp at htokens
  have hend : EndsSolid (readToken 0 t).2 := by
    have hend := ht.2
    rw [← readToken_eq 0 t] at hend
    exact hend.of_append
  have hnil : (readToken 0 t).2 = [] := by
    by_contra hnonempty
    obtain ⟨c, hc⟩ := Option.ne_none_iff_exists'.mp (mt List.getLast?_eq_none_iff.mp hnonempty)
    have hblank := List.dropWhile_eq_nil_iff.mp hrest c (List.mem_of_getLast? hc)
    rw [hend c hc] at hblank
    exact Bool.false_ne_true hblank
  rw [← h.1]
  have heq := readToken_eq 0 t
  rw [hnil, List.append_nil] at heq
  exact heq.symm

/-- A text that is one group is a token that stands. -/
theorem stands_of_tokenize {t source whole : Text} {modifier : Option Modifier} {offset : Nat}
    (h : tokenize t = [⟨modifier, .group source, whole, offset⟩]) :
    Token.Stands ⟨modifier, .group source, whole, offset⟩ False := by
  have hstrung := strung_tokensFrom 0 t
  rw [show tokensFrom 0 t = tokenize t from rfl, h] at hstrung
  rcases hstrung.1 with hstands | hopening
  · exact hstands.imp False.elim
  · exact absurd hopening.body (by simp)

/-- The source of a group neither starts nor ends with a blank. -/
theorem Token.Stands.solid_source {token : Token} {loud : Prop} {source : Text}
    (h : token.Stands loud) (hbody : token.body = .group source) :
    StartsSolid source ∧ EndsSolid source := by
  obtain ⟨inside, -, rfl, -⟩ :=
    (h.reads startsBlank_nil (by simp)).exists_group h.text_ne_nil hbody
  exact ⟨fun c hc => trimBy_head? hc, fun c hc => trimBy_getLast? hc⟩

namespace Unwraps

variable {groups : Nat} {t inside : Text}

theorem pieces {P : Text → Prop} (hP : Piecewise P) (h : Unwraps groups t inside) (ht : P t) :
    P inside := by
  induction h with
  | refl t => exact ht
  | step h hrest ih =>
    have hstands := stands_of_tokenize h
    have hwhole := hP.of_mem_tokensFrom ht (List.mem_of_mem_head? (congrArg List.head? h))
    exact ih (hP.source (hstands.reads startsBlank_nil (by simp)) hstands.text_ne_nil rfl hwhole)

theorem solid (h : Unwraps groups t inside) (ht : StartsSolid t ∧ EndsSolid t) :
    StartsSolid inside ∧ EndsSolid inside := by
  induction h with
  | refl t => exact ht
  | step h hrest ih => exact ih ((stands_of_tokenize h).solid_source rfl)

theorem holdsInside {Q : Token → Prop} (h : Unwraps groups t inside)
    (ht : HoldsInside Q (tokenize t)) : HoldsInside Q (tokenize inside) := by
  induction h with
  | refl t => exact ht
  | step h hrest ih =>
    refine ih fun token htoken _ leaf hleaf => ?_
    refine ht _ (List.mem_of_mem_head? (congrArg List.head? h)) rfl leaf ?_
    rw [leavesIn_group rfl]
    exact mem_leavesIn.mpr ⟨token, htoken, hleaf⟩

theorem liftsApart {names : List Text} (h : Unwraps groups t inside)
    (ht : LiftsApart names (tokenize t)) : LiftsApart names (tokenize inside) := by
  induction h with
  | refl t => exact ht
  | step h hrest ih =>
    have houter := ht _ (List.mem_of_mem_head? (congrArg List.head? h)) rfl
    rw [leavesIn_group rfl] at houter
    refine ih fun token htoken _ hsome leaf hleaf => ?_
    obtain ⟨hoisted, hmem, hhoisted⟩ := List.any_eq_true.mp hsome
    refine houter ?_ leaf (mem_leavesIn.mpr ⟨token, htoken, hleaf⟩)
    exact List.any_eq_true.mpr ⟨hoisted, mem_leavesIn.mpr ⟨token, htoken, hmem⟩, hhoisted⟩

theorem laid (h : Unwraps groups t inside) (ht : Laid (tokenize t)) : Laid (tokenize inside) := by
  induction h with
  | refl t => exact ht
  | step h hrest ih => exact ih ((stands_of_tokenize h).settled rfl 0).laid

end Unwraps

/-- A text that holds nothing has no leaves. -/
theorem leavesIn_holdsNothing {t : Text} (h : holdsNothing t = true) :
    leavesIn (tokenize t) = [] := by
  rw [holdsNothing, Bool.or_eq_true] at h
  rcases h with hnil | hempty
  · rw [List.isEmpty_iff.mp hnil]
    simp [tokenize]
  · obtain ⟨modifier, htokens⟩ := tokenize_emptyGroup hempty
    rw [htokens, leavesIn_group rfl]
    simp [tokenize]

variable (options : Hoist.Options) (limit : Nat)

/-- How hoisting ends, with `remaining` levels left, at a text from which nothing is unwrapped. -/
inductive HoistEnds (remaining : Nat) (t : Text) : List Token → Prop where
  | nothing (h : holdsNothing t = true) : HoistEnds remaining t []
  | tooDeep {source whole : Text} {offset : Nat} (hlast : remaining = 0)
    (h : tokenize t = [⟨none, .group source, whole, offset⟩]) : HoistEnds remaining t []
  | level {found : List (List Token)} (h : holdsNothing t = false)
    (htokens : ∀ source whole offset, tokenize t ≠ [⟨none, .group source, whole, offset⟩])
    (hfound : (Tree.ofText t).mapM (Hoist.hoistTree options limit remaining) = .ok found) :
    HoistEnds remaining t found.flatten

/-- **Hoisting unwraps the search and then looks at one level.** -/
theorem hoistText_unwraps (remaining : Nat) (t : Text) {result : List Token} {unwrapped : Nat}
    (h : Hoist.hoistText options limit remaining t = .ok (result, unwrapped)) :
    ∃ groups inside, Unwraps groups t inside ∧ groups ≤ remaining
      ∧ unwrapped = limit - (remaining - groups)
      ∧ HoistEnds options limit (remaining - groups) inside result := by
  cases stands t with
  | empty hnothing =>
    rw [hoistText_empty options limit remaining hnothing] at h
    cases h
    exact ⟨0, t, .refl t, Nat.zero_le _, rfl, .nothing hnothing⟩
  | @wrapped source whole offset hsome htokens =>
    match remaining with
    | 0 =>
      rw [hoistText_wrapped_zero options limit hsome htokens] at h
      split at h
      · cases h
      · cases h
        exact ⟨0, t, .refl t, Nat.zero_le _, rfl, .tooDeep rfl htokens⟩
    | remaining + 1 =>
      rw [hoistText_wrapped options limit remaining hsome htokens] at h
      obtain ⟨groups, inside, hunwraps, hle, hcount, hends⟩ := hoistText_unwraps remaining source h
      refine ⟨groups + 1, inside, .step htokens hunwraps, Nat.succ_le_succ hle, ?_, ?_⟩
      · rw [hcount, Nat.add_sub_add_right]
      · rwa [Nat.add_sub_add_right]
  | level hsome htokens =>
    rw [hoistText_level options limit remaining hsome htokens] at h
    obtain ⟨found, hfound, h⟩ := exists_ok_of_bind h
    cases h
    exact ⟨0, t, .refl t, Nat.zero_le _, rfl, .level hsome htokens hfound⟩

variable {options limit}

theorem hoistedFrom_of_mapM {remaining : Nat} {t : Text} {found : List (List Token)}
    (hclosing : LiftsApart options.names (tokenize t))
    (h : (Tree.ofText t).mapM (Hoist.hoistTree options limit remaining) = .ok found) :
    HoistedFrom options.names remaining (tokenize t) found.flatten := by
  rw [Tree.ofText_eq] at h
  exact mapM_hoistTree_hoisted options limit remaining (strung_tokensFrom 0 t) hclosing h

end TagSearch
