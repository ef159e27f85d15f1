import TagSearch.Text.Basic

/-!
# Pieces of a text

A text is cut at a separator and joined again (`joinWith_splitOn`). The pieces hold no separator, and
they are the only pieces without one that the text is joined from (`splitOn_joinWith`).
-/

namespace TagSearch.Text

theorem mem_of_mem_piecesBy {p : Char → Bool} {t piece : Text} (h : piece ∈ t.piecesBy p) {c : Char}
    (hc : c ∈ piece) : c ∈ t ∧ p c = false := by
  induction t generalizing piece with
  | nil => simp_all [piecesBy]
  | cons d t ih =>
    unfold piecesBy at h
    split at h
    · rcases List.mem_cons.mp h with rfl | h
      · simp at hc
      · exact (ih h hc).imp_left (List.mem_cons_of_mem d)
    · next hd =>
      split at h
      · obtain rfl := List.mem_singleton.mp h
        obtain rfl := List.mem_singleton.mp hc
        exact ⟨List.mem_cons_self, by simpa using hd⟩
      · next first pieces hpieces =>
        rcases List.mem_cons.mp h with rfl | h
        · rcases List.mem_cons.mp hc with rfl | hc
          · exact ⟨List.mem_cons_self, by simpa using hd⟩
          · exact (ih (hpieces ▸ List.mem_cons_self) hc).imp_left (List.mem_cons_of_mem d)
        · exact (ih (hpieces ▸ List.mem_cons_of_mem _ h) hc).imp_left (List.mem_cons_of_mem d)

theorem piecesBy_of_none {p : Char → Bool} {t : Text} (h : ∀ c ∈ t, p c = false) :
    t.piecesBy p = [t] := by
  induction t with
  | nil => rfl
  | cons c t ih =>
    rw [List.forall_mem_cons] at h
    simp [piecesBy, h.1, ih h.2]

/-- A character that is cut at starts a new piece, and another one goes to the first piece. -/
theorem piecesBy_cons (p : Char → Bool) (c : Char) (t : Text) : ∃ first rest,
    t.piecesBy p = first :: rest
      ∧ piecesBy p (c :: t) = if p c then [] :: first :: rest else (c :: first) :: rest := by
  have hne : t.piecesBy p ≠ [] := by
    cases t with
    | nil => simp [piecesBy]
    | cons d t =>
      simp only [piecesBy]
      split
      · simp
      · split <;> simp
  obtain ⟨first, rest, hpieces⟩ := List.exists_cons_of_ne_nil hne
  exact ⟨first, rest, hpieces, by rw [piecesBy, hpieces]⟩

variable {sep : Char} {t : Text} {pieces : List Text}

theorem splitOn_cons (sep c : Char) (t : Text) : ∃ first rest, t.splitOn sep = first :: rest
    ∧ splitOn sep (c :: t) = if c = sep then [] :: first :: rest else (c :: first) :: rest := by
  obtain ⟨first, rest, hsplit, hcons⟩ := piecesBy_cons (· == sep) c t
  refine ⟨first, rest, hsplit, ?_⟩
  rw [splitOn, hcons]
  by_cases hc : c = sep <;> simp [hc]

theorem splitOn_ne_nil (sep : Char) (t : Text) : t.splitOn sep ≠ [] := by
  obtain ⟨first, rest, hsplit, -⟩ := splitOn_cons sep sep t
  simp [hsplit]

theorem not_mem_of_mem_splitOn {piece : Text} (h : piece ∈ t.splitOn sep) : sep ∉ piece :=
  fun hsep => by simpa using (mem_of_mem_piecesBy h hsep).2

theorem joinWith_cons_cons (sep : Char) (piece next : Text) (rest : List Text) :
    joinWith sep (piece :: next :: rest) = piece ++ sep :: joinWith sep (next :: rest) := by
  simp [joinWith]

theorem mem_joinWith {c : Char} (h : c ∈ joinWith sep pieces) :
    c = sep ∨ ∃ piece ∈ pieces, c ∈ piece := by
  induction pieces with
  | nil => simp [joinWith] at h
  | cons piece rest ih =>
    cases rest with
    | nil => exact Or.inr ⟨piece, List.mem_cons_self, by simpa [joinWith] using h⟩
    | cons next rest =>
      rw [joinWith_cons_cons, List.mem_append, List.mem_cons] at h
      rcases h with h | rfl | h
      · exact Or.inr ⟨piece, List.mem_cons_self, h⟩
      · exact Or.inl rfl
      · exact (ih h).imp_right fun ⟨found, hfound, hc⟩ => ⟨found, List.mem_cons_of_mem _ hfound, hc⟩

/-- The pieces of a text, joined, are the text. -/
theorem joinWith_splitOn (sep : Char) (t : Text) : joinWith sep (t.splitOn sep) = t := by
  induction t with
  | nil => rfl
  | cons c t ih =>
    obtain ⟨first, rest, hsplit, hcons⟩ := splitOn_cons sep c t
    rw [hsplit] at ih
    rw [hcons]
    split
    · next hc => rw [joinWith_cons_cons, ih, hc, List.nil_append]
    · cases rest with
      | nil => simpa [joinWith] using ih
      | cons next rest =>
        rw [joinWith_cons_cons] at ih ⊢
        rw [List.cons_append, ih]

/-- A piece ends at the first separator. -/
theorem splitOn_append {piece : Text} (h : sep ∉ piece) (t : Text) :
    splitOn sep (piece ++ sep :: t) = piece :: t.splitOn sep := by
  induction piece with
  | nil => simp [splitOn, piecesBy]
  | cons c piece ih =>
    rw [List.mem_cons, not_or] at h
    obtain ⟨first, rest, hsplit, hcons⟩ := splitOn_cons sep c (piece ++ sep :: t)
    rw [ih h.2, List.cons.injEq] at hsplit
    rw [List.cons_append, hcons, if_neg (Ne.symm h.1), hsplit.1, hsplit.2]

/-- **Pieces without a separator are found again,** once they are joined. -/
theorem splitOn_joinWith (hne : pieces ≠ []) (h : ∀ piece ∈ pieces, sep ∉ piece) :
    (joinWith sep pieces).splitOn sep = pieces := by
  induction pieces with
  | nil => exact absurd rfl hne
  | cons piece rest ih =>
    rw [List.forall_mem_cons] at h
    cases rest with
    | nil =>
      have hnone : ∀ c ∈ piece, (c == sep) = false := fun c hc =>
        beq_eq_false_iff_ne.mpr fun heq => h.1 (heq ▸ hc)
      simpa [joinWith, splitOn] using piecesBy_of_none hnone
    | cons next rest => rw [joinWith_cons_cons, splitOn_append h.1, ih (by simp) h.2]

end TagSearch.Text
