/-!
# Runs that may fail

Steps in `Except`, one after the other: where they succeed, where they fail and what they keep.

`SameUnless` compares two runs of which the first is stricter. It composes like the runs do, so that
it holds of a whole pass if it holds of its steps.
-/

namespace TagSearch

/-! ## Success and failure -/

/-- A sequence of two steps succeeds only if both do. -/
theorem exists_ok_of_bind {ε α β : Type} {first : Except ε α} {next : α → Except ε β} {b : β}
    (h : (do let a ← first; next a) = .ok b) : ∃ a, first = .ok a ∧ next a = .ok b :=
  match first, h with
  | .ok a, h => ⟨a, rfl, h⟩

/-- A sequence of two steps fails where one of them does. -/
theorem error_of_bind {ε α β : Type} {first : Except ε α} {next : α → Except ε β} {e : ε}
    (h : (do let a ← first; next a) = .error e) :
    first = .error e ∨ ∃ a, first = .ok a ∧ next a = .error e :=
  match first, h with
  | .error _, rfl => Or.inl rfl
  | .ok a, h => Or.inr ⟨a, rfl, h⟩

theorem error_of_map {ε α β : Type} {f : α → β} {x : Except ε α} {e : ε}
    (h : f <$> x = .error e) : x = .error e :=
  match x, h with
  | .error _, rfl => rfl

theorem exists_ok_of_map {ε α β : Type} {f : α → β} {x : Except ε α} {b : β}
    (h : f <$> x = .ok b) : ∃ a, x = .ok a ∧ f a = b :=
  match x, h with
  | .ok a, rfl => ⟨a, rfl, rfl⟩

theorem ok_of_toOption {ε α : Type} {x : Except ε α} {a : α} (h : x.toOption = some a) :
    x = .ok a :=
  match x, h with
  | .ok _, rfl => rfl

/-- Where a run of steps succeeds, each of them does. -/
theorem ok_of_foldlM {ε σ α : Type} {f : σ → α → Except ε σ} {items : List α} {s s' : σ}
    (h : items.foldlM f s = .ok s') {item : α} (hitem : item ∈ items) :
    ∃ reached next, f reached item = .ok next := by
  induction items generalizing s with
  | nil => simp at hitem
  | cons first rest ih =>
    rw [List.foldlM_cons] at h
    obtain ⟨next, hnext, h⟩ := exists_ok_of_bind h
    rcases List.mem_cons.mp hitem with rfl | hitem
    · exact ⟨s, next, hnext⟩
    · exact ih h hitem

/-- A run that fails took some steps, and failed at the next one. -/
theorem exists_of_foldlM_error {ε σ α : Type} {f : σ → α → Except ε σ} {items : List α} {s : σ}
    {e : ε} (h : items.foldlM f s = .error e) :
    ∃ before item after reached, items = before ++ item :: after
      ∧ before.foldlM f s = .ok reached ∧ f reached item = .error e := by
  induction items generalizing s with
  | nil => simp [pure, Except.pure] at h
  | cons item rest ih =>
    rw [List.foldlM_cons] at h
    rcases error_of_bind h with h | ⟨next, hnext, h⟩
    · exact ⟨[], item, rest, s, rfl, rfl, h⟩
    · obtain ⟨before, other, after, reached, rfl, hbefore, h⟩ := ih h
      refine ⟨item :: before, other, after, reached, rfl, ?_, h⟩
      rw [List.foldlM_cons, hnext]
      exact hbefore

/-- What every step keeps, a run of steps keeps. -/
theorem invariant_of_foldlM {ε σ α : Type} {f : σ → α → Except ε σ} {P : σ → Prop}
    {items : List α} {s s' : σ} (hstep : ∀ {s item s'}, P s → f s item = .ok s' → P s')
    (hs : P s) (h : items.foldlM f s = .ok s') : P s' := by
  induction items generalizing s with
  | nil =>
    cases h
    exact hs
  | cons item rest ih =>
    rw [List.foldlM_cons] at h
    obtain ⟨next, hnext, h⟩ := exists_ok_of_bind h
    exact ih (hstep hs hnext) h

/-- Where a run of steps fails, one of them does. -/
theorem error_of_foldlM {ε σ α : Type} {f : σ → α → Except ε σ} {items : List α} {s : σ} {e : ε}
    (h : items.foldlM f s = .error e) : ∃ reached, ∃ item ∈ items, f reached item = .error e := by
  obtain ⟨before, item, after, reached, rfl, -, hitem⟩ := exists_of_foldlM_error h
  exact ⟨reached, item, by simp, hitem⟩

/-- Where a run fails, it fails at a step whose start has all that the steps before it keep. -/
theorem invariant_of_foldlM_error {ε σ α : Type} {f : σ → α → Except ε σ} {P : σ → Prop}
    {items : List α} {s : σ} {e : ε} (hstep : ∀ {s item s'}, P s → f s item = .ok s' → P s')
    (hs : P s) (h : items.foldlM f s = .error e) :
    ∃ reached, ∃ item ∈ items, P reached ∧ f reached item = .error e := by
  obtain ⟨before, item, after, reached, rfl, hbefore, hitem⟩ := exists_of_foldlM_error h
  exact ⟨reached, item, by simp, invariant_of_foldlM hstep hs hbefore, hitem⟩

/-- A run succeeds as another one does if each of its steps does. -/
theorem foldlM_ok_of_steps {ε σ α : Type} {f g : σ → α → Except ε σ}
    (hstep : ∀ {s item s'}, f s item = .ok s' → g s item = .ok s') {items : List α} {s s' : σ}
    (h : items.foldlM f s = .ok s') : items.foldlM g s = .ok s' := by
  induction items generalizing s with
  | nil => exact h
  | cons item rest ih =>
    rw [List.foldlM_cons] at h ⊢
    obtain ⟨next, hnext, h⟩ := exists_ok_of_bind h
    rw [hstep hnext]
    exact ih h

/-- Two runs are alike if their steps are, wherever the first one comes to. -/
theorem foldlM_congr {ε σ α : Type} {f g : σ → α → Except ε σ} {items : List α} {s : σ}
    (h : ∀ before item rest reached, items = before ++ item :: rest →
      before.foldlM f s = .ok reached → g reached item = f reached item) :
    items.foldlM g s = items.foldlM f s := by
  induction items generalizing s with
  | nil => rfl
  | cons item rest ih =>
    rw [List.foldlM_cons, List.foldlM_cons, h [] item rest s rfl rfl]
    cases hnext : f s item with
    | error e => rfl
    | ok next =>
      refine ih fun before other after reached heq hbefore => ?_
      refine h (item :: before) other after reached (by rw [heq]; rfl) ?_
      rw [List.foldlM_cons, hnext]
      exact hbefore

/-! ## Strict runs -/

/-- Two runs that end alike, unless the first, strict one fails with an error in `P`. -/
def SameUnless {ε α : Type} (P : ε → Prop) (strict other : Except ε α) : Prop :=
  (∃ e, strict = .error e ∧ P e) ∨ other = strict

namespace SameUnless

variable {ε α β σ : Type} {P : ε → Prop}

theorem refl (x : Except ε α) : SameUnless P x x :=
  Or.inr rfl

theorem bind {x y : Except ε α} {f g : α → Except ε β} (h : SameUnless P x y)
    (hnext : ∀ a, SameUnless P (f a) (g a)) : SameUnless P (x >>= f) (y >>= g) := by
  rcases h with ⟨e, rfl, he⟩ | rfl
  · exact Or.inl ⟨e, rfl, he⟩
  · cases y with
    | error e => exact refl _
    | ok a => exact hnext a

theorem map {x y : Except ε α} (f : α → β) (h : SameUnless P x y) :
    SameUnless P (f <$> x) (f <$> y) := by
  rcases h with ⟨e, rfl, he⟩ | rfl
  · exact Or.inl ⟨e, rfl, he⟩
  · exact refl _

theorem mapM {f g : α → Except ε β} (h : ∀ a, SameUnless P (f a) (g a)) (items : List α) :
    SameUnless P (items.mapM f) (items.mapM g) := by
  induction items with
  | nil => exact refl _
  | cons item rest ih =>
    rw [List.mapM_cons, List.mapM_cons]
    exact (h item).bind fun _ => ih.bind fun _ => refl _

theorem foldlM {f g : σ → α → Except ε σ} (h : ∀ s a, SameUnless P (f s a) (g s a))
    (items : List α) (s : σ) : SameUnless P (items.foldlM f s) (items.foldlM g s) := by
  induction items generalizing s with
  | nil => exact refl _
  | cons item rest ih =>
    rw [List.foldlM_cons, List.foldlM_cons]
    exact (h s item).bind fun next => ih next

/-- Where the strict run succeeds, the other one does too. -/
theorem ok_of_ok {x y : Except ε α} {a : α} (h : SameUnless P x y) (hx : x = .ok a) :
    y = .ok a := by
  rcases h with ⟨e, he, _⟩ | rfl
  · rw [hx] at he
    simp at he
  · exact hx

end SameUnless

end TagSearch
