import TagSearch.Number.Integer

/-!
# Decimal numerals

Which texts are numerals, and of which integer. Reading takes numerals and nothing else
(`readSigned?_eq_some_iff`), and refuses those that do not fit into 64 bits
(`readInt?_eq_some_iff`). An integer that is written in decimal is a numeral of itself
(`isNumeral_intText`).
-/

namespace TagSearch.Number

variable {t digits : Text} {n : Int}

/-- What holds of the ten digits. -/
theorem of_isDigit {P : Char → Prop} (h : ∀ n < 0x3a, 0x30 ≤ n → P (Char.ofNat n)) {c : Char}
    (hc : isDigit c = true) : P c := by
  simp only [isDigit, Bool.and_eq_true, decide_eq_true_eq, Char.le_def, UInt32.le_iff_toNat_le] at hc
  have hself := h c.toNat (Nat.lt_succ_of_le hc.2) hc.1
  rwa [Char.ofNat_toNat] at hself

/-- A row of digits, at least one. -/
structure IsDigits (t : Text) : Prop where
  ne_nil : t ≠ []
  isDigit : ∀ c ∈ t, isDigit c = true

/-- A numeral stands for an integer of any size: digits with an optional sign. -/
inductive IsNumeral : Text → Int → Prop
  | bare {digits : Text} (h : IsDigits digits) : IsNumeral digits (natOfDigits digits)
  | plus {digits : Text} (h : IsDigits digits) : IsNumeral ('+' :: digits) (natOfDigits digits)
  | minus {digits : Text} (h : IsDigits digits) : IsNumeral ('-' :: digits) (-natOfDigits digits)

/-! ## Reading -/

theorem readNat?_eq_some_iff {m : Nat} : readNat? t = some m ↔ IsDigits t ∧ m = natOfDigits t := by
  unfold readNat?
  split
  · next hno =>
    simp only [reduceCtorEq, false_iff, not_and]
    intro h
    rw [List.all_eq_true.mpr h.isDigit] at hno
    exact absurd (List.isEmpty_iff.mp (by simpa using hno)) h.ne_nil
  · next hyes =>
    simp only [Bool.or_eq_true, List.isEmpty_iff, Bool.not_eq_true', not_or,
      Bool.not_eq_false] at hyes
    rw [Option.some.injEq, eq_comm]
    exact (and_iff_right ⟨hyes.1, List.all_eq_true.mp hyes.2⟩).symm

/-- A row of digits has no sign. -/
theorem takeSign_digits (h : IsDigits t) : takeSign t = (false, t) := by
  unfold takeSign
  split
  · exact absurd (h.isDigit '-' List.mem_cons_self) (by decide)
  · exact absurd (h.isDigit '+' List.mem_cons_self) (by decide)
  · rfl

theorem readSigned?_eq (t : Text) : readSigned? t
    = (readNat? (takeSign t).2).map fun m : Nat => if (takeSign t).1 then -(m : Int) else m := by
  rw [readSigned?]
  obtain ⟨negative, digits⟩ := takeSign t
  show (Option.map _ (readNat? digits >>= _)) = _
  cases readNat? digits <;> rfl

/-- **Numerals are read, and nothing else is.** -/
theorem readSigned?_eq_some_iff : readSigned? t = some n ↔ IsNumeral t n := by
  rw [readSigned?_eq]
  constructor
  · intro h
    obtain ⟨m, hm, rfl⟩ := Option.map_eq_some_iff.mp h
    obtain ⟨hdigits, rfl⟩ := readNat?_eq_some_iff.mp hm
    unfold takeSign at hdigits ⊢
    split at hdigits
    · exact .minus hdigits
    · exact .plus hdigits
    · exact .bare hdigits
  · intro h
    cases h with
    | bare h => simp [takeSign_digits h, readNat?_eq_some_iff.mpr ⟨h, rfl⟩]
    | plus h => simp [takeSign, readNat?_eq_some_iff.mpr ⟨h, rfl⟩]
    | minus h => simp [takeSign, readNat?_eq_some_iff.mpr ⟨h, rfl⟩]

/-- **A numeral that does not fit into 64 bits is refused.** -/
theorem readInt?_eq_some_iff : readInt? t = some n ↔ IsNumeral t n ∧ fitsInt64 n = true := by
  rw [readInt?, Option.filter_eq_some_iff, readSigned?_eq_some_iff]

/-! ## Writing -/

theorem isDigits_natText (m : Nat) : IsDigits (natText m) where
  ne_nil := Nat.toDigits_ne_nil
  isDigit c hc := by
    have hdigit := Nat.isDigit_of_mem_toDigits (by decide) (by decide) hc
    simpa [isDigit, Char.isDigit, Char.le_def, UInt32.le_iff_toNat_le] using hdigit

theorem natOfDigits_natText (m : Nat) : natOfDigits (natText m) = m :=
  Nat.ofDigitChars_toDigits (by decide) (by decide)

/-- **An integer that is written is a numeral of itself.** -/
theorem isNumeral_intText (n : Int) : IsNumeral (intText n) n := by
  have hdigits := isDigits_natText n.natAbs
  unfold intText
  split
  · next hneg =>
    have hn : n = -natOfDigits (natText n.natAbs) := by
      rw [natOfDigits_natText]
      omega
    conv => rhs; rw [hn]
    exact .minus hdigits
  · next hpos =>
    have hn : n = natOfDigits (natText n.natAbs) := by
      rw [natOfDigits_natText]
      omega
    conv => rhs; rw [hn]
    exact .bare hdigits

end TagSearch.Number
