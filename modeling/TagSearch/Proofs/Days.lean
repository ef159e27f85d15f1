import TagSearch.Proofs.Ages
import TagSearch.Proofs.Cleaning

/-!
# Dates in a search

A date in a search stands for its whole day, from its start to the start of the next. An interval has
both its ends, so that the start of the next day is in it as well: two dates that follow each other
share one instant.

* `Date.Written`: the form `YYYY-MM-DD`, which is read as its date (`Date.read?_of_written`).
* `Date.of_read?`: a date that is read has no characters that a range is made of.
* `holds_between_iff`: the instants from a start to the next, both ends included.

Main statement: `readDateRange_day`.
-/

namespace TagSearch

open Text Number

/-! ## The written form -/

theorem isSpace_of_isDigit {c : Char} (h : isDigit c = true) : isSpace c = false :=
  of_isDigit (P := fun c => isSpace c = false) (by decide) h

namespace Date

variable {t rest digits : Text} {least most n : Nat} {d : Date}

/-- A date in four, two and two digits with hyphens between. -/
inductive Written : Text → Date → Prop
  | mk (year month day : Text) (hyear : year.length = 4) (hmonth : month.length = 2)
    (hday : day.length = 2) (hdigits : ∀ c ∈ year ++ month ++ day, isDigit c = true)
    (hvalid : isValid ⟨natOfDigits year, natOfDigits month, natOfDigits day⟩ = true) :
    Written (year ++ '-' :: month ++ '-' :: day)
      ⟨natOfDigits year, natOfDigits month, natOfDigits day⟩

/-- As many digits as there may be are all read. -/
theorem takeDigits?_append (rest : Text) (hlength : digits.length = most) (hleast : least ≤ most)
    (hdigits : ∀ c ∈ digits, isDigit c = true) :
    takeDigits? least most (digits ++ rest) = some (natOfDigits digits, rest) := by
  have htake : (digits ++ rest).take most = digits := by rw [← hlength, List.take_left]
  have hall : digits.takeWhile isDigit = digits := List.takeWhile_eq_self_iff.mpr hdigits
  simp only [takeDigits?, htake, hall, List.drop_left]
  rw [if_neg (by omega)]

theorem takeYear?_append (hlength : digits.length = 4) (hdigits : ∀ c ∈ digits, isDigit c = true) :
    takeYear? (digits ++ rest) = some ((natOfDigits digits : Int), rest) := by
  obtain ⟨c, digits, rfl⟩ := List.exists_cons_of_ne_nil (show digits ≠ [] by rintro rfl; simp at hlength)
  have hread := takeDigits?_append rest hlength (show 1 ≤ 4 by decide) hdigits
  have hc := hdigits c List.mem_cons_self
  rw [List.cons_append] at hread ⊢
  unfold takeYear?
  split
  · next h => obtain rfl := (List.cons.inj h).1; simp [isDigit] at hc
  · next h => obtain rfl := (List.cons.inj h).1; simp [isDigit] at hc
  · rw [hread]
    rfl

theorem skipSpace_append (rest : Text) (hne : digits ≠ []) (hdigits : ∀ c ∈ digits, isDigit c = true) :
    skipSpace (digits ++ rest) = digits ++ rest := by
  obtain ⟨c, digits, rfl⟩ := List.exists_cons_of_ne_nil hne
  rw [List.cons_append, skipSpace, List.dropWhile_cons_of_neg]
  rw [isSpace_of_isDigit (hdigits c List.mem_cons_self)]
  decide

/-- **A date in the form `YYYY-MM-DD` is read.** -/
theorem read?_of_written (h : Written t d) : read? t.trim = some d := by
  obtain ⟨year, month, day, hyear, hmonth, hday, hdigits, hvalid⟩ := h
  simp only [List.mem_append, or_imp, forall_and] at hdigits
  obtain ⟨⟨hyears, hmonths⟩, hdays⟩ := hdigits
  have hne {digits : Text} {n : Nat} (h : digits.length = n + 1) : digits ≠ [] :=
    List.ne_nil_of_length_eq_add_one h
  have hfirst : ∀ c ∈ (year ++ '-' :: month ++ '-' :: day).head?, isSpace c = false := by
    intro c hc
    rw [List.append_assoc, List.head?_append_of_ne_nil _ (hne hyear)] at hc
    exact isSpace_of_isDigit (hyears c (List.mem_of_mem_head? hc))
  have hlast : ∀ c ∈ (year ++ '-' :: month ++ '-' :: day).getLast?, isSpace c = false := by
    intro c hc
    rw [List.getLast?_append_of_ne_nil _ (List.cons_ne_nil _ _),
      List.getLast?_cons_of_ne_nil (hne hday)] at hc
    exact isSpace_of_isDigit (hdays c (List.mem_of_getLast? hc))
  rw [Text.trim, trimBy_eq_self hfirst hlast, read?, List.append_assoc, List.cons_append,
    skipSpace_append _ (hne hyear) hyears, takeYear?_append hyear hyears]
  have hdayRead := takeDigits?_append [] hday (show 1 ≤ 2 by decide) hdays
  have hdaySkip := skipSpace_append [] (hne hday) hdays
  rw [List.append_nil] at hdayRead hdaySkip
  simp [afterHyphen?, skipSpace_append _ (hne hmonth) hmonths, hdaySkip, hdayRead,
    takeDigits?_append _ hmonth (show 1 ≤ 2 by decide) hmonths, hvalid]

/-! ## What is read -/

/-- A character of a date that is read. -/
def isDateChar (c : Char) : Bool :=
  isDigit c || c == '-' || c == '+' || isSpace c

/-- After characters of a date the rest of a text is left. -/
def Leaves (t rest : Text) : Prop :=
  ∃ taken, t = taken ++ rest ∧ ∀ c ∈ taken, isDateChar c = true

theorem Leaves.trans {t' : Text} (h : Leaves t t') (h' : Leaves t' rest) : Leaves t rest := by
  obtain ⟨taken, rfl, htaken⟩ := h
  obtain ⟨taken', rfl, htaken'⟩ := h'
  exact ⟨taken ++ taken', (List.append_assoc ..).symm, by grind⟩

theorem Leaves.cons {c : Char} (hc : isDateChar c = true) (h : Leaves t rest) :
    Leaves (c :: t) rest :=
  .trans ⟨[c], rfl, by simpa using hc⟩ h

theorem leaves_skipSpace (t : Text) : Leaves t (skipSpace t) :=
  ⟨t.takeWhile isSpace, List.takeWhile_append_dropWhile.symm, fun c hc => by
    simp [isDateChar, List.mem_takeWhile_imp hc]⟩

theorem leaves_of_takeDigits? (h : takeDigits? least most t = some (n, rest)) : Leaves t rest := by
  simp only [takeDigits?, Option.ite_none_left_eq_some, Option.some.injEq, Prod.mk.injEq] at h
  obtain ⟨-, -, rfl⟩ := h
  have hprefix := (List.takeWhile_prefix isDigit).trans (List.take_prefix most t)
  refine ⟨_, (List.prefix_iff_eq_append.mp hprefix).symm, fun c hc => ?_⟩
  simp [isDateChar, List.mem_takeWhile_imp hc]

theorem leaves_of_takeYear? {year : Int} (h : takeYear? t = some (year, rest)) : Leaves t rest := by
  unfold takeYear? at h
  split at h <;> obtain ⟨⟨n, rest'⟩, hdigits, heq⟩ := Option.map_eq_some_iff.mp h <;>
    obtain ⟨-, rfl⟩ := Prod.mk.inj heq <;> have hleaves := leaves_of_takeDigits? hdigits
  · exact hleaves.cons (by decide)
  · exact hleaves.cons (by decide)
  · exact hleaves

theorem eq_of_afterHyphen? (h : afterHyphen? t = some rest) : t = '-' :: rest := by
  unfold afterHyphen? at h
  split at h
  · rw [Option.some.inj h]
  · cases h

/-- A date that is read is within reach. It has a hyphen, and no characters but a date's. -/
theorem of_read? (h : read? t = some d) :
    d.isValid = true ∧ '-' ∈ t ∧ ∀ c ∈ t, isDateChar c = true := by
  simp only [read?, Option.bind_eq_bind, Option.bind_eq_some_iff, Option.ite_none_right_eq_some,
    Bool.and_eq_true, List.isEmpty_iff, Option.some.injEq] at h
  obtain ⟨⟨year, t₁⟩, hyear, t₂, hhyphen, ⟨month, t₃⟩, hmonth, t₄, hhyphen', ⟨day, t₅⟩, hday,
    ⟨rfl, hvalid⟩, rfl⟩ := h
  obtain rfl := eq_of_afterHyphen? hhyphen
  obtain rfl := eq_of_afterHyphen? hhyphen'
  have hfirst := (leaves_skipSpace t).trans (leaves_of_takeYear? hyear)
  have hsecond := (leaves_skipSpace t₂).trans (leaves_of_takeDigits? hmonth)
  have hthird := (leaves_skipSpace t₄).trans (leaves_of_takeDigits? hday)
  have hall := hfirst.trans (.cons (by decide) (hsecond.trans (.cons (by decide) hthird)))
  refine ⟨hvalid, ?_, ?_⟩
  · obtain ⟨taken, rfl, -⟩ := hfirst
    exact List.mem_append_right _ List.mem_cons_self
  · obtain ⟨taken, rfl, htaken⟩ := hall
    simpa using htaken

end Date

/-! ## Reading a date as a range -/

section Reading

open Instant

variable {now : Instant} {value : Text} {d e : Date}

theorem isDateChar_of_trim (h : ∀ c ∈ value.trim, Date.isDateChar c = true) :
    ∀ c ∈ value, Date.isDateChar c = true := by
  obtain ⟨left, right, hvalue, hleft, hright⟩ := exists_trimBy isSpace value
  have hspace : ∀ c, isSpace c = true → Date.isDateChar c = true := fun c hc => by
    simp [Date.isDateChar, hc]
  rw [hvalue]
  intro c hc
  rcases List.mem_append.mp hc with hc | hc
  · rcases List.mem_append.mp hc with hc | hc
    · exact hspace c (hleft c hc)
    · exact h c hc
  · exact hspace c (hright c hc)

/-- A text with a hyphen is the name of no range. -/
theorem namedRange?_of_hyphen (h : '-' ∈ value) : Value.namedRange? now value = none := by
  have hhyphen : '-' ∈ asciiLowercase value := List.mem_map.mpr ⟨'-', h, by decide⟩
  have hname {name : String} (hno : '-' ∉ name.toList) : (asciiLowercase value == name.toList) = false :=
    beq_false_of_ne fun heq => hno (heq ▸ hhyphen)
  simp only [Value.namedRange?, hname (show '-' ∉ "today".toList by decide),
    hname (show '-' ∉ "yesterday".toList by decide), hname (show '-' ∉ "week".toList by decide),
    hname (show '-' ∉ "month".toList by decide), hname (show '-' ∉ "year".toList by decide),
    hname (show '-' ∉ "decade".toList by decide), Bool.false_eq_true, if_false]

/-- A date is a range of its own: what a range is made of has no place in a date. -/
theorem read?_date (h : Date.read? value.trim = some d) :
    Range.read? Value.readDay? value = some (.eq (startOf d)) := by
  obtain ⟨-, -, hchars⟩ := Date.of_read? h
  have hno {c : Char} (hc : Date.isDateChar c = false) : c ∉ value := fun hmem => by
    simp [isDateChar_of_trim hchars c hmem] at hc
  rw [Range.read?_eq_some_iff]
  refine .eq ⟨fun hhead => ?_, fun hhead => ?_⟩ (fun hdots => ?_) (hno (by decide)) ?_
  · exact hno (by decide) (List.mem_of_mem_head? hhead)
  · exact hno (by decide) (List.mem_of_mem_head? hhead)
  · exact hno (show Date.isDateChar '.' = false by decide) (hdots.subset List.mem_cons_self)
  · rw [Value.readDay?, h]
    rfl

/-- A date is answered by the time from its start to the start of the next. -/
theorem readDateRange_of_read? (h : Date.read? value.trim = some d) :
    Value.readDateRange now value = if d.next.isValid
      then .ok (.between (startOf d) (startOf d.next)) else .error .dateOutOfRange := by
  obtain ⟨hvalid, hhyphen, -⟩ := Date.of_read? h
  rw [Value.readDateRange, namedRange?_of_hyphen (mem_of_mem_trimBy hhyphen), read?_date h]
  show (_ <$> Value.orReason _ ((startOf d).later? day)) = _
  rw [later?_day (Date.isValid_iff.mp hvalid).1]
  split <;> rfl

/-- The time from the start of a date to the start of the next is the date and that start. -/
theorem holds_between_iff (h : d.IsProper) {t : Instant} :
    (Range.between (startOf d) (startOf d.next)).holds t ↔ t.date = d ∨ t = startOf d.next := by
  have hstart : (startOf d).nanos ≤ (startOf d.next).nanos := by
    rw [startOf_next h]
    exact Int.le_add_of_nonneg_right (by decide)
  obtain ⟨nanos⟩ := t
  rw [date_eq_iff h, ← eq_iff_nanos]
  show (startOf d).nanos ≤ nanos ∧ nanos ≤ (startOf d.next).nanos
    ↔ (startOf d).nanos ≤ nanos ∧ nanos < (startOf d.next).nanos ∨ nanos = (startOf d.next).nanos
  omega

/-- Two days and the moments after them share an instant if one day follows the other. -/
theorem date_and_date_iff (hd : d.IsProper) (he : e.IsProper) (hne : e ≠ d) {t : Instant} :
    (t.date = d ∨ t = startOf d.next) ∧ (t.date = e ∨ t = startOf e.next)
      ↔ e = d.next ∧ t = startOf e ∨ d = e.next ∧ t = startOf d := by
  constructor
  · rintro ⟨hdate | rfl, hdate' | hstart⟩
    · exact absurd (hdate'.symm.trans hdate) hne
    · have hnext : d = e.next := by rw [← hdate, hstart, date_startOf he.next]
      exact .inr ⟨hnext, hstart.trans (hnext ▸ rfl)⟩
    · have hnext : e = d.next := by rw [← hdate', date_startOf hd.next]
      exact .inl ⟨hnext, hnext ▸ rfl⟩
    · have hnext : d.next = e.next := by
        rw [← date_startOf hd.next, hstart, date_startOf he.next]
      have hdays : d.toDays = e.toDays := by
        have := congrArg Date.toDays hnext
        rwa [Date.toDays_next hd, Date.toDays_next he, Int.add_left_inj] at this
      exact absurd ((Date.toDays_inj hd he).mp hdays).symm hne
  · rintro (⟨rfl, rfl⟩ | ⟨rfl, rfl⟩)
    · exact ⟨.inr rfl, .inl (date_startOf he)⟩
    · exact ⟨.inl (date_startOf hd), .inr rfl⟩

end Reading

/-- **A date in a search stands for its day and the moment after.** For every clock, a value that is
read as a date is answered by a range that holds for the instants of the date, and for the start of
the date after as well; only the last date there is has no range. So the ranges of two dates share
an instant if one date follows the other, the start of the later one, and none otherwise. A date in
the form `YYYY-MM-DD` is read as the date. -/
theorem readDateRange_day (m : Metatag) (now : Instant) (value : Text) (d : Date)
    (h : Date.read? value.trim = some d) :
    (d = ⟨Date.maxYear, 12, 31⟩ → Compiler.coerced m value (Value.readDateRange now value)
        = .error (.invalidValue m.name.toList value .dateOutOfRange))
      ∧ (d ≠ ⟨Date.maxYear, 12, 31⟩ → ∃ range,
          Compiler.coerced m value (Value.readDateRange now value) = .ok range
            ∧ (∀ t : Instant, range.holds t ↔ t.date = d ∨ t = Instant.startOf d.next)
            ∧ ∀ (now' : Instant) (value' : Text) (d' : Date) (range' : Range Instant),
              Date.read? value'.trim = some d' → d' ≠ d →
              Compiler.coerced m value' (Value.readDateRange now' value') = .ok range' →
              ∀ t : Instant, range.holds t ∧ range'.holds t
                ↔ d' = d.next ∧ t = Instant.startOf d' ∨ d = d'.next ∧ t = Instant.startOf d)
      ∧ ∀ t date, Date.Written t date → Date.read? t.trim = some date := by
  have hvalid := (Date.of_read? h).1
  have hproper := (Date.isValid_iff.mp hvalid).1
  refine ⟨fun hlast => ?_, fun hlast => ⟨.between (Instant.startOf d) (Instant.startOf d.next), ?_,
    fun t => holds_between_iff hproper, fun now' value' d' range' h' hne hrange' t => ?_⟩,
    fun t date => Date.read?_of_written⟩
  · rw [readDateRange_of_read? h, if_neg (by rwa [Date.isValid_next_iff hvalid, not_not])]
    rfl
  · rw [readDateRange_of_read? h, if_pos ((Date.isValid_next_iff hvalid).mpr hlast)]
    rfl
  · have hproper' := (Date.isValid_iff.mp (Date.of_read? h').1).1
    obtain rfl : range' = .between (Instant.startOf d') (Instant.startOf d'.next) := by
      rw [readDateRange_of_read? h'] at hrange'
      split at hrange' <;> cases hrange'
      rfl
    rw [holds_between_iff hproper, holds_between_iff hproper', date_and_date_iff hproper hproper' hne]

/-- The leap day, and the day after written loosely. -/
theorem readDateRange_day_leap :
    Date.Written "2024-02-29".toList ⟨2024, 2, 29⟩
      ∧ Date.read? (Text.trim " 2024-3-1".toList) = some ⟨2024, 3, 1⟩
      ∧ ∃ range range',
        Compiler.coerced .date "2024-02-29".toList
            (Value.readDateRange noon "2024-02-29".toList) = .ok range
          ∧ Compiler.coerced .date " 2024-3-1".toList
            (Value.readDateRange noon " 2024-3-1".toList) = .ok range'
          ∧ (∀ t : Instant, range.holds t
            ↔ t.date = ⟨2024, 2, 29⟩ ∨ t = Instant.startOf ⟨2024, 3, 1⟩)
          ∧ ∀ t : Instant, range.holds t ∧ range'.holds t ↔ t = Instant.startOf ⟨2024, 3, 1⟩ := by
  have hwritten : Date.Written "2024-02-29".toList ⟨2024, 2, 29⟩ := by
    rw [show "2024-02-29".toList = "2024".toList ++ '-' :: "02".toList ++ '-' :: "29".toList by rfl]
    exact .mk _ _ _ rfl rfl rfl (List.all_eq_true.mp (by decide)) (by decide)
  have hloose : Date.read? (Text.trim " 2024-3-1".toList) = some ⟨2024, 3, 1⟩ := by decide
  have hread : Date.read? (Text.trim "2024-02-29".toList) = some ⟨2024, 2, 29⟩ :=
    (readDateRange_day .date noon _ _ hloose).2.2 _ _ hwritten
  obtain ⟨range, hrange, hholds, hshared⟩ :=
    (readDateRange_day .date noon _ _ hread).2.1 (by decide)
  obtain ⟨range', hrange', -, -⟩ := (readDateRange_day .date noon _ _ hloose).2.1 (by decide)
  refine ⟨hwritten, hloose, range, range', hrange, hrange', hholds, fun t => ?_⟩
  rw [hshared noon _ _ _ hloose (by decide) hrange' t]
  simp [show Date.next ⟨2024, 2, 29⟩ = ⟨2024, 3, 1⟩ by decide,
    show Date.next ⟨2024, 3, 1⟩ = ⟨2024, 3, 2⟩ by decide]

/-- The start of February is in the range of the last of January, and in that of its own date. -/
theorem readDateRange_day_fails : ∃ range range',
    Compiler.coerced .date "2024-01-31".toList (Value.readDateRange noon "2024-01-31".toList)
        = .ok range
      ∧ Compiler.coerced .date "2024-02-01".toList (Value.readDateRange noon "2024-02-01".toList)
        = .ok range'
      ∧ (Instant.startOf ⟨2024, 2, 1⟩).date ≠ ⟨2024, 1, 31⟩
      ∧ range.holds (Instant.startOf ⟨2024, 2, 1⟩) ∧ range'.holds (Instant.startOf ⟨2024, 2, 1⟩) := by
  have hjanuary : Date.read? (Text.trim "2024-01-31".toList) = some ⟨2024, 1, 31⟩ := by decide
  have hfebruary : Date.read? (Text.trim "2024-02-01".toList) = some ⟨2024, 2, 1⟩ := by decide
  have hlast : Date.IsProper ⟨2024, 1, 31⟩ := Date.isProper_mk.mpr (by decide)
  have hfirst : Date.IsProper ⟨2024, 2, 1⟩ := Date.isProper_mk.mpr (by decide)
  rw [readDateRange_of_read? hjanuary, readDateRange_of_read? hfebruary, if_pos (by decide),
    if_pos (by decide)]
  exact ⟨_, _, rfl, rfl, by decide, (holds_between_iff hlast).mpr (.inr rfl),
    (holds_between_iff hfirst).mpr (.inl (Instant.date_startOf hfirst))⟩

end TagSearch
