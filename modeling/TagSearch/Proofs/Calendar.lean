import Mathlib.Tactic.IntervalCases
import TagSearch.Time.Instant

/-!
# The calendar

Days are counted by a formula. It counts what a calendar counts: the day after a date has the next
number (`Date.toDays_next`), where the day after is found from the lengths of the months. Hence every
number is a date's (`Date.exists_toDays_eq`), and the two formulas are inverse to each other
(`Date.ofDays_toDays`, `Date.toDays_ofDays`).

A year is counted from its March, so that the leap day is its last: `Date.daysBeforeMarch` are the
days before a year in this sense.
-/

namespace TagSearch

namespace Date

variable {d e : Date} {year : Int}

/-! ## Dates of any year -/

/-- The month is one of the year, and the day one of the month. -/
structure IsProper (d : Date) : Prop where
  month_pos : 1 ≤ d.month
  month_le : d.month ≤ 12
  day_pos : 1 ≤ d.day
  day_le : d.day ≤ daysInMonth d.year d.month

theorem isProper_mk {month day : Nat} : IsProper ⟨year, month, day⟩
    ↔ 1 ≤ month ∧ month ≤ 12 ∧ 1 ≤ day ∧ day ≤ daysInMonth year month :=
  ⟨fun ⟨h, h', hday, hday'⟩ => ⟨h, h', hday, hday'⟩, fun ⟨h, h', hday, hday'⟩ => ⟨h, h', hday, hday'⟩⟩

theorem isValid_iff : d.isValid = true ↔ d.IsProper ∧ minYear ≤ d.year ∧ d.year ≤ maxYear := by
  simp only [isValid, Bool.and_eq_true, decide_eq_true_eq]
  constructor
  · rintro ⟨⟨⟨⟨⟨hmin, hmax⟩, hmonth⟩, hmonth'⟩, hday⟩, hday'⟩
    exact ⟨⟨hmonth, hmonth', hday, hday'⟩, hmin, hmax⟩
  · rintro ⟨h, hmin, hmax⟩
    exact ⟨⟨⟨⟨⟨hmin, hmax⟩, h.month_pos⟩, h.month_le⟩, h.day_pos⟩, h.day_le⟩

/-- The day after: the next of the month, or else the first of the next month. -/
def next (d : Date) : Date :=
  if d.day < daysInMonth d.year d.month then ⟨d.year, d.month, d.day + 1⟩
  else if d.month < 12 then ⟨d.year, d.month + 1, 1⟩
  else ⟨d.year + 1, 1, 1⟩

theorem isLeap_iff : isLeap year = true ↔ year % 4 = 0 ∧ (year % 100 ≠ 0 ∨ year % 400 = 0) := by
  simp [isLeap]

theorem daysInMonth_pos (year : Int) (month : Nat) : 1 ≤ daysInMonth year month := by
  unfold daysInMonth
  repeat' split
  all_goals decide

theorem daysInMonth_february (year : Int) :
    daysInMonth year 2 = if isLeap year then 29 else 28 :=
  rfl

theorem IsProper.next (h : d.IsProper) : d.next.IsProper := by
  obtain ⟨hmonth, hmonth', hday, hday'⟩ := h
  unfold Date.next
  split
  · next hlt => exact ⟨hmonth, hmonth', Nat.le_add_left 1 _, hlt⟩
  · split
    · next hlt => exact ⟨Nat.le_add_left 1 _, hlt, Nat.le_refl 1, daysInMonth_pos _ _⟩
    · exact ⟨Nat.le_refl 1, Nat.le_add_left 1 11, Nat.le_refl 1, daysInMonth_pos _ _⟩

/-! ## Years from March -/

/-- The days from the March of year 0 to the March of another year. -/
def daysBeforeMarch (year : Int) : Int :=
  365 * year + year / 4 - year / 100 + year / 400

/-- The year whose March comes before the date. -/
def marchYear (d : Date) : Int :=
  if d.month ≤ 2 then d.year - 1 else d.year

/-- The days from that March to the date. -/
def marchDay (d : Date) : Int :=
  (153 * ((d.month + 9 : Int) % 12) + 2) / 5 + d.day - 1

theorem fdiv_ofNat (a : Int) (n : Nat) :
    a.fdiv (no_index (OfNat.ofNat n)) = a / (OfNat.ofNat n : Int) :=
  Int.fdiv_eq_ediv_of_nonneg a (Int.natCast_nonneg n)

/-- The days of a date without a word on cycles. -/
theorem toDays_eq (d : Date) : d.toDays = daysBeforeMarch d.marchYear + d.marchDay - 719468 := by
  unfold toDays
  rw [← marchYear]
  simp only [daysBeforeMarch, marchDay, fdiv_ofNat]
  omega

/-- A year from March has one more day if the next year is a leap year. -/
theorem daysBeforeMarch_succ (year : Int) : daysBeforeMarch (year + 1)
    = daysBeforeMarch year + if isLeap (year + 1) then 366 else 365 := by
  unfold daysBeforeMarch
  split
  · next h =>
    rw [isLeap_iff] at h
    omega
  · next h =>
    rw [isLeap_iff] at h
    omega

/-- The first of a month comes after the last of the month before. -/
theorem toDays_first {month : Nat} (hmonth : 1 ≤ month) (hlt : month < 12) :
    toDays ⟨year, month + 1, 1⟩ = toDays ⟨year, month, daysInMonth year month⟩ + 1 := by
  simp only [toDays_eq, marchYear, marchDay, daysInMonth]
  -- From February to March the year changes.
  obtain rfl | hne := eq_or_ne month 2
  · have hyear := daysBeforeMarch_succ (year - 1)
    rw [Int.sub_add_cancel] at hyear
    cases hleap : isLeap year <;> simp [hleap] at hyear ⊢ <;> omega
  · interval_cases month <;> simp at hne ⊢ <;> omega

/-- **The day after has the next number.** -/
theorem toDays_next (h : d.IsProper) : d.next.toDays = d.toDays + 1 := by
  obtain ⟨year, month, day⟩ := d
  obtain ⟨hmonth, hmonth', hday, hday'⟩ := isProper_mk.mp h
  unfold next
  split
  · simp only [toDays_eq, marchYear, marchDay]
    omega
  · next hlast =>
    obtain rfl : day = daysInMonth year month := Nat.le_antisymm hday' (Nat.le_of_not_lt hlast)
    split
    · next hlt => exact toDays_first hmonth hlt
    · next hdecember =>
      obtain rfl : month = 12 := Nat.le_antisymm hmonth' (Nat.le_of_not_lt hdecember)
      simp only [toDays_eq, marchYear, marchDay, daysInMonth]
      simp
      omega

/-! ## From days to dates -/

/-- A number of days is one of the year from a March. -/
structure IsOfYear (year day : Int) : Prop where
  nonneg : 0 ≤ day
  le : day ≤ 365
  leap : day = 365 → isLeap (year + 1) = true

/-- A cycle of 400 years has four centuries of 36524 days and one day more. A century has 25 times
four years of 1461 days, where the last times has a day less. -/
theorem daysBeforeMarch_parts {century olympiad year : Int} (hcentury : 0 ≤ century ∧ century ≤ 3)
    (holympiad : 0 ≤ olympiad ∧ olympiad ≤ 24) (hyear : 0 ≤ year ∧ year ≤ 3) :
    daysBeforeMarch (100 * century + 4 * olympiad + year)
      = 36524 * century + 1461 * olympiad + 365 * year := by
  unfold daysBeforeMarch
  omega

theorem daysBeforeMarch_cycle (era year : Int) :
    daysBeforeMarch (400 * era + year) = 146097 * era + daysBeforeMarch year := by
  unfold daysBeforeMarch
  omega

theorem daysBeforeMarch_within {year : Int} (hyear : 0 ≤ year ∧ year < 400) :
    0 ≤ daysBeforeMarch year ∧ daysBeforeMarch year ≤ 145731 := by
  unfold daysBeforeMarch
  omega

theorem exists_parts {year : Int} (hyear : 0 ≤ year ∧ year < 400) : ∃ century olympiad rest : Int,
    year = 100 * century + 4 * olympiad + rest ∧ (0 ≤ century ∧ century ≤ 3)
      ∧ (0 ≤ olympiad ∧ olympiad ≤ 24) ∧ (0 ≤ rest ∧ rest ≤ 3) :=
  ⟨year / 100, year % 100 / 4, year % 4, by omega, by omega, by omega, by omega⟩

/-- The year of a day in a cycle of 400 years. -/
theorem yearOfEra_eq {year day n : Int} (hyear : 0 ≤ year ∧ year < 400) (hday : IsOfYear year day)
    (hn : n = daysBeforeMarch year + day) :
    (n - n / 1460 + n / 36524 - n / 146096) / 365 = year := by
  obtain ⟨century, olympiad, rest, rfl, hcentury, holympiad, hrest⟩ := exists_parts hyear
  rw [daysBeforeMarch_parts hcentury holympiad hrest] at hn
  obtain ⟨hnonneg, hle, hleap⟩ := hday
  have hlast : day = 365 → rest = 3 ∧ (olympiad < 24 ∨ century = 3) := by
    intro h
    have := isLeap_iff.mp (hleap h)
    omega
  clear hleap hyear
  have hyears : n / 1460 = 25 * century + olympiad ∨ n / 1460 = 25 * century + olympiad + 1 := by
    omega
  have hcenturies : n / 36524 = century ∨ n / 36524 = century + 1 ∧ n = 146096 := by
    omega
  omega

/-- The date some days after the March of a year. -/
def ofMarchDay (year day : Int) : Date :=
  let fromMarch := (5 * day + 2) / 153
  let month := if fromMarch < 10 then fromMarch + 3 else fromMarch - 9
  ⟨if month ≤ 2 then year + 1 else year, month.toNat, (day - (153 * fromMarch + 2) / 5 + 1).toNat⟩

/-- A number of days falls into a year from March. -/
theorem ofDays_eq {day : Int} (hday : IsOfYear year day) :
    ofDays (daysBeforeMarch year + day - 719468) = ofMarchDay year day := by
  obtain ⟨era, y, rfl, hy⟩ : ∃ era y : Int, year = 400 * era + y ∧ (0 ≤ y ∧ y < 400) :=
    ⟨year / 400, year % 400, by omega, by omega⟩
  have hofYear : IsOfYear y day := ⟨hday.nonneg, hday.le, fun h => by
    have := isLeap_iff.mp (hday.leap h)
    rw [isLeap_iff]
    omega⟩
  have hyear := yearOfEra_eq hy hofYear rfl
  have hera : (146097 * era + daysBeforeMarch y + day) / 146097 = era := by
    have hcycle := daysBeforeMarch_within hy
    have hnonneg := hday.nonneg
    have hle := hday.le
    omega
  have hrest : 146097 * era + daysBeforeMarch y + day - era * 146097 = daysBeforeMarch y + day := by
    omega
  have hdayOfYear : daysBeforeMarch y + day - (365 * y + y / 4 - y / 100) = day := by
    unfold daysBeforeMarch
    omega
  unfold ofDays
  simp only [Int.sub_add_cancel, daysBeforeMarch_cycle, fdiv_ofNat, hera, hrest, hyear, hdayOfYear]
  rw [Int.add_comm y, Int.mul_comm era]
  rfl

/-- The months from March are found from the days. -/
theorem fromMarch_eq (h : d.IsProper) : (5 * d.marchDay + 2) / 153 = ((d.month : Int) + 9) % 12 := by
  obtain ⟨year, month, day⟩ := d
  obtain ⟨hmonth, hmonth', hday, hday'⟩ := isProper_mk.mp h
  simp only [marchDay]
  interval_cases month <;> simp only [daysInMonth] at hday' <;> try omega
  · split at hday' <;> omega

theorem isOfYear_marchDay (h : d.IsProper) : IsOfYear d.marchYear d.marchDay := by
  obtain ⟨year, month, day⟩ := d
  obtain ⟨hmonth, hmonth', hday, hday'⟩ := isProper_mk.mp h
  have hyear : month = 2 → marchYear ⟨year, month, day⟩ + 1 = year := by
    simp +contextual [marchYear]
  -- Only in February the days may come to 365.
  have hdays : 0 ≤ marchDay ⟨year, month, day⟩ ∧ marchDay ⟨year, month, day⟩ ≤ 365
      ∧ (marchDay ⟨year, month, day⟩ = 365 → month = 2 ∧ day = 29) := by
    simp only [marchDay]
    interval_cases month <;> simp only [daysInMonth] at hday' <;> try omega
    · split at hday' <;> omega
  refine ⟨hdays.1, hdays.2.1, fun hlast => ?_⟩
  obtain ⟨rfl, rfl⟩ := hdays.2.2 hlast
  rw [hyear rfl]
  by_contra hleap
  rw [daysInMonth_february, if_neg hleap] at hday'
  omega

theorem ofMarchDay_marchDay (h : d.IsProper) : ofMarchDay d.marchYear d.marchDay = d := by
  have hmonth := h.month_pos
  have hmonth' := h.month_le
  have hday := h.day_pos
  unfold ofMarchDay
  rw [fromMarch_eq h]
  obtain ⟨year, month, day⟩ := d
  simp only [marchYear, marchDay, mk.injEq]
  dsimp only at hmonth hmonth' hday
  refine ⟨?_, ?_, ?_⟩
  · split <;> split <;> omega
  · split <;> omega
  · omega

/-- **A date is found from its days.** -/
theorem ofDays_toDays (h : d.IsProper) : ofDays d.toDays = d := by
  rw [toDays_eq, ofDays_eq (isOfYear_marchDay h), ofMarchDay_marchDay h]

theorem toDays_inj (hd : d.IsProper) (he : e.IsProper) : d.toDays = e.toDays ↔ d = e :=
  ⟨fun h => by rw [← ofDays_toDays hd, h, ofDays_toDays he], fun h => h ▸ rfl⟩

theorem isLeap_cycle (era year : Int) : isLeap (400 * era + year) = isLeap year := by
  rw [Bool.eq_iff_iff, isLeap_iff, isLeap_iff]
  omega

theorem daysInMonth_cycle (era year : Int) (month : Nat) :
    daysInMonth (400 * era + year) month = daysInMonth year month := by
  unfold daysInMonth
  rw [isLeap_cycle]

theorem toDays_cycle (era : Int) (d : Date) :
    toDays ⟨400 * era + d.year, d.month, d.day⟩ = 146097 * era + d.toDays := by
  have hyear : marchYear ⟨400 * era + d.year, d.month, d.day⟩ = 400 * era + d.marchYear := by
    simp only [marchYear]
    split <;> omega
  rw [toDays_eq, toDays_eq, hyear, daysBeforeMarch_cycle]
  simp only [marchDay]
  omega

/-- Counting days on from 1970-01-01. -/
theorem exists_toDays_eq_natCast (n : Nat) : ∃ d : Date, d.IsProper ∧ d.toDays = n := by
  induction n with
  | zero => exact ⟨⟨1970, 1, 1⟩, isProper_mk.mpr (by decide), rfl⟩
  | succ n ih =>
    obtain ⟨d, hd, hdays⟩ := ih
    exact ⟨d.next, hd.next, by rw [toDays_next hd, hdays, Int.natCast_succ]⟩

/-- **Every number of days is a date's.** -/
theorem exists_toDays_eq (n : Int) : ∃ d : Date, d.IsProper ∧ d.toDays = n := by
  -- Before 1970, the date is that of the same day of a later cycle.
  obtain ⟨d, hd, hdays⟩ := exists_toDays_eq_natCast (n % 146097).toNat
  refine ⟨⟨400 * (n / 146097) + d.year, d.month, d.day⟩, isProper_mk.mpr ?_, ?_⟩
  · rw [daysInMonth_cycle]
    exact ⟨hd.month_pos, hd.month_le, hd.day_pos, hd.day_le⟩
  · rw [toDays_cycle, hdays]
    omega

theorem isProper_ofDays (n : Int) : (ofDays n).IsProper := by
  obtain ⟨d, hd, rfl⟩ := exists_toDays_eq n
  rwa [ofDays_toDays hd]

/-- **Days are found from their date.** -/
theorem toDays_ofDays (n : Int) : (ofDays n).toDays = n := by
  obtain ⟨d, hd, rfl⟩ := exists_toDays_eq n
  rw [ofDays_toDays hd]

/-! ## Dates within reach -/

theorem toDays_newYear (year : Int) :
    toDays ⟨year, 1, 1⟩ = daysBeforeMarch (year - 1) + 306 - 719468 := by
  simp [toDays_eq, marchYear, marchDay]

theorem toDays_newYear_mono {a b : Int} (h : a ≤ b) : toDays ⟨a, 1, 1⟩ ≤ toDays ⟨b, 1, 1⟩ := by
  rw [toDays_newYear, toDays_newYear]
  unfold daysBeforeMarch
  omega

/-- A year from March is not over on one of its days. -/
theorem IsOfYear.lt {day : Int} (h : IsOfYear year day) :
    daysBeforeMarch year + day < daysBeforeMarch (year + 1) := by
  obtain ⟨-, hle, hleap⟩ := h
  rw [daysBeforeMarch_succ]
  split
  · omega
  · next hno =>
    have hne : day ≠ 365 := fun hlast => hno (hleap hlast)
    omega

/-- A date lies between two new years. -/
theorem toDays_within (h : d.IsProper) :
    toDays ⟨d.year, 1, 1⟩ ≤ d.toDays ∧ d.toDays < toDays ⟨d.year + 1, 1, 1⟩ := by
  have hmonth := fromMarch_eq h
  have hpos := h.month_pos
  have hle := h.month_le
  have hyear := isOfYear_marchDay h
  have hlt := hyear.lt
  have hnonneg := hyear.nonneg
  rw [toDays_newYear, toDays_newYear, toDays_eq, Int.add_sub_cancel]
  by_cases hbefore : d.month ≤ 2
  · rw [marchYear, if_pos hbefore, Int.sub_add_cancel] at hlt
    rw [marchYear, if_pos hbefore]
    have hmarch : ((d.month : Int) + 9) % 12 = d.month + 9 := by omega
    omega
  · have hsucc := daysBeforeMarch_succ (d.year - 1)
    rw [Int.sub_add_cancel] at hsucc
    rw [marchYear, if_neg hbefore]
    split at hsucc <;> omega

theorem toDays_lt_newYear_iff (h : d.IsProper) : d.toDays < toDays ⟨year, 1, 1⟩ ↔ d.year < year := by
  obtain ⟨hlow, hhigh⟩ := toDays_within h
  constructor
  · intro hlt
    by_contra hle
    exact absurd hlow (by have := toDays_newYear_mono (Int.not_lt.mp hle); omega)
  · intro hlt
    exact Int.lt_of_lt_of_le hhigh (toDays_newYear_mono hlt)

/-- The dates within reach are those of a range of days. -/
theorem isValid_iff_toDays (h : d.IsProper) : d.isValid = true
    ↔ toDays ⟨minYear, 1, 1⟩ ≤ d.toDays ∧ d.toDays < toDays ⟨maxYear, 12, 31⟩ + 1 := by
  have hlast : toDays ⟨maxYear, 12, 31⟩ + 1 = toDays ⟨maxYear + 1, 1, 1⟩ := by decide
  rw [isValid_iff, hlast, toDays_lt_newYear_iff h, Int.lt_add_one_iff, ← Int.not_lt (b := minYear),
    ← toDays_lt_newYear_iff h, Int.not_lt, and_iff_right h]

/-- A date has a day after it within reach unless it is the last one. -/
theorem isValid_next_iff (h : d.isValid = true) :
    d.next.isValid = true ↔ d ≠ ⟨maxYear, 12, 31⟩ := by
  have hproper := (isValid_iff.mp h).1
  have hlast : IsProper ⟨maxYear, 12, 31⟩ := isProper_mk.mpr (by decide)
  obtain ⟨hlow, hhigh⟩ := (isValid_iff_toDays hproper).mp h
  rw [isValid_iff_toDays hproper.next, toDays_next hproper, ne_eq, ← toDays_inj hproper hlast]
  omega

end Date

/-! ## Instants and their dates -/

namespace Instant

variable {t : Instant} {d : Date} {nanos : Int}

/-- A number of nanoseconds from 1970 that is an instant. -/
def InReach (nanos : Int) : Prop :=
  first ≤ nanos ∧ nanos < bound

theorem ofNanos?_eq_some_iff : ofNanos? nanos = some t ↔ InReach nanos ∧ t = ⟨nanos⟩ := by
  simp only [ofNanos?, Option.ite_none_right_eq_some, Bool.and_eq_true, decide_eq_true_eq,
    Option.some.injEq, InReach, eq_comm (a := t)]

theorem day_eq : day = 86400000000000 :=
  rfl

theorem startOf_next (h : d.IsProper) : (startOf d.next).nanos = (startOf d).nanos + day := by
  rw [startOf, startOf, Date.toDays_next h, Int.add_mul, Int.one_mul]

theorem eq_iff_nanos {s : Instant} : t.nanos = s.nanos ↔ t = s := by
  rw [mk.injEq]

/-- **An instant has a date if it comes after the start of the date and before the start of the next.** -/
theorem date_eq_iff (h : d.IsProper) : t.date = d ↔ startOf d ≤ t ∧ t < startOf d.next := by
  have hdays : t.date = d ↔ t.nanos / day = d.toDays := by
    rw [date, Int.fdiv_eq_ediv_of_nonneg _ (by decide), ← Date.toDays_inj (Date.isProper_ofDays _) h,
      Date.toDays_ofDays]
  show _ ↔ d.toDays * day ≤ t.nanos ∧ t.nanos < d.next.toDays * day
  rw [hdays, Date.toDays_next h, day_eq]
  omega

/-- The start of a date is within reach if the date is. -/
theorem inReach_startOf (h : d.IsProper) : InReach (startOf d).nanos ↔ d.isValid = true := by
  rw [Date.isValid_iff_toDays h, InReach, startOf, first, bound, day_eq]
  dsimp only
  omega

/-- The start of a date is of that date. -/
theorem date_startOf (h : d.IsProper) : (startOf d).date = d := by
  rw [date_eq_iff h]
  show (startOf d).nanos ≤ (startOf d).nanos ∧ (startOf d).nanos < (startOf d.next).nanos
  rw [startOf_next h, day_eq]
  omega

/-- A day after the start of a date, the next date starts, if there is one within reach. -/
theorem later?_day (h : d.IsProper) : (startOf d).later? day
    = if d.next.isValid then some (startOf d.next) else none := by
  rw [later?, ← startOf_next h]
  split
  · next hvalid =>
    exact ofNanos?_eq_some_iff.mpr ⟨(inReach_startOf h.next).mpr hvalid, rfl⟩
  · next hvalid =>
    rw [Option.eq_none_iff_forall_ne_some]
    intro later hlater
    exact hvalid ((inReach_startOf h.next).mp (ofNanos?_eq_some_iff.mp hlater).1)

end Instant

end TagSearch
