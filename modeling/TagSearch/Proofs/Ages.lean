import Mathlib.Data.List.TakeWhile
import TagSearch.Proofs.Calendar
import TagSearch.Proofs.Numerals
import TagSearch.Proofs.Ranges
import TagSearch.Query.Change

/-!
# Ranges of ages

An age is a number of some unit, and a search for ages is answered by instants. Reading an age
multiplies in 64 bits, and comes to a result exactly if the age is not too long in exact arithmetic
(`Age.read?_eq_some_iff`), since no number on the way is larger than the milliseconds that must fit in
the end (`Age.fitsInt64_of_mem_computed`). The older an age, the earlier its instant, so that turning
the comparisons round is all there is to do (`Range.holds_flip_map`).

Main statement: `readAgeRange_elapsed`.
-/

namespace TagSearch

open Text Number

/-! ## Products in 64 bits -/

namespace Number

variable {n product : Int} {factors : List Int}

theorem fitsInt64_of_le (hlow : 0 ≤ n) (hhigh : n ≤ maxInt64) : fitsInt64 n = true := by
  rw [fitsInt64, Bool.and_eq_true, decide_eq_true_eq, decide_eq_true_eq]
  exact ⟨Int.le_trans (by decide) hlow, hhigh⟩

theorem times?_eq_some_iff {a b : Int} :
    times? a b = some product ↔ fitsInt64 (a * b) = true ∧ product = a * b := by
  rw [times?, Option.filter_some, Option.ite_none_right_eq_some, Option.some.injEq,
    eq_comm (a := product)]

/-- The products of a number with factors, one after the other. -/
def products (n : Int) : List Int → List Int
  | [] => [n]
  | factor :: factors => n :: products (n * factor) factors

theorem mem_products_self (n : Int) (factors : List Int) : n ∈ products n factors := by
  cases factors <;> simp [products]

/-- A product that is computed is exact. -/
theorem eq_foldl_of_foldlM_times? (h : factors.foldlM times? n = some product) :
    product = factors.foldl (· * ·) n := by
  induction factors generalizing n with
  | nil => exact (Option.some.inj h).symm
  | cons factor factors ih =>
    rw [List.foldlM_cons] at h
    obtain ⟨next, hnext, h⟩ := Option.bind_eq_some_iff.mp h
    rw [List.foldl_cons, ← (times?_eq_some_iff.mp hnext).2]
    exact ih h

/-- Products that fit are computed. -/
theorem foldlM_times?_of_fits (h : ∀ step ∈ products n factors, fitsInt64 step = true) :
    factors.foldlM times? n = some (factors.foldl (· * ·) n) := by
  induction factors generalizing n with
  | nil => rfl
  | cons factor factors ih =>
    rw [products, List.forall_mem_cons] at h
    rw [List.foldlM_cons,
      times?_eq_some_iff.mpr ⟨h.2 _ (mem_products_self (n * factor) factors), rfl⟩]
    exact ih h.2

/-- The products on the way are at most the last one. -/
theorem le_foldl_of_mem_products (hn : 0 ≤ n) (hfactors : ∀ factor ∈ factors, 1 ≤ factor)
    {step : Int} (hstep : step ∈ products n factors) : n ≤ step ∧ step ≤ factors.foldl (· * ·) n := by
  induction factors generalizing n step with
  | nil =>
    obtain rfl : step = n := List.mem_singleton.mp hstep
    exact ⟨Int.le_refl _, Int.le_refl _⟩
  | cons factor factors ih =>
    rw [List.forall_mem_cons] at hfactors
    have hle : n ≤ n * factor := by
      simpa using Int.mul_le_mul_of_nonneg_left hfactors.1 hn
    have hnext := Int.le_trans hn hle
    rw [List.foldl_cons]
    rcases List.mem_cons.mp hstep with rfl | hstep
    · have hlast := ih hnext hfactors.2 (mem_products_self _ factors)
      exact ⟨Int.le_refl _, Int.le_trans hle hlast.2⟩
    · have hlast := ih hnext hfactors.2 hstep
      exact ⟨Int.le_trans hle hlast.1, hlast.2⟩

end Number

/-! ## Ages -/

namespace Age

variable {t unit : Text} {seconds each : Int}

/-- The units of ages in lowercase, with their seconds. A number without a unit counts days. -/
def units : List (Text × Int) :=
  [(['s'], 1), (['m', 'i'], 60), (['h'], 60 * 60), (['d'], 24 * 60 * 60), ([], 24 * 60 * 60),
    (['w'], 7 * 24 * 60 * 60), (['m', 'o'], 30 * 24 * 60 * 60), (['y'], 365 * 24 * 60 * 60)]

/-- A text is an age of some seconds: digits and a unit in any case, which make no longer age than
there is. -/
def Denotes (t : Text) (seconds : Int) : Prop :=
  ∃ digits unit each, t = digits ++ unit ∧ digits ≠ [] ∧ (∀ c ∈ digits, isDigit c = true)
    ∧ (asciiLowercase unit, each) ∈ units ∧ seconds = natOfDigits digits * each
    ∧ seconds ≤ maxSeconds

/-- The numbers that are computed of an age: the one that is written, its products with the factors
of the unit, and the milliseconds. -/
def computed (number : Int) (factors : List Int) : List Int :=
  products number factors ++ [factors.foldl (· * ·) number * 1000]

theorem one_le_of_unitFactors? {factors : List Int} (h : unitFactors? unit = some factors) :
    ∀ factor ∈ factors, 1 ≤ factor := by
  unfold unitFactors? at h
  split at h <;> first | (cases h; decide) | simp at h

/-- The factors of a unit make its seconds. -/
theorem mem_units_iff : (unit, each) ∈ units
    ↔ ∃ factors, unitFactors? unit = some factors ∧ each = factors.foldl (· * ·) 1 := by
  constructor
  · intro h
    simp only [units, List.mem_cons, List.not_mem_nil, or_false, Prod.mk.injEq] at h
    rcases h with ⟨rfl, rfl⟩ | ⟨rfl, rfl⟩ | ⟨rfl, rfl⟩ | ⟨rfl, rfl⟩ | ⟨rfl, rfl⟩ | ⟨rfl, rfl⟩
      | ⟨rfl, rfl⟩ | ⟨rfl, rfl⟩ <;> exact ⟨_, rfl, by decide⟩
  · rintro ⟨factors, h, rfl⟩
    unfold unitFactors? at h
    split at h <;> first | (cases h; decide) | simp at h

theorem foldl_mul (n : Int) (factors : List Int) :
    factors.foldl (· * ·) n = n * factors.foldl (· * ·) 1 := by
  induction factors generalizing n with
  | nil => simp
  | cons factor factors ih =>
    rw [List.foldl_cons, List.foldl_cons, ih, ih (1 * factor), Int.one_mul, Int.mul_assoc]

theorem toLower_of_isDigit {c : Char} (h : isDigit c = true) : c.toLower = c :=
  of_isDigit (P := fun c => c.toLower = c) (by decide) h

/-- No unit starts with a digit. -/
theorem isDigit_head_unit {c : Char} {rest : Text}
    (h : (asciiLowercase (c :: rest), each) ∈ units) : isDigit c = false := by
  have hunits : units.all (fun u => u.1.head?.all (!isDigit ·)) = true := by decide
  have hlower := List.all_eq_true.mp hunits _ h
  cases hc : isDigit c with
  | false => rfl
  | true => simp [asciiLowercase, toLower_of_isDigit hc, hc] at hlower

/-- The digits of an age end where its unit starts. -/
theorem span_digits {digits : Text} (hdigits : ∀ c ∈ digits, isDigit c = true)
    (hunit : (asciiLowercase unit, each) ∈ units) :
    (digits ++ unit).takeWhile isDigit = digits ∧ (digits ++ unit).dropWhile isDigit = unit := by
  rw [List.takeWhile_append_of_pos hdigits, List.dropWhile_append_of_pos hdigits]
  cases unit with
  | nil => simp
  | cons c rest => simp [isDigit_head_unit hunit]

theorem readInt?_digits {digits : Text} (hne : digits ≠ []) (h : ∀ c ∈ digits, isDigit c = true) :
    readInt? digits = (some (natOfDigits digits : Int)).filter fitsInt64 := by
  rw [readInt?, readSigned?_eq_some_iff.mpr (.bare ⟨hne, h⟩)]

theorem digits_of_readInt? {n : Int} (hdigits : ∀ c ∈ t, isDigit c = true)
    (h : readInt? t = some n) : t ≠ [] ∧ n = natOfDigits t := by
  rcases (readInt?_eq_some_iff.mp h).1 with ⟨hrow⟩ | _ | _
  · exact ⟨hrow.ne_nil, rfl⟩
  · exact absurd (hdigits '+' List.mem_cons_self) (by decide)
  · exact absurd (hdigits '-' List.mem_cons_self) (by decide)

/-- **No number that is computed of an age is too large:** the milliseconds are the largest. -/
theorem fitsInt64_of_mem_computed {number : Int} {factors : List Int} (hnumber : 0 ≤ number)
    (hfactors : ∀ factor ∈ factors, 1 ≤ factor)
    (hmax : factors.foldl (· * ·) number ≤ maxSeconds) {n : Int}
    (hn : n ∈ computed number factors) : fitsInt64 n = true := by
  have hproduct := le_foldl_of_mem_products hnumber hfactors (mem_products_self number factors)
  simp only [maxSeconds, maxInt64] at hmax
  rcases List.mem_append.mp hn with hn | hn
  · have hle := le_foldl_of_mem_products hnumber hfactors hn
    exact fitsInt64_of_le (by omega) (by simp only [maxInt64]; omega)
  · rw [List.mem_singleton.mp hn]
    exact fitsInt64_of_le (by omega) (by simp only [maxInt64]; omega)

/-- What an age denotes is what its number and the factors of its unit make. -/
theorem denotes_iff : Denotes t seconds ↔ ∃ factors, t.takeWhile isDigit ≠ []
    ∧ unitFactors? (asciiLowercase (t.dropWhile isDigit)) = some factors
    ∧ seconds = factors.foldl (· * ·) (natOfDigits (t.takeWhile isDigit) : Int)
    ∧ seconds ≤ maxSeconds := by
  constructor
  · rintro ⟨digits, unit, each, rfl, hne, hdigits, hunit, rfl, hmax⟩
    obtain ⟨htake, hdrop⟩ := span_digits hdigits hunit
    obtain ⟨factors, hfactors, rfl⟩ := mem_units_iff.mp hunit
    rw [htake, hdrop]
    exact ⟨factors, hne, hfactors, (foldl_mul _ factors).symm, hmax⟩
  · rintro ⟨factors, hne, hfactors, rfl, hmax⟩
    exact ⟨t.takeWhile isDigit, t.dropWhile isDigit, factors.foldl (· * ·) 1,
      List.takeWhile_append_dropWhile.symm, hne, fun c hc => List.mem_takeWhile_imp hc,
      mem_units_iff.mpr ⟨factors, hfactors, rfl⟩, foldl_mul _ factors, hmax⟩

/-- **What is computed of an age fits into 64 bits,** at every step. -/
theorem fitsInt64_of_denotes (h : Denotes t seconds) : ∃ number factors,
    readInt? (t.takeWhile isDigit) = some number
      ∧ unitFactors? (asciiLowercase (t.dropWhile isDigit)) = some factors
      ∧ seconds = factors.foldl (· * ·) number ∧ seconds ≤ maxSeconds
      ∧ ∀ n ∈ computed number factors, fitsInt64 n = true := by
  obtain ⟨factors, hne, hfactors, hseconds, hmax⟩ := denotes_iff.mp h
  have hfits := fun n => fitsInt64_of_mem_computed (n := n) (Int.natCast_nonneg _)
    (one_le_of_unitFactors? hfactors) (hseconds ▸ hmax)
  refine ⟨_, factors, ?_, hfactors, hseconds, hmax, hfits⟩
  rw [readInt?_digits hne fun c hc => List.mem_takeWhile_imp hc, Option.filter_some,
    if_pos (hfits _ (List.mem_append_left _ (mem_products_self _ factors)))]

/-- **Reading in 64 bits comes to what an age denotes, and to nothing else.** -/
theorem read?_eq_some_iff : read? t = some seconds ↔ Denotes t seconds := by
  simp only [read?, Option.bind_eq_bind, Option.bind_eq_some_iff, Option.ite_none_right_eq_some,
    Option.some.injEq]
  constructor
  · rintro ⟨number, hnumber, factors, hfactors, product, hproduct, hmax, rfl⟩
    obtain ⟨hne, rfl⟩ := digits_of_readInt? (fun c hc => List.mem_takeWhile_imp hc) hnumber
    exact denotes_iff.mpr ⟨factors, hne, hfactors, eq_foldl_of_foldlM_times? hproduct, hmax⟩
  · intro h
    obtain ⟨number, factors, hnumber, hfactors, rfl, hmax, hfits⟩ := fitsInt64_of_denotes h
    exact ⟨number, hnumber, factors, hfactors, _, foldlM_times?_of_fits fun step hstep =>
      hfits step (List.mem_append_left _ hstep), hmax, rfl⟩

end Age

/-! ## Instants -/

namespace Instant

variable {t earlier : Instant} {nanos : Int}

theorem earlier?_of_inReach (h : InReach (t.nanos - nanos)) :
    t.earlier? nanos = some ⟨t.nanos - nanos⟩ :=
  ofNanos?_eq_some_iff.mpr ⟨h, rfl⟩

theorem earlier?_of_not_inReach (h : ¬ InReach (t.nanos - nanos)) : t.earlier? nanos = none := by
  cases hearlier : t.earlier? nanos with
  | none => rfl
  | some earlier => exact absurd (ofNanos?_eq_some_iff.mp hearlier).1 h

/-- What time has passed since an instant is within a range exactly if the instant is within the
range turned round. -/
theorem holds_flip_since (now t : Instant) (range : Range Int) :
    (range.map fun nanos => (⟨now.nanos - nanos⟩ : Instant)).flip.holds t
      ↔ range.holds (now.nanos - t.nanos) := by
  have ht : t = ⟨now.nanos - (now.nanos - t.nanos)⟩ := by
    obtain ⟨nanos⟩ := t
    rw [Instant.mk.injEq]
    show nanos = now.nanos - (now.nanos - nanos)
    omega
  conv_lhs => rw [ht]
  refine Range.holds_flip_map (fun a b => ?_) (fun a b => ?_) (fun a b => ?_) _ range
  · rw [Instant.mk.injEq]
    omega
  · show now.nanos - a ≤ now.nanos - b ↔ b ≤ a
    omega
  · show now.nanos - a < now.nanos - b ↔ b < a
    omega

end Instant

section Reading

open Instant

variable {now : Instant} {value : Text} {ages : Range Int}

theorem read?_ages : Range.read? Age.read? value = some ages ↔ Range.Written Age.Denotes value ages := by
  have hage : (fun t seconds => Age.read? t = some seconds) = Age.Denotes := by
    funext t seconds
    exact propext Age.read?_eq_some_iff
  rw [Range.read?_eq_some_iff, hage]

/-- Ages that are read are answered by instants in reach, with the comparisons turned round. -/
theorem readAgeRange_of_read? (h : Range.read? Age.read? value = some ages) :
    Value.readAgeRange now value
      = (Value.orReason .ageOutOfRange (ages.map? fun age => now.earlier? (age * second))).map
          Range.flip := by
  rw [Value.readAgeRange, h]
  rfl

theorem readAgeRange_of_written (h : Range.Written Age.Denotes value ages)
    (hreach : ∀ age ∈ ages.bounds, InReach (now.nanos - age * second)) :
    Value.readAgeRange now value
      = .ok ((ages.map (· * second)).map fun nanos => (⟨now.nanos - nanos⟩ : Instant)).flip := by
  have hinstants : ages.map? (fun age => now.earlier? (age * second))
      = some (ages.map fun age => ⟨now.nanos - age * second⟩) :=
    Range.map?_eq_some fun age hage => earlier?_of_inReach (hreach age hage)
  rw [readAgeRange_of_read? (read?_ages.mpr h), hinstants, Range.map_map]
  rfl

theorem readAgeRange_of_not_inReach (h : Range.Written Age.Denotes value ages) {age : Int}
    (hage : age ∈ ages.bounds) (hreach : ¬ InReach (now.nanos - age * second)) :
    Value.readAgeRange now value = .error .ageOutOfRange := by
  have hinstants : ages.map? (fun age => now.earlier? (age * second)) = none :=
    Range.map?_eq_none hage (earlier?_of_not_inReach hreach)
  rw [readAgeRange_of_read? (read?_ages.mpr h), hinstants]
  rfl

theorem readAgeRange_of_not_written (h : ¬ ∃ ages, Range.Written Age.Denotes value ages) :
    Value.readAgeRange now value = .error .notAge := by
  cases hread : Range.read? Age.read? value with
  | none =>
    rw [Value.readAgeRange, hread]
    rfl
  | some ages => exact absurd ⟨ages, read?_ages.mp hread⟩ h

end Reading

/-- **A range of ages is answered by the instants that have such an age.** If the value is written as
a range of ages and the instants of its bounds are in reach, then the answer is a range of instants in
reach that holds for those, and only those, since which a time within the range of ages has passed.
In every other case it is the error that names the metatag and the value, with the reason. What is
computed of an age fits into 64 bits at every step, and is what the age denotes. -/
theorem readAgeRange_elapsed (m : Metatag) (now : Instant) (value : Text) :
    (∀ ages, Range.Written Age.Denotes value ages →
        (∀ age ∈ ages.bounds, Instant.InReach (now.nanos - age * Instant.second)) →
        ∃ range, Compiler.coerced m value (Value.readAgeRange now value) = .ok range
          ∧ (∀ bound ∈ range.bounds, Instant.InReach bound.nanos)
          ∧ ∀ t : Instant,
            range.holds t ↔ (ages.map (· * Instant.second)).holds (now.nanos - t.nanos))
      ∧ (∀ ages, Range.Written Age.Denotes value ages →
          (∃ age ∈ ages.bounds, ¬ Instant.InReach (now.nanos - age * Instant.second)) →
          Compiler.coerced m value (Value.readAgeRange now value)
            = .error (.invalidValue m.name.toList value .ageOutOfRange))
      ∧ ((¬ ∃ ages, Range.Written Age.Denotes value ages) →
          Compiler.coerced m value (Value.readAgeRange now value)
            = .error (.invalidValue m.name.toList value .notAge))
      ∧ ∀ age seconds, (Age.read? age = some seconds ↔ Age.Denotes age seconds)
        ∧ (Age.Denotes age seconds → ∃ number factors,
            readInt? (age.takeWhile isDigit) = some number
              ∧ Age.unitFactors? (asciiLowercase (age.dropWhile isDigit)) = some factors
              ∧ seconds = factors.foldl (· * ·) number ∧ seconds ≤ Age.maxSeconds
              ∧ ∀ n ∈ Age.computed number factors, fitsInt64 n = true) := by
  refine ⟨fun ages h hreach => ?_, fun ages h ⟨age, hage, hreach⟩ => ?_, fun h => ?_,
    fun age seconds => ⟨Age.read?_eq_some_iff, Age.fitsInt64_of_denotes⟩⟩
  · refine ⟨_, by rw [readAgeRange_of_written h hreach]; rfl, fun bound hbound => ?_,
      fun t => Instant.holds_flip_since now t (ages.map (· * Instant.second))⟩
    rw [Range.mem_bounds_flip, Range.map_map, Range.bounds_map] at hbound
    obtain ⟨age, hage, rfl⟩ := List.mem_map.mp hbound
    exact hreach age hage
  · rw [readAgeRange_of_not_inReach h hage hreach]
    rfl
  · rw [readAgeRange_of_not_written h]
    rfl

/-- Noon of a day in June. -/
def noon : Instant := ⟨1718452800 * Instant.second⟩

/-- From two hours to a week; as many seconds as there are, which lead out of reach; and no unit. -/
theorem readAgeRange_elapsed_noon :
    Range.Written Age.Denotes "2h .. 1W".toList (.between 7200 604800)
      ∧ (∃ range, Compiler.coerced .age "2h .. 1W".toList
            (Value.readAgeRange noon "2h .. 1W".toList) = .ok range
          ∧ ∀ t : Instant, range.holds t
            ↔ 7200 * Instant.second ≤ noon.nanos - t.nanos
              ∧ noon.nanos - t.nanos ≤ 604800 * Instant.second)
      ∧ Compiler.coerced .age "<9223372036854775s".toList
          (Value.readAgeRange noon "<9223372036854775s".toList)
        = .error (.invalidValue "age".toList "<9223372036854775s".toList .ageOutOfRange)
      ∧ Compiler.coerced .age "9223372036854776s".toList
          (Value.readAgeRange noon "9223372036854776s".toList)
        = .error (.invalidValue "age".toList "9223372036854776s".toList .notAge) := by
  have hhours : Range.Written Age.Denotes "2h .. 1W".toList (.between 7200 604800) :=
    read?_ages.mp (by decide)
  have hlong : Range.Written Age.Denotes "<9223372036854775s".toList (.lt 9223372036854775) :=
    read?_ages.mp (by decide)
  have hlonger : ¬ ∃ ages, Range.Written Age.Denotes "9223372036854776s".toList ages := by
    rintro ⟨ages, hages⟩
    have hnone : Range.read? Age.read? "9223372036854776s".toList = none := by decide
    exact Option.some_ne_none _ ((read?_ages.mpr hages).symm.trans hnone)
  refine ⟨hhours, ?_, ?_, ?_⟩
  · obtain ⟨range, hrange, -, hholds⟩ :=
      (readAgeRange_elapsed .age noon "2h .. 1W".toList).1 _ hhours (by
        simp only [Range.bounds, List.forall_mem_cons, Instant.InReach]
        decide)
    exact ⟨range, hrange, hholds⟩
  · refine (readAgeRange_elapsed .age noon "<9223372036854775s".toList).2.1 _ hlong
      ⟨_, List.mem_singleton_self _, ?_⟩
    simp only [Instant.InReach]
    decide
  · exact (readAgeRange_elapsed .age noon "9223372036854776s".toList).2.2.1 hlonger

end TagSearch
