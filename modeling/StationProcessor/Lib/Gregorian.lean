import Mathlib.Tactic

/-!
# The Gregorian calendar

Dates as a year and a day of that year, counted from 1, and the number of days between them.
`Gregorian.dayNumber` places a date on one axis of days; on valid dates it is injective and
follows the lexicographic order.
-/

namespace Gregorian

/-- The leap years. -/
def IsLeap (y : ℤ) : Prop := 4 ∣ y ∧ (¬ 100 ∣ y ∨ 400 ∣ y)

instance : DecidablePred IsLeap := fun y =>
  inferInstanceAs (Decidable (4 ∣ y ∧ (¬ 100 ∣ y ∨ 400 ∣ y)))

/-- The number of days of a year. -/
def yearLength (y : ℤ) : ℤ := if IsLeap y then 366 else 365

/-- Days from the first of January of year 1 to the first of January of year `y`. -/
def yearStart (y : ℤ) : ℤ := 365 * (y - 1) + (y - 1) / 4 - (y - 1) / 100 + (y - 1) / 400

/-- The day `d` of the year `y` on the axis of days. -/
def dayNumber (y d : ℤ) : ℤ := yearStart y + d

/-- The year has this day. -/
structure IsDate (y d : ℤ) : Prop where
  one_le : 1 ≤ d
  le_length : d ≤ yearLength y

lemma yearLength_cases (y : ℤ) :
    IsLeap y ∧ yearLength y = 366 ∨ ¬ IsLeap y ∧ yearLength y = 365 := by
  by_cases h : IsLeap y <;> simp [yearLength, h]

lemma yearLength_pos (y : ℤ) : 0 < yearLength y := by
  rcases yearLength_cases y with ⟨-, h⟩ | ⟨-, h⟩ <;> simp [h]

lemma yearLength_ge (y : ℤ) : 365 ≤ yearLength y := by
  rcases yearLength_cases y with ⟨-, h⟩ | ⟨-, h⟩ <;> simp [h]

lemma yearStart_succ (y : ℤ) : yearStart (y + 1) = yearStart y + yearLength y := by
  simp only [yearStart, yearLength, IsLeap]
  split_ifs with h <;> omega

lemma yearStart_strictMono : StrictMono yearStart :=
  strictMono_int_of_lt_succ fun y => by simp [yearStart_succ, yearLength_pos]

/-- A year ends before every later one starts. -/
lemma yearStart_add_length_le {y y' : ℤ} (h : y < y') :
    yearStart y + yearLength y ≤ yearStart y' := by
  rw [← yearStart_succ]
  exact yearStart_strictMono.monotone h

section Dates

variable {y d y' d' : ℤ} (h : IsDate y d) (h' : IsDate y' d')

include h h'

lemma dayNumber_lt_of_year_lt (hy : y < y') : dayNumber y d < dayNumber y' d' := by
  have hyear := yearStart_add_length_le hy
  have hle := h.le_length
  have hone := h'.one_le
  simp only [dayNumber]
  linarith

/-- The order of dates is that of years, then of days. -/
lemma dayNumber_lt_iff : dayNumber y d < dayNumber y' d' ↔ y < y' ∨ y = y' ∧ d < d' := by
  rcases lt_trichotomy y y' with hy | rfl | hy
  · simp [hy, dayNumber_lt_of_year_lt h h' hy]
  · simp [dayNumber]
  · have := dayNumber_lt_of_year_lt h' h hy
    constructor
    · intro hlt
      linarith
    · rintro (hlt | ⟨rfl, -⟩) <;> linarith

lemma dayNumber_inj (heq : dayNumber y d = dayNumber y' d') : y = y' ∧ d = d' := by
  rcases lt_trichotomy y y' with hy | rfl | hy
  · exact absurd heq (dayNumber_lt_of_year_lt h h' hy).ne
  · exact ⟨rfl, by simpa [dayNumber] using heq⟩
  · exact absurd heq.symm (dayNumber_lt_of_year_lt h' h hy).ne

end Dates

/-! ### Months -/

/-- The number of days of a month. -/
def monthLength (y m : ℤ) : ℤ :=
  if m = 2 then if IsLeap y then 29 else 28
  else if m = 4 ∨ m = 6 ∨ m = 9 ∨ m = 11 then 30
  else 31

/-- The day of the year that is the day `d` of the month `m`. -/
def dayOfYear (y m d : ℤ) : ℤ :=
  ((List.range (m - 1).toNat).map fun k => monthLength y (k + 1)).sum + d

/-- The year has this day of this month. -/
structure IsMonthDay (y m d : ℤ) : Prop where
  month : 1 ≤ m ∧ m ≤ 12
  one_le : 1 ≤ d
  le_length : d ≤ monthLength y m

/-- The leap day of a year. -/
def leapDay (y : ℤ) : ℤ := if IsLeap y then 1 else 0

lemma leapDay_mem (y : ℤ) : 0 ≤ leapDay y ∧ leapDay y ≤ 1 := by
  unfold leapDay
  split_ifs <;> norm_num

lemma monthLength_two (y : ℤ) : monthLength y 2 = 28 + leapDay y := by
  simp only [monthLength, leapDay, if_true]
  split_ifs <;> rfl

lemma yearLength_eq (y : ℤ) : yearLength y = 365 + leapDay y := by
  simp only [yearLength, leapDay]
  split_ifs <;> rfl

/-- The days before a month. -/
lemma dayOfYear_of_month {m : ℤ} (hm : 1 ≤ m ∧ m ≤ 12) (y d : ℤ) :
    dayOfYear y m d = [0, 31, 59, 90, 120, 151, 181, 212, 243, 273, 304, 334].getD (m - 1).toNat 0
      + (if 2 < m then leapDay y else 0) + d := by
  have hfebruary := monthLength_two y
  obtain ⟨hlow, hhigh⟩ := hm
  interval_cases m <;> simp [dayOfYear, List.range_succ, hfebruary] <;> simp [monthLength] <;> ring

/-- The days before a month and those of it lie within the year. -/
lemma IsMonthDay.isDate {y m d : ℤ} (h : IsMonthDay y m d) : IsDate y (dayOfYear y m d) := by
  obtain ⟨hm, hone, hle⟩ := h
  have hfebruary := monthLength_two y
  have hleap := leapDay_mem y
  constructor
  · rw [dayOfYear_of_month hm]
    obtain ⟨hlow, hhigh⟩ := hm
    interval_cases m <;> simp <;> linarith
  · rw [dayOfYear_of_month hm, yearLength_eq]
    obtain ⟨hlow, hhigh⟩ := hm
    interval_cases m <;> simp [hfebruary] at hle ⊢ <;>
      first
        | linarith
        | simp [monthLength] at hle; linarith

lemma dayOfYear_eq_add (y m d : ℤ) : dayOfYear y m d = dayOfYear y m 0 + d := by
  simp only [dayOfYear, add_zero]

lemma dayOfYear_succ (y : ℤ) (k : ℕ) :
    dayOfYear y (k + 1 + 1) 0 = dayOfYear y (k + 1) 0 + monthLength y (k + 1) := by
  simp [dayOfYear, List.range_succ]

lemma dayOfYear_thirteen (y : ℤ) : dayOfYear y 13 0 = yearLength y := by
  have hlast := dayOfYear_succ y 11
  norm_num at hlast
  rw [hlast, dayOfYear_of_month (by norm_num), yearLength_eq]
  simp [monthLength]
  ring

/-- Every day of a year is a day of a month. -/
lemma IsDate.exists_monthDay {y d : ℤ} (h : IsDate y d) :
    ∃ m e, IsMonthDay y m e ∧ dayOfYear y m e = d := by
  have hlast : ∃ k : ℕ, d ≤ dayOfYear y (k + 1) 0 := by
    refine ⟨12, ?_⟩
    norm_num [dayOfYear_thirteen, h.le_length]
  -- the first month that does not end before the day
  classical
  obtain ⟨k, hk, hbefore⟩ : ∃ k : ℕ, d ≤ dayOfYear y (k + 1) 0 ∧
      ∀ j < k, ¬ d ≤ dayOfYear y (j + 1) 0 :=
    ⟨Nat.find hlast, Nat.find_spec hlast, fun j hj => Nat.find_min hlast hj⟩
  cases k with
  | zero =>
    have hone := h.one_le
    simp [dayOfYear] at hk
    linarith
  | succ k =>
    have hle : k ≤ 11 := by
      by_contra hgt
      have hnot := hbefore 12 (by omega)
      norm_num [dayOfYear_thirteen] at hnot
      linarith [h.le_length]
    have hmonth := hbefore k (Nat.lt_succ_self k)
    push_cast at hk
    rw [dayOfYear_succ] at hk
    refine ⟨k + 1, d - dayOfYear y (k + 1) 0, ⟨⟨by omega, by omega⟩, by omega, by linarith⟩, ?_⟩
    rw [dayOfYear_eq_add]
    ring

end Gregorian
