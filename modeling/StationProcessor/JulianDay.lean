import StationProcessor.TimePrint

/-!
# Julian days and dates

`ST_CnvJulToCal2` finds the date of a day that `_julday2` counted. `ST_Julian` and
`ST_CnvJulToCal` of `lib/dcc_time` have the same bodies as these two.
-/

namespace StationProcessor

open Gregorian

/-- `_dmsize`, with the days of February in that year. -/
def dmsize (year : ℤ) : List ℤ :=
  [31, if tleap year then 29 else 28, 31, 30, 31, 30, 31, 31, 30, 31, 30, 31]

/-- `ST_CnvJulToCal2`: the year, the month, the day and the day of the year, each stored in a
`WORD`. The quotients of the source are floating point numbers; for the days of the years it is
made for none of them is as near to an integer as their rounding error. -/
def stCnvJulToCal2 (injul : ℤ) : ℤ × ℤ × ℤ × ℤ :=
  let jdu := injul - 1720982
  let y1 := (100 * jdu - 12210).tdiv 36525
  let a := (36525 * y1).tdiv 100
  let m1 := (10000 * (jdu - a)).tdiv 306001
  let b := (306001 * m1).tdiv 10000
  let d := jdu - a - b
  let m := if m1 = 14 ∨ m1 = 15 then m1 - 13 else m1 - 1
  let y := if m > 2 then y1 else y1 + 1
  (toShort y, toShort m, toShort d, toShort (d + ((dmsize y).take (m - 1).toNat).sum))

/-! ### Back to the date -/

/-- `monprime`, which counts the months from March on. -/
def monprime (m : ℤ) : ℤ := if m = 1 ∨ m = 2 then m + 13 else m + 1

/-- `yearprime`, the year in which the last March was. -/
def yearprime (y m : ℤ) : ℤ := if m = 1 ∨ m = 2 then y - 1 else y

/-- The days before a month since March, and `122`. -/
def daysBefore (m : ℤ) : ℤ := 306001 * monprime m / 10000

variable {y m d : ℤ}

lemma julday2_eq_daysBefore (hy : 1901 ≤ y) (hm : 1 ≤ m ∧ m ≤ 12) :
    julday2 y m d = d + 1720982 + 36525 * yearprime y m / 100 + daysBefore m := by
  have hmon : 0 ≤ 306001 * monprime m := by
    unfold monprime
    split_ifs <;> omega
  have hyear : 0 ≤ 36525 * yearprime y m := by
    unfold yearprime
    split_ifs <;> omega
  simp only [julday2]
  rw [daysBefore, ← Int.tdiv_eq_ediv_of_nonneg hmon, ← Int.tdiv_eq_ediv_of_nonneg hyear]
  rfl

lemma day_le_31 (h : IsMonthDay y m d) : d ≤ 31 := by
  have hle := h.le_length
  simp only [monthLength] at hle
  split_ifs at hle <;> linarith

/-- The months for which the routines are made, from January 1901 to February 2100. -/
def Accurate (y m : ℤ) : Prop := 1901 ≤ y ∧ (y ≤ 2099 ∨ y = 2100 ∧ m ≤ 2)

/-- The days since March are those of at most one year, which is the leap year if there are 366. -/
lemma days_since_march (hy : Accurate y m) (h : IsMonthDay y m d) :
    100 * (daysBefore m + d) < 48735 + 36525 * yearprime y m % 100 ∧ 123 ≤ daysBefore m + d := by
  obtain ⟨⟨hlow, hhigh⟩, hone, hle⟩ := h
  have hleap : IsLeap y → y ≤ 2099 ∧ 4 ∣ y := by
    have hrange := hy.2
    simp only [IsLeap]
    omega
  have hfirst := hy.1
  simp only [monthLength] at hle
  by_cases hy4 : IsLeap y
  · have hfour := hleap hy4
    simp only [hy4, if_true] at hle
    interval_cases m <;> simp [daysBefore, monprime, yearprime] at hle ⊢ <;> omega
  · simp only [hy4, if_false] at hle
    interval_cases m <;> simp [daysBefore, monprime, yearprime] at hle ⊢ <;> omega

/-- The day of the year, by the table of the months. -/
lemma sum_dmsize (hm : 1 ≤ m ∧ m ≤ 12) (y d : ℤ) :
    d + ((dmsize y).take (m - 1).toNat).sum = dayOfYear y m d := by
  have hfebruary : (if tleap y then 29 else 28 : ℤ) = 28 + leapDay y := by
    simp only [leapDay, tleap_iff]
    split_ifs <;> rfl
  rw [dayOfYear_of_month hm]
  obtain ⟨hlow, hhigh⟩ := hm
  simp only [dmsize, hfebruary]
  interval_cases m <;> simp <;> ring

/-- The month, by the quotient with the mean length of a month. -/
lemma month_quotient (h : IsMonthDay y m d) :
    10000 * (d + daysBefore m) / 306001 = monprime m := by
  obtain ⟨⟨hlow, hhigh⟩, hone, hle⟩ := h
  have hfebruary : monthLength y 2 ≤ 29 := by
    rw [monthLength_two]
    linarith [leapDay_mem y]
  interval_cases m <;> simp only [daysBefore, monprime] at * <;>
    simp [monthLength] at hle ⊢ <;> omega

lemma month_of_monprime (hm : 1 ≤ m ∧ m ≤ 12) :
    (if monprime m = 14 ∨ monprime m = 15 then monprime m - 13 else monprime m - 1) = m := by
  unfold monprime
  split_ifs <;> omega

lemma year_of_yearprime (y m : ℤ) (hm : 1 ≤ m) :
    (if m > 2 then yearprime y m else yearprime y m + 1) = y := by
  unfold yearprime
  split_ifs <;> omega

/-- `ST_CnvJulToCal2` gives back the date of the Julian day. -/
lemma stCnvJulToCal2_julday2 (hy : Accurate y m) (h : IsMonthDay y m d) :
    stCnvJulToCal2 (julday2 y m d) = (y, m, d, dayOfYear y m d) := by
  have ⟨hhigh, hlow⟩ := days_since_march hy h
  have hm := h.month
  have hquotient := month_quotient h
  have hfirst := hy.1
  have hyears : y ≤ 2100 := by
    rcases hy.2 with h | h
    · linarith
    · exact h.1.le
  have hprime : yearprime y m = y - 1 ∨ yearprime y m = y := by
    unfold yearprime
    split_ifs <;> simp
  have hmonths : 0 ≤ monprime m := by
    unfold monprime
    split_ifs <;> linarith
  have hjdu : julday2 y m d - 1720982 = d + 36525 * yearprime y m / 100 + daysBefore m := by
    rw [julday2_eq_daysBefore hy.1 hm]
    ring
  -- the days since March are too few for another year
  have hyear : (100 * (d + 36525 * yearprime y m / 100 + daysBefore m) - 12210).tdiv 36525
      = yearprime y m := by
    rw [Int.tdiv_eq_ediv_of_nonneg (by omega)]
    omega
  have ha : (36525 * yearprime y m).tdiv 100 = 36525 * yearprime y m / 100 :=
    Int.tdiv_eq_ediv_of_nonneg (by omega)
  have hrest : d + 36525 * yearprime y m / 100 + daysBefore m - 36525 * yearprime y m / 100
      = d + daysBefore m := by ring
  have hmonth : (10000 * (d + daysBefore m)).tdiv 306001 = monprime m := by
    rw [Int.tdiv_eq_ediv_of_nonneg (by omega), hquotient]
  have hb : (306001 * monprime m).tdiv 10000 = daysBefore m :=
    Int.tdiv_eq_ediv_of_nonneg (by linarith)
  have hd : d + daysBefore m - daysBefore m = d := by ring
  have hdays := day_le_31 h
  have hdate := h.isDate
  have hlength : yearLength y ≤ 366 := by
    rcases yearLength_cases y with ⟨-, h⟩ | ⟨-, h⟩ <;> linarith
  simp only [stCnvJulToCal2, hjdu, hyear, ha, hrest, hmonth, hb, hd, month_of_monprime hm,
    year_of_yearprime y m hm.1, sum_dmsize hm]
  rw [toShort_of_small (by linarith) (by linarith), toShort_of_small (by linarith) (by linarith),
    toShort_of_small (by linarith [h.one_le]) (by linarith),
    toShort_of_small (by linarith [hdate.one_le]) (by linarith [hdate.le_length])]

/-- The days of the years up to a February, and of the year that it is in. -/
lemma days_of_year (hy : 1901 ≤ y ∧ y ≤ 2099) :
    36525 * y / 100 = 36525 * (y - 1) / 100 + 365 + leapDay y := by
  have hquarter : ∀ z : ℤ, 36525 * z / 100 = 365 * z + z / 4 := fun z => by omega
  have hleap : IsLeap y ↔ y % 4 = 0 := by
    simp only [IsLeap]
    omega
  simp only [hquarter, leapDay, hleap]
  split_ifs <;> omega

/-- The Julian day by the month and by the day of the year. -/
lemma julday2_dayOfYear (hy : Accurate y m) (hm : 1 ≤ m ∧ m ≤ 12) (d : ℤ) :
    julday2 y 1 (dayOfYear y m d) = julday2 y m d := by
  rw [julday2_eq_daysBefore hy.1 hm, julday2_eq_daysBefore hy.1 (by norm_num),
    dayOfYear_of_month hm]
  rcases hy.2 with hyears | ⟨-, hmonth⟩
  · have hyear := days_of_year ⟨hy.1, hyears⟩
    obtain ⟨hlow, hhigh⟩ := hm
    interval_cases m <;> simp [daysBefore, monprime, yearprime, hyear] <;> ring
  · obtain ⟨hlow, hhigh⟩ := hm
    interval_cases m
    · simp [daysBefore, monprime, yearprime]
    · simp [daysBefore, monprime, yearprime]
      ring

/-! ### Dates and times of day -/

/-- A date by its month, and a time of day to the second. -/
structure CalTime where
  year : ℤ
  month : ℤ
  day : ℤ
  hour : ℤ
  minute : ℤ
  second : ℤ
deriving DecidableEq

structure CalTime.Valid (t : CalTime) : Prop where
  date : IsMonthDay t.year t.month t.day
  hour : 0 ≤ t.hour ∧ t.hour < 24
  minute : 0 ≤ t.minute ∧ t.minute < 60
  second : 0 ≤ t.second ∧ t.second < 60

/-- The place of a time on the axis of tenth-milliseconds. -/
def CalTime.place (t : CalTime) : ℤ :=
  dayNumber t.year (dayOfYear t.year t.month t.day) * 864000000 + t.hour * 36000000
    + t.minute * 600000 + t.second * 10000

/-- The date of a valid time, as `ST_CnvJulToCal2` gives it. -/
lemma StdTime2.Valid.exists_date {t : StdTime2} (ht : t.Valid) (hfirst : 1901 ≤ t.year)
    (hlast : t.place < yearPlace 2100 + 59 * 864000000) :
    ∃ m e, IsMonthDay t.year m e ∧ dayOfYear t.year m e = t.day ∧
      stCnvJulToCal2 (julday2 t.year 1 t.day) = (t.year, m, e, t.day) := by
  obtain ⟨m, e, hmonthDay, hday⟩ := ht.date.exists_monthDay
  have hm := hmonthDay.month
  have hyear : t.year < 2101 := by
    refine (ht.year_lt_iff 2101).mpr (hlast.trans_le ?_)
    decide
  have haccurate : Accurate t.year m := by
    refine ⟨hfirst, ?_⟩
    by_cases hcentury : t.year ≤ 2099
    · exact .inl hcentury
    · have hlater : t.year = 2100 := by omega
      have hdays : t.day ≤ 59 := by
        have htime := ht.timeOfDay_mem.1
        simp only [StdTime2.place, yearPlace, dayNumber, hlater] at hlast
        omega
      have hleap : leapDay 2100 = 0 := by decide
      rw [← hday, hlater, dayOfYear_of_month hm, hleap] at hdays
      have hone := hmonthDay.one_le
      refine .inr ⟨hlater, ?_⟩
      obtain ⟨hlow, hhigh⟩ := hm
      interval_cases m <;> simp at hdays ⊢ <;> linarith
  refine ⟨m, e, hmonthDay, hday, ?_⟩
  rw [← hday, julday2_dayOfYear haccurate hm, stCnvJulToCal2_julday2 haccurate hmonthDay]

end StationProcessor
