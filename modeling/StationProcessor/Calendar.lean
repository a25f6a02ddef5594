import StationProcessor.Lib.Gregorian
import StationProcessor.DccTime

/-!
# Times on the Gregorian calendar

`StdTime2.place` puts a time on an axis of tenth-milliseconds by its date, without the formula of
`_julday2`. `ST_AddToTime2` moves a time along this axis, and `ST_DiffTimes2` measures it for the
years in which `_julday2` is accurate.
-/

namespace StationProcessor

open Gregorian

/-- A time within its ranges: a day of its year and a time of day. -/
structure StdTime2.Valid (t : StdTime2) : Prop where
  date : IsDate t.year t.day
  hour : 0 ≤ t.hour ∧ t.hour < 24
  minute : 0 ≤ t.minute ∧ t.minute < 60
  second : 0 ≤ t.second ∧ t.second < 60
  tenth : 0 ≤ t.tenthMsec ∧ t.tenthMsec < 10000

/-- The years from 1901 to 2099. -/
def StdTime2.InCentury (t : StdTime2) : Prop := 1901 ≤ t.year ∧ t.year ≤ 2099

/-- Tenth-milliseconds since midnight. -/
def StdTime2.timeOfDay (t : StdTime2) : ℤ :=
  t.hour * 36000000 + t.minute * 600000 + t.second * 10000 + t.tenthMsec

/-- The place of a time on the axis of tenth-milliseconds, by the Gregorian calendar. -/
def StdTime2.place (t : StdTime2) : ℤ := dayNumber t.year t.day * 864000000 + t.timeOfDay

/-- The place of the first instant of a year. -/
def yearPlace (y : ℤ) : ℤ := dayNumber y 1 * 864000000

/-! ### Valid times -/

lemma tleap_iff (y : ℤ) : tleap y = true ↔ IsLeap y := by
  simp only [tleap, IsLeap]
  split_ifs <;> simp <;> omega

@[simp] lemma tdays_eq (y : ℤ) : tdays y = yearLength y := by
  simp [tdays, yearLength, tleap_iff]

namespace StdTime2.Valid

variable {t u : StdTime2}

lemma timeOfDay_mem (h : t.Valid) : 0 ≤ t.timeOfDay ∧ t.timeOfDay < 864000000 := by
  obtain ⟨-, ⟨h0, h1⟩, ⟨m0, m1⟩, ⟨s0, s1⟩, ⟨x0, x1⟩⟩ := h
  simp only [StdTime2.timeOfDay]
  constructor <;> linarith

/-- The places of a year are those of its valid times. -/
lemma yearPlace_le_place (h : t.Valid) : yearPlace t.year ≤ t.place := by
  have hday := h.date.one_le
  have htime := h.timeOfDay_mem.1
  simp only [yearPlace, StdTime2.place, dayNumber]
  linarith

lemma place_lt_yearPlace (h : t.Valid) : t.place < yearPlace (t.year + 1) := by
  have hday := h.date.le_length
  have htime := h.timeOfDay_mem.2
  simp only [yearPlace, StdTime2.place, dayNumber, yearStart_succ]
  linarith

end StdTime2.Valid

lemma yearPlace_strictMono : StrictMono yearPlace := by
  intro y y' h
  have := yearStart_strictMono h
  simp only [yearPlace, dayNumber]
  linarith

lemma StdTime2.Valid.year_lt_iff {t : StdTime2} (h : t.Valid) (y : ℤ) :
    t.year < y ↔ t.place < yearPlace y := by
  have hlow := h.yearPlace_le_place
  have hhigh := h.place_lt_yearPlace
  constructor
  · intro hy
    exact hhigh.trans_le (yearPlace_strictMono.monotone hy)
  · intro hplace
    exact yearPlace_strictMono.lt_iff_lt.mp (hlow.trans_lt hplace)

/-- The years of a valid time, by its place. -/
lemma StdTime2.Valid.inCentury_iff {t : StdTime2} (h : t.Valid) :
    t.InCentury ↔ yearPlace 1901 ≤ t.place ∧ t.place < yearPlace 2100 := by
  have hlow := h.year_lt_iff 1901
  have hhigh := h.year_lt_iff 2100
  simp only [StdTime2.InCentury, ← not_lt, ← hlow, ← hhigh]
  omega

/-! ### `_julday2` -/

/-- `_julday2` counts days as the calendar does from 1901 to the first days of 2100. -/
lemma julday2_eq {y : ℤ} (h1 : 1901 ≤ y) (h2 : y ≤ 2100) (d : ℤ) :
    julday2 y 1 d = dayNumber y d + 1721425 := by
  simp only [julday2, dayNumber, yearStart, true_or, if_true]
  rw [Int.tdiv_eq_ediv_of_nonneg (by linarith), Int.tdiv_eq_ediv_of_nonneg (by norm_num)]
  have hquarter : 36525 * (y - 1) / 100 = 365 * (y - 1) + (y - 1) / 4 := by omega
  have hcentury : (y - 1) / 100 - (y - 1) / 400 = 15 := by omega
  have hmonth : (306001 * (1 + 13) / 10000 : ℤ) = 428 := by norm_num
  linarith

lemma instant_eq {t : StdTime2} (h1 : 1901 ≤ t.year) (h2 : t.year ≤ 2100) :
    t.instant = t.place + 1721425 * 864000000 := by
  simp only [StdTime2.instant, StdTime2.place, StdTime2.timeOfDay, julday2_eq h1 h2]
  ring

/-! ### Normalising a date -/

/-- `while (*day >= _tdays(*year))` keeps the day meant and ends within a year. -/
lemma daysUp_spec {fuel : ℕ} {year day : ℤ} (hfuel : day < 365 * fuel) :
    dayNumber (daysUp fuel year day).1 (daysUp fuel year day).2 = dayNumber year day ∧
      (0 ≤ day → 0 ≤ (daysUp fuel year day).2) ∧
      (daysUp fuel year day).2 < yearLength (daysUp fuel year day).1 := by
  induction fuel generalizing year day with
  | zero =>
    have hlen := yearLength_pos year
    push_cast at hfuel
    exact ⟨rfl, id, by simp only [daysUp]; linarith⟩
  | succ fuel ih =>
    simp only [daysUp, tdays_eq]
    split_ifs with hday
    · have hlen := yearLength_ge year
      push_cast at hfuel
      have ⟨hnumber, hnonneg, hend⟩ := @ih (year + 1) (day - yearLength year) (by linarith)
      refine ⟨hnumber.trans ?_, fun _ => hnonneg (by linarith), hend⟩
      simp only [dayNumber, yearStart_succ]
      ring
    · exact ⟨rfl, id, not_le.mp hday⟩

/-- A day before the year's end is left alone. -/
lemma daysUp_of_lt (fuel : ℕ) {year day : ℤ} (h : day < yearLength year) :
    daysUp fuel year day = (year, day) := by
  cases fuel with
  | zero => rfl
  | succ fuel => simp [daysUp, h]

/-- `while (*day < 0)` keeps the day meant and ends within a year. -/
lemma daysDown_spec {fuel : ℕ} {year day : ℤ} (hfuel : -day ≤ 365 * fuel)
    (hday : day < yearLength year) :
    dayNumber (daysDown fuel year day).1 (daysDown fuel year day).2 = dayNumber year day ∧
      0 ≤ (daysDown fuel year day).2 ∧
      (daysDown fuel year day).2 < yearLength (daysDown fuel year day).1 := by
  induction fuel generalizing year day with
  | zero =>
    push_cast at hfuel
    exact ⟨rfl, by simp only [daysDown]; linarith, hday⟩
  | succ fuel ih =>
    simp only [daysDown, tdays_eq]
    split_ifs with hneg
    · have hlen := yearLength_ge (year - 1)
      push_cast at hfuel
      have ⟨hnumber, hnonneg, hend⟩ := @ih (year - 1) (day + yearLength (year - 1))
        (by linarith) (by linarith)
      refine ⟨hnumber.trans ?_, hnonneg, hend⟩
      have hsucc := yearStart_succ (year - 1)
      rw [sub_add_cancel] at hsucc
      simp only [dayNumber]
      linarith
    · exact ⟨rfl, not_lt.mp hneg, hday⟩

/-- A day that is not negative is left alone. -/
lemma daysDown_of_nonneg (fuel : ℕ) {year day : ℤ} (h : 0 ≤ day) :
    daysDown fuel year day = (year, day) := by
  cases fuel with
  | zero => rfl
  | succ fuel => simp [daysDown, h]

/-- The two loops of `timenorm2` find the date that a day of a year denotes. -/
lemma days_spec {fuel : ℕ} {year day : ℤ} (hfuel : |day| < 365 * fuel) :
    ∃ year' day', daysDown fuel (daysUp fuel year day).1 (daysUp fuel year day).2 = (year', day') ∧
      dayNumber year' day' = dayNumber year day ∧ 0 ≤ day' ∧ day' < yearLength year' := by
  obtain ⟨hneg, hpos⟩ := abs_lt.mp hfuel
  refine ⟨_, _, rfl, ?_⟩
  rcases lt_or_ge day 0 with hday | hday
  · have hlen := yearLength_pos year
    rw [daysUp_of_lt fuel (by linarith)]
    exact daysDown_spec (by linarith) (by linarith)
  · have ⟨hnumber, hnonneg, hend⟩ := @daysUp_spec fuel year day hpos
    rw [daysDown_of_nonneg fuel (hnonneg hday)]
    exact ⟨hnumber, hnonneg hday, hend⟩

/-! ### Sums -/

/-- Normalising finds the time at the same place whose fields are in their ranges, the day
counting from 0 in both, and gives it up from year 4000 on. -/
lemma timenorm2_spec (t : StdTime2) :
    ∃ s : StdTime2, StdTime2.Valid { s with day := s.day + 1 } ∧ s.place = t.place ∧
      timenorm2 t = if s.year ≥ 4000 then ⟨0, 1, 0, 0, 0, 0⟩ else s := by
  have hnormal := timenormd2_normal ⟨t.day, t.hour, t.minute, t.second, t.tenthMsec⟩
  have htotal := timenormd2_total ⟨t.day, t.hour, t.minute, t.second, t.tenthMsec⟩
  simp only [timenorm2]
  generalize timenormd2 ⟨t.day, t.hour, t.minute, t.second, t.tenthMsec⟩ = d at *
  obtain ⟨year', day', hdays, hnumber, hnonneg, hend⟩ :=
    @days_spec (d.nday.natAbs / 365 + 1) t.year d.nday (by rw [Int.abs_eq_natAbs]; omega)
  refine ⟨⟨year', day', d.nhour, d.nmin, d.nsec, d.ntenthMsecs⟩, ?_, ?_, by simp only [hdays]⟩
  · exact ⟨⟨by simp only; linarith, hend⟩, hnormal.hour, hnormal.minute, hnormal.second,
      hnormal.tenth⟩
  · simp only [DeltaT2.total] at htotal
    simp only [StdTime2.place, StdTime2.timeOfDay, hnumber]
    simp only [dayNumber]
    linarith

/-- A sum before year 4000 is the valid time at the place of the sum; a later one is lost. -/
lemma stAddToTime2_cases (t : StdTime2) (day hour minute second tenthMsec : ℤ) :
    let sum := t.place + (DeltaT2.mk day hour minute second tenthMsec).total
    ∃ s : StdTime2, s.Valid ∧ s.place = sum ∧
      stAddToTime2 t day hour minute second tenthMsec
        = if sum < yearPlace 4000 then s else ⟨0, 2, 0, 0, 0, 0⟩ := by
  intro sum
  obtain ⟨s, hvalid, hplace, hs⟩ := timenorm2_spec ⟨t.year, t.day + day - 1, t.hour + hour,
    t.minute + minute, t.second + second, t.tenthMsec + tenthMsec⟩
  have hsum : StdTime2.place { s with day := s.day + 1 } = sum := by
    have hnext : StdTime2.place { s with day := s.day + 1 } = s.place + 864000000 := by
      simp only [StdTime2.place, StdTime2.timeOfDay, dayNumber]
      ring
    rw [hnext, hplace]
    simp only [sum, StdTime2.place, StdTime2.timeOfDay, DeltaT2.total, dayNumber]
    ring
  refine ⟨_, hvalid, hsum, ?_⟩
  have hyear := hvalid.year_lt_iff 4000
  rw [hsum] at hyear
  simp only [stAddToTime2, hs, ge_iff_le, ← hyear, ← not_lt, ite_not]
  split_ifs <;> rfl

/-- `ST_AddToTime2` moves a time along the axis and returns a valid time. -/
theorem stAddToTime2_spec (t : StdTime2) (day hour minute second tenthMsec : ℤ)
    (hlt : t.place + (DeltaT2.mk day hour minute second tenthMsec).total < yearPlace 4000) :
    (stAddToTime2 t day hour minute second tenthMsec).Valid ∧
      (stAddToTime2 t day hour minute second tenthMsec).place
        = t.place + (DeltaT2.mk day hour minute second tenthMsec).total := by
  obtain ⟨s, hvalid, hplace, hs⟩ := stAddToTime2_cases t day hour minute second tenthMsec
  rw [hs, if_pos hlt]
  exact ⟨hvalid, hplace⟩

/-- The year of a sum is within 1901 to 2099 exactly when its place is. -/
lemma stAddToTime2_inCentury_iff (t : StdTime2) (day hour minute second tenthMsec : ℤ) :
    (stAddToTime2 t day hour minute second tenthMsec).InCentury ↔
      yearPlace 1901 ≤ t.place + (DeltaT2.mk day hour minute second tenthMsec).total ∧
        t.place + (DeltaT2.mk day hour minute second tenthMsec).total < yearPlace 2100 := by
  obtain ⟨s, hvalid, hplace, hs⟩ := stAddToTime2_cases t day hour minute second tenthMsec
  have hend : yearPlace 2100 < yearPlace 4000 := yearPlace_strictMono (by norm_num)
  rw [hs]
  split_ifs with hlt
  · rw [hvalid.inCentury_iff, hplace]
  · simp only [StdTime2.InCentury]
    constructor
    · rintro ⟨h, -⟩
      norm_num at h
    · rintro ⟨-, h⟩
      exact absurd (h.trans hend) hlt

/-! ### Sums and differences -/

/-- The difference of two times of the century is their distance on the axis. -/
lemma stDiffTimes2_place {a b : StdTime2} (ha : a.InCentury) (hb : b.InCentury) :
    (stDiffTimes2 a b).total = a.place - b.place := by
  rw [stDiffTimes2_total, instant_eq ha.1 (by linarith [ha.2]),
    instant_eq hb.1 (by linarith [hb.2])]
  ring

/-- A normalised span is determined by its length. -/
lemma DeltaT2.Normal.ext {d e : DeltaT2} (hd : d.Normal) (he : e.Normal)
    (h : d.total = e.total) : d = e := by
  obtain ⟨⟨h0, h1⟩, ⟨m0, m1⟩, ⟨s0, s1⟩, ⟨x0, x1⟩⟩ := hd
  obtain ⟨⟨h0', h1'⟩, ⟨m0', m1'⟩, ⟨s0', s1'⟩, ⟨x0', x1'⟩⟩ := he
  cases d
  cases e
  simp only [DeltaT2.total] at *
  rw [DeltaT2.mk.injEq]
  omega

/-- A sum that stays within 1901 to 2099 is a valid time of these years, as far from the time
added to as the offset says, and the difference of the two is the normalised offset. -/
theorem stDiffTimes2_stAddToTime2 {t : StdTime2} (hcentury : t.InCentury)
    (day hour minute second tenthMsec : ℤ)
    (hlow : yearPlace 1901 ≤ t.place + (DeltaT2.mk day hour minute second tenthMsec).total)
    (hhigh : t.place + (DeltaT2.mk day hour minute second tenthMsec).total < yearPlace 2100) :
    (stAddToTime2 t day hour minute second tenthMsec).Valid ∧
      (stAddToTime2 t day hour minute second tenthMsec).InCentury ∧
      (stAddToTime2 t day hour minute second tenthMsec).place
        = t.place + (DeltaT2.mk day hour minute second tenthMsec).total ∧
      stDiffTimes2 (stAddToTime2 t day hour minute second tenthMsec) t
        = timenormd2 ⟨day, hour, minute, second, tenthMsec⟩ := by
  have hend : yearPlace 2100 < yearPlace 4000 := yearPlace_strictMono (by norm_num)
  obtain ⟨hvalid, hplace⟩ := stAddToTime2_spec t day hour minute second tenthMsec
    (hhigh.trans hend)
  have hsum : (stAddToTime2 t day hour minute second tenthMsec).InCentury :=
    hvalid.inCentury_iff.mpr (by rw [hplace]; exact ⟨hlow, hhigh⟩)
  refine ⟨hvalid, hsum, hplace, ?_⟩
  refine (stDiffTimes2_normal _ _).ext (timenormd2_normal _) ?_
  rw [stDiffTimes2_place hsum hcentury, timenormd2_total, hplace]
  ring

theorem stDiffTimes2_stAddToTime2_leapDay :
    (stAddToTime2 ⟨2024, 60, 23, 0, 0, 0⟩ (-366) 30 (-1) 0 (-1)).Valid ∧
      (stAddToTime2 ⟨2024, 60, 23, 0, 0, 0⟩ (-366) 30 (-1) 0 (-1)).InCentury ∧
      (stAddToTime2 ⟨2024, 60, 23, 0, 0, 0⟩ (-366) 30 (-1) 0 (-1)).place
        = (StdTime2.mk 2024 60 23 0 0 0).place + (DeltaT2.mk (-366) 30 (-1) 0 (-1)).total ∧
      stDiffTimes2 (stAddToTime2 ⟨2024, 60, 23, 0, 0, 0⟩ (-366) 30 (-1) 0 (-1))
        ⟨2024, 60, 23, 0, 0, 0⟩ = timenormd2 ⟨-366, 30, -1, 0, -1⟩ :=
  stDiffTimes2_stAddToTime2 ⟨by decide, by decide⟩ _ _ _ _ _ (by decide) (by decide)

end StationProcessor
