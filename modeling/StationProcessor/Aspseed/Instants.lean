import StationProcessor.Aspseed.Stdtime
import StationProcessor.Calendar

/-!
# Which instants a `stdtime` keeps

`YearMonthDay2Doy` leaves February with 29 days after its first leap year. `Normalize` keeps of a
fraction what is below a tenth of a second, and its years follow the rule of `isLeapYear`.
-/

namespace StationProcessor

open Gregorian

/-! ### The array of the months -/

/-- The array before and after the first leap year. -/
def monthTable (leapSeen : Bool) : List ℤ :=
  [0, 31, if leapSeen then 29 else 28, 31, 30, 31, 30, 31, 31, 30, 31, 30, 31]

/-- The year whose months a construction counts. -/
def StdtimeCall.doyYear : StdtimeCall → Option ℤ
  | .empty => none
  | .ofDay .. => none
  | .ofMonth year .. => some year
  | .ofStrings date time =>
    if hasFormat date 10 47 4 7 ∧ hasFormat time 8 58 2 5 then some (valueOf (date.take 4))
      else none

/-- One of the constructions was of a date in a leap year. -/
def leapSeen (earlier : List StdtimeCall) : Bool := earlier.any fun c => c.doyYear.any isLeapYear

/-- How far the day of a year is off in a month, with February as it is in the array. -/
def doyError (leapSeen : Bool) (year month : ℤ) : ℤ :=
  if 2 < month then (if leapSeen then 1 else 0) - (if IsLeap year then 1 else 0) else 0

section Months

variable {seen : Bool} {year month day : ℤ}

lemma monthTable_set (seen : Bool) : (monthTable seen).set 2 29 = monthTable true := by
  cases seen <;> rfl

lemma doy_table (seen : Bool) (year month day : ℤ) :
    (yearMonthDay2Doy (monthTable seen) year month day).1
      = monthTable (seen || isLeapYear year) := by
  unfold yearMonthDay2Doy
  cases isLeapYear year <;> simp [monthTable_set]

/-- The day of the year, by the calendar but for the days of February. -/
lemma doy_day (hmonth : 1 ≤ month ∧ month ≤ 12) (seen : Bool) :
    (yearMonthDay2Doy (monthTable seen) year month day).2
      = dayOfYear year month day + doyError (seen || isLeapYear year) year month := by
  have htable := doy_table seen year month day
  unfold yearMonthDay2Doy at htable ⊢
  dsimp only at htable ⊢
  rw [htable]
  generalize (seen || isLeapYear year) = feb
  rw [dayOfYear_of_month hmonth, doyError, ← leapDay]
  obtain ⟨hlow, hhigh⟩ := hmonth
  cases feb <;> interval_cases month <;> simp [monthTable] <;> ring

lemma run_table (c : StdtimeCall) (seen : Bool) :
    c.run (monthTable seen) = monthTable (seen || c.doyYear.any isLeapYear) := by
  cases c with
  | empty => simp [StdtimeCall.run, StdtimeCall.doyYear]
  | ofDay => simp [StdtimeCall.run, StdtimeCall.doyYear]
  | ofMonth year month dom hour minute second tenthMsec =>
    simp only [StdtimeCall.run, stdtimeOfMonth, StdtimeCall.doyYear, Option.any_some]
    exact doy_table seen year month dom
  | ofStrings date time =>
    simp only [StdtimeCall.run, stdtimeOfStrings, StdtimeCall.doyYear]
    split_ifs with hformat
    · exact doy_table seen (valueOf (date.take 4)) (valueOf ((date.drop 5).take 2))
        (valueOf ((date.drop 8).take 2))
    · simp

/-- After any constructions the array only says whether a leap year was among them. -/
lemma table_earlier (earlier : List StdtimeCall) :
    earlier.foldl StdtimeCall.run initDaysInMonth = monthTable (leapSeen earlier) := by
  have hfold : ∀ seen, earlier.foldl StdtimeCall.run (monthTable seen)
      = monthTable (seen || leapSeen earlier) := by
    induction earlier with
    | nil => simp [leapSeen]
    | cons c rest ih =>
      intro seen
      rw [List.foldl_cons, run_table, ih]
      simp [leapSeen, Bool.or_assoc]
  exact hfold false

end Months

/-! ### The years of `Normalize` -/

/-- The number of days `Normalize` gives a year. -/
def javaYearLength (year : ℤ) : ℤ := if isLeapYear year then 366 else 365

/-- The years that end before a day are those of the calendar, and years of a `short`. -/
def YearsRight (year n : ℤ) : Prop :=
  ∀ y, year ≤ y → yearStart y + javaYearLength y < n → (isLeapYear y = true ↔ IsLeap y) ∧ y < 32767

section Years

variable {fuel : ℕ} {year iDay : ℤ}

lemma isLeapYear_iff (y : ℤ) :
    isLeapYear y = true ↔ y % 4 = 0 ∧ y % 100 ≠ 0 ∨ y % 1000 = 0 := by
  simp [isLeapYear]

/-- The two rules differ at most in every second century. -/
lemma leap_differ {y : ℤ} (h : ¬ (isLeapYear y = true ↔ IsLeap y)) : y % 200 = 0 := by
  rw [isLeapYear_iff, IsLeap] at h
  omega

lemma javaYearLength_cases (y : ℤ) :
    isLeapYear y = true ∧ javaYearLength y = 366 ∨
      isLeapYear y = false ∧ javaYearLength y = 365 := by
  cases h : isLeapYear y <;> simp [javaYearLength, h]

lemma javaYearLength_eq_iff (y : ℤ) :
    javaYearLength y = yearLength y ↔ (isLeapYear y = true ↔ IsLeap y) := by
  unfold javaYearLength yearLength
  by_cases hjava : isLeapYear y = true <;> by_cases hleap : IsLeap y <;> simp [hjava, hleap]

lemma yearsPast_succ (fuel : ℕ) (year iDay : ℤ) : yearsPast (fuel + 1) year iDay =
    if javaYearLength year < iDay then
      yearsPast fuel (toShort (year + 1)) (iDay - javaYearLength year)
    else (year, iDay) := by
  rcases javaYearLength_cases year with ⟨hjava, hlen⟩ | ⟨hjava, hlen⟩
  · simp [yearsPast, hjava, hlen]
  · have hpast : (iDay > 366 ∨ iDay > 365) ↔ 365 < iDay := by omega
    simp [yearsPast, hjava, hlen, hpast]

/-- A day of the year is left alone. -/
lemma yearsPast_of_le (fuel : ℕ) (h : iDay ≤ javaYearLength year) :
    yearsPast fuel year iDay = (year, iDay) := by
  cases fuel with
  | zero => rfl
  | succ fuel => rw [yearsPast_succ, if_neg (not_lt.mpr h)]

lemma toShort_succ {year : ℤ} (hlow : -32768 ≤ year) (hhigh : year < 32767) :
    toShort (year + 1) = year + 1 :=
  Int.bmod_eq_of_le_mul_two (by norm_num; linarith) (by norm_num; linarith)

/-- The day that is left is one of the year, or the day the loop began with. -/
lemma yearsPast_day (hfuel : iDay ≤ 365 * fuel) :
    (yearsPast fuel year iDay).2 ≤ 366 ∧
      ((yearsPast fuel year iDay).2 = iDay ∨ 1 ≤ (yearsPast fuel year iDay).2) := by
  induction fuel generalizing year iDay with
  | zero =>
    push_cast at hfuel
    exact ⟨by simp only [yearsPast]; linarith, Or.inl rfl⟩
  | succ fuel ih =>
    rw [yearsPast_succ]
    push_cast at hfuel
    have hlen := javaYearLength_cases year
    split_ifs with hpast
    · have ⟨hle, hday⟩ := @ih (toShort (year + 1)) (iDay - javaYearLength year) (by omega)
      refine ⟨hle, Or.inr ?_⟩
      rcases hday with hday | hday
      · rw [hday]
        linarith
      · exact hday
    · exact ⟨by dsimp only; omega, Or.inl rfl⟩

/-- Over years of the right length the day meant stays the same. -/
lemma yearsPast_right (hyear : -32768 ≤ year) (hright : YearsRight year (dayNumber year iDay)) :
    dayNumber (yearsPast fuel year iDay).1 (yearsPast fuel year iDay).2 = dayNumber year iDay := by
  induction fuel generalizing year iDay with
  | zero => rfl
  | succ fuel ih =>
    rw [yearsPast_succ]
    split_ifs with hpast
    · obtain ⟨hleap, hshort⟩ := hright year le_rfl (by simp only [dayNumber]; linarith)
      have hlen := (javaYearLength_eq_iff year).mpr hleap
      have hnext : dayNumber (year + 1) (iDay - javaYearLength year) = dayNumber year iDay := by
        simp only [dayNumber, yearStart_succ, hlen]
        ring
      rw [toShort_succ hyear hshort, ih (by linarith) ?_, hnext]
      rw [hnext]
      exact fun y hy => hright y (by linarith)
    · rfl

lemma yearStart_add_le {y y' : ℤ} (h : y ≤ y') : yearStart y + 365 * (y' - y) ≤ yearStart y' := by
  induction y', h using Int.leInduction with
  | base => linarith
  | succ n hn ih =>
    have hlen := yearLength_ge n
    rw [yearStart_succ]
    linarith

/-- Over years of the right length the loop comes to every year the day goes beyond. -/
lemma yearsPast_reach {last : ℤ} (hlow : -32768 ≤ year) (hle : year ≤ last)
    (hright : ∀ y, year ≤ y → y < last → (isLeapYear y = true ↔ IsLeap y) ∧ y < 32767)
    (hday : yearStart last < dayNumber year iDay) (hfuel : iDay < 365 * fuel) :
    ∃ fuel' : ℕ, dayNumber year iDay - yearStart last < 365 * fuel' ∧
      yearsPast fuel year iDay = yearsPast fuel' last (dayNumber year iDay - yearStart last) := by
  induction fuel generalizing year iDay with
  | zero =>
    have hstart := yearStart_add_le hle
    push_cast at hfuel
    simp only [dayNumber] at hday
    exact absurd hday (by linarith)
  | succ fuel ih =>
    rcases hle.eq_or_lt with rfl | hlt
    · refine ⟨fuel + 1, ?_, ?_⟩
      · simpa [dayNumber] using hfuel
      · simp [dayNumber]
    · obtain ⟨hleap, hshort⟩ := hright year le_rfl hlt
      have hlen := (javaYearLength_eq_iff year).mpr hleap
      have hnext : dayNumber (year + 1) (iDay - javaYearLength year) = dayNumber year iDay := by
        simp only [dayNumber, yearStart_succ, hlen]
        ring
      have hpast : javaYearLength year < iDay := by
        have hend := yearStart_add_length_le hlt
        simp only [dayNumber] at hday
        linarith
      have hge := yearLength_ge year
      push_cast at hfuel
      obtain ⟨fuel', hfuel', heq⟩ := @ih (year + 1) (iDay - javaYearLength year) (by linarith) hlt
        (fun y hy => hright y (by linarith)) (by rw [hnext]; exact hday) (by linarith)
      rw [hnext] at hfuel' heq
      exact ⟨fuel', hfuel', by rw [yearsPast_succ, if_pos hpast, toShort_succ hlow hshort, heq]⟩

/-- Within a century after a year of the wrong length, and within one from the first year of a
`short`, no other year is wrong. -/
lemma yearsRight_of_near {first n : ℤ} (hnear : n ≤ yearStart first + 33000)
    (hright : ∀ y, first ≤ y → y < first + 99 → y % 200 ≠ 0 ∧ y < 32767) : YearsRight first n := by
  intro y hy hpast
  have hlen := javaYearLength_cases y
  have hstart := yearStart_add_le hy
  obtain ⟨hcentury, hshort⟩ := hright y hy (by omega)
  exact ⟨by_contra fun h => hcentury (leap_differ h), hshort⟩

/-- The first year of the wrong length, or the last year of a `short`, moves the day. -/
lemma yearsPast_wrong (hlow : -32768 ≤ year) (hhigh : year ≤ 32767) (hday : iDay ≤ 33000)
    (hfuel : iDay < 365 * fuel) (hwrong : ¬ YearsRight year (dayNumber year iDay)) :
    dayNumber (yearsPast fuel year iDay).1 (yearsPast fuel year iDay).2 ≠ dayNumber year iDay := by
  obtain ⟨last, ⟨hyear, hpast, hbad⟩, hfirst⟩ := Int.exists_least_of_bdd
    (P := fun y => year ≤ y ∧ yearStart y + javaYearLength y < dayNumber year iDay ∧
      ¬ ((isLeapYear y = true ↔ IsLeap y) ∧ y < 32767)) ⟨year, fun y hy => hy.1⟩ (by
        simp only [YearsRight, not_forall] at hwrong
        obtain ⟨y, hy, hn, hbad⟩ := hwrong
        exact ⟨y, hy, hn, hbad⟩)
  have hlen := javaYearLength_cases last
  -- the years before the first wrong one end before the day, so they are right
  have hbefore : ∀ y, year ≤ y → y < last → (isLeapYear y = true ↔ IsLeap y) ∧ y < 32767 := by
    intro y hy hlt
    by_contra hbad'
    refine absurd (hfirst y ⟨hy, ?_, hbad'⟩) (not_le.mpr hlt)
    have hstart := yearStart_add_length_le hlt
    have hge := yearLength_ge y
    have hlen' := javaYearLength_cases y
    omega
  have hlast : last ≤ 32767 := by
    by_contra hgt
    exact absurd (hbefore 32767 hhigh (not_le.mp hgt)).2 (lt_irrefl _)
  obtain ⟨fuel', hfuel', heq⟩ := yearsPast_reach hlow hyear hbefore (by omega) hfuel
  obtain ⟨fuel', rfl⟩ : ∃ k, fuel' = k + 1 := by
    refine Nat.exists_eq_succ_of_ne_zero ?_
    rintro rfl
    push_cast at hfuel'
    omega
  have hremain : dayNumber year iDay - yearStart last ≤ 33000 := by
    have hstart := yearStart_add_le hyear
    simp only [dayNumber]
    linarith
  rw [heq, yearsPast_succ, if_pos (by linarith)]
  rcases hlast.lt_or_eq with hshort | rfl
  · -- a year of the wrong length: the day is off by one from then on
    have hleap : ¬ (isLeapYear last = true ↔ IsLeap last) := fun h => hbad ⟨h, hshort⟩
    have hcentury := leap_differ hleap
    have hne := mt (javaYearLength_eq_iff last).mp hleap
    have hkept := @yearsPast_right fuel' (last + 1)
      (dayNumber year iDay - yearStart last - javaYearLength last) (by linarith) (by
        refine yearsRight_of_near ?_ fun y hy hnear => ⟨by omega, by omega⟩
        simp only [dayNumber] at hremain ⊢
        omega)
    rw [toShort_succ (hlow.trans hyear) hshort, hkept]
    intro h
    apply hne
    simp only [dayNumber, yearStart_succ] at h
    linarith
  · -- the year after the last one of a `short` is the first one
    have hwrap : toShort (32767 + 1) = -32768 := by decide
    have hkept := @yearsPast_right fuel' (-32768)
      (dayNumber year iDay - yearStart 32767 - javaYearLength 32767) le_rfl (by
        refine yearsRight_of_near ?_ fun y hy hnear => ⟨by omega, by linarith⟩
        simp only [dayNumber] at hremain ⊢
        omega)
    rw [hwrap, hkept]
    have hfar := yearStart_add_le (show (-32768 : ℤ) ≤ 32767 by norm_num)
    intro h
    rw [show dayNumber (-32768) (dayNumber year iDay - yearStart 32767 - javaYearLength 32767)
      = yearStart (-32768) + (dayNumber year iDay - yearStart 32767 - javaYearLength 32767)
      from rfl]
      at h
    omega

end Years

/-! ### The instant of a `stdtime` -/

/-- The instant that fields denote, on the axis of tenth-milliseconds. -/
def Stdtime.place (t : Stdtime) : ℤ :=
  dayNumber t.year t.day * 864000000 + t.hour * 36000000 + t.minute * 600000 + t.second * 10000
    + t.tenthMsec

/-- The days that `Normalize` carries out of a time of day. -/
def carriedDays (hour minute second tenthMsec : ℤ) : ℤ :=
  (hour + (minute + (second + tenthMsec.tdiv 10000).tdiv 60).tdiv 60).tdiv 24

/-- Values of the types of the fields. -/
structure Stdtime.InRange (t : Stdtime) : Prop where
  year : -32768 ≤ t.year ∧ t.year ≤ 32767
  day : -32768 ≤ t.day ∧ t.day ≤ 32767
  hour : -128 ≤ t.hour ∧ t.hour ≤ 127
  minute : -128 ≤ t.minute ∧ t.minute ≤ 127
  second : -128 ≤ t.second ∧ t.second ≤ 127
  tenthMsec : -32768 ≤ t.tenthMsec ∧ t.tenthMsec ≤ 32767

/-- No tenth of a second is in the fraction. -/
def FractionKept (tenthMsec : ℤ) : Prop := |tenthMsec.tmod 10000| < 1000

section Instant

variable {t : Stdtime}

/-- The quotient and the remainder of a division that truncates. -/
lemma tdiv_spec (x : ℤ) {k : ℤ} (hk : 0 < k) : x = k * x.tdiv k + x.tmod k ∧
    -k < x.tmod k ∧ x.tmod k < k ∧ (0 ≤ x → 0 ≤ x.tmod k) ∧ (x ≤ 0 → x.tmod k ≤ 0) := by
  refine ⟨(Int.mul_tdiv_add_tmod x k).symm, Int.lt_tmod_of_pos x hk, Int.tmod_lt_of_pos x hk,
    fun h => Int.tmod_nonneg k h, fun h => ?_⟩
  have hneg := Int.tmod_nonneg k (neg_nonneg.mpr h)
  rw [Int.neg_tmod] at hneg
  exact neg_nonneg.mp hneg

lemma toByte_tmod (x : ℤ) {k : ℤ} (h0 : 0 < k) (hk : k ≤ 128) : toByte (x.tmod k) = x.tmod k := by
  have hlow := Int.lt_tmod_of_pos x h0
  have hhigh := Int.tmod_lt_of_pos x h0
  exact Int.bmod_eq_of_le_mul_two (by norm_num; linarith) (by norm_num; linarith)

lemma toShort_of_mem {x : ℤ} (hlow : -32768 ≤ x) (hhigh : x ≤ 32767) : toShort x = x :=
  Int.bmod_eq_of_le_mul_two (by norm_num; linarith) (by norm_num; linarith)

lemma carriedDays_mem (h : t.InRange) :
    -6 ≤ carriedDays t.hour t.minute t.second t.tenthMsec ∧
      carriedDays t.hour t.minute t.second t.tenthMsec ≤ 6 := by
  obtain ⟨-, -, hhour, hminute, hsecond, htenth⟩ := h
  have hsec := tdiv_spec t.tenthMsec (show (0 : ℤ) < 10000 by norm_num)
  have hmin := tdiv_spec (t.second + t.tenthMsec.tdiv 10000) (show (0 : ℤ) < 60 by norm_num)
  have hhours := tdiv_spec (t.minute + (t.second + t.tenthMsec.tdiv 10000).tdiv 60)
    (show (0 : ℤ) < 60 by norm_num)
  have hdays := tdiv_spec
    (t.hour + (t.minute + (t.second + t.tenthMsec.tdiv 10000).tdiv 60).tdiv 60)
    (show (0 : ℤ) < 24 by norm_num)
  simp only [carriedDays]
  omega

/-- A fraction loses what `Normalize` takes for whole tenths of a second. -/
lemma fraction_eq_iff (x : ℤ) : x.tmod 1000 = x.tmod 10000 ↔ FractionKept x := by
  have hdvd : x.tmod 1000 = (x.tmod 10000).tmod 1000 :=
    (Int.tmod_tmod_of_dvd x (by norm_num)).symm
  have hspec := tdiv_spec (x.tmod 10000) (show (0 : ℤ) < 1000 by norm_num)
  rw [hdvd, FractionKept, abs_lt]
  omega

/-- What `Normalize` does to the instant: the years may move the day, and the fraction may shrink.
-/
lemma normalize_place (t : Stdtime) (valid : Bool) :
    let iDay := t.day + carriedDays t.hour t.minute t.second t.tenthMsec
    let date := yearsPast (iDay.toNat / 365 + 1) t.year iDay
    ({ t.normalize with validDate := valid } : Stdtime).place - t.place
      = (dayNumber date.1 (toShort date.2) - dayNumber t.year iDay) * 864000000
        + (t.tenthMsec.tmod 1000 - t.tenthMsec.tmod 10000) := by
  intro iDay date
  have htenth := tdiv_spec t.tenthMsec (show (0 : ℤ) < 10000 by norm_num)
  have hsec := tdiv_spec (t.second + t.tenthMsec.tdiv 10000) (show (0 : ℤ) < 60 by norm_num)
  have hmin := tdiv_spec (t.minute + (t.second + t.tenthMsec.tdiv 10000).tdiv 60)
    (show (0 : ℤ) < 60 by norm_num)
  have hhour := tdiv_spec
    (t.hour + (t.minute + (t.second + t.tenthMsec.tdiv 10000).tdiv 60).tdiv 60)
    (show (0 : ℤ) < 24 by norm_num)
  have hthousand := tdiv_spec t.tenthMsec (show (0 : ℤ) < 1000 by norm_num)
  have hshort : toShort (t.tenthMsec.tmod 1000) = t.tenthMsec.tmod 1000 :=
    toShort_of_mem (by linarith) (by linarith)
  have hiDay : iDay = t.day
      + (t.hour + (t.minute + (t.second + t.tenthMsec.tdiv 10000).tdiv 60).tdiv 60).tdiv 24 := rfl
  have hnumber : ∀ y d, dayNumber y d = yearStart y + d := fun _ _ => rfl
  simp only [Stdtime.normalize, Stdtime.place, hshort,
    toByte_tmod _ (show (0 : ℤ) < 24 by norm_num),
    toByte_tmod _ (show (0 : ℤ) < 60 by norm_num), show (24 : ℤ) ≤ 128 by norm_num,
    show (60 : ℤ) ≤ 128 by norm_num]
  rw [← hiDay, hnumber t.year, hnumber t.year]
  change _ = (dayNumber date.1 (toShort date.2) - _) * 864000000 + _
  linarith

/-- Days and a fraction of a second do not make up for each other. -/
lemma instant_eq_iff {days x : ℤ} :
    days * 864000000 + (x.tmod 1000 - x.tmod 10000) = 0 ↔ FractionKept x ∧ days = 0 := by
  have hsmall := tdiv_spec x (show (0 : ℤ) < 1000 by norm_num)
  have hlarge := tdiv_spec x (show (0 : ℤ) < 10000 by norm_num)
  rw [← fraction_eq_iff]
  omega

/-- A time built from a year and a day that is off keeps the instant when the years move the day
back. -/
lemma stdtimeOfDay_shift (t : Stdtime) (error : ℤ) :
    let iDay := t.day + error + carriedDays t.hour t.minute t.second t.tenthMsec
    let date := yearsPast (iDay.toNat / 365 + 1) t.year iDay
    (stdtimeOfDay t.year (t.day + error) t.hour t.minute t.second t.tenthMsec).place = t.place ↔
      FractionKept t.tenthMsec ∧ dayNumber date.1 (toShort date.2) + error
        = dayNumber t.year iDay := by
  intro iDay date
  set u : Stdtime := { t with day := t.day + error } with hu
  have hplace : (stdtimeOfDay t.year (t.day + error) t.hour t.minute t.second t.tenthMsec).place
      - u.place = (dayNumber date.1 (toShort date.2) - dayNumber t.year iDay) * 864000000
        + (t.tenthMsec.tmod 1000 - t.tenthMsec.tmod 10000) := normalize_place u true
  have hshift : u.place = t.place + error * 864000000 := by
    simp only [hu, Stdtime.place, dayNumber]
    ring
  have hiff := @instant_eq_iff (dayNumber date.1 (toShort date.2) + error - dayNumber t.year iDay)
    t.tenthMsec
  rw [sub_eq_zero] at hiff
  rw [← hiff]
  constructor
  · intro heq
    rw [heq, hshift] at hplace
    linarith
  · intro hzero
    linarith

/-- When a time built from a year and a day of the year keeps the instant. -/
lemma stdtimeOfDay_iff (h : t.InRange) :
    (stdtimeOfDay t.year t.day t.hour t.minute t.second t.tenthMsec).place = t.place ↔
      FractionKept t.tenthMsec ∧
        -32768 ≤ t.day + carriedDays t.hour t.minute t.second t.tenthMsec ∧
        YearsRight t.year
          (dayNumber t.year (t.day + carriedDays t.hour t.minute t.second t.tenthMsec)) := by
  have hkept := stdtimeOfDay_shift t 0
  have hcarried := carriedDays_mem h
  simp only [add_zero] at hkept
  rw [hkept, and_congr_right_iff]
  intro _
  set iDay := t.day + carriedDays t.hour t.minute t.second t.tenthMsec with hiDay
  have hfuel : iDay < 365 * ((iDay.toNat / 365 + 1 : ℕ) : ℤ) := by omega
  have hdayMem : iDay ≤ 33000 := by linarith [h.day.2]
  obtain ⟨hle, hend⟩ := @yearsPast_day _ t.year iDay hfuel.le
  constructor
  · intro heq
    have hlow : -32768 ≤ iDay := by
      by_contra hlow
      have hlen := javaYearLength_cases t.year
      have hsame := @yearsPast_of_le t.year iDay (iDay.toNat / 365 + 1) (by omega)
      have hwrap : toShort iDay = iDay + 65536 := by
        rw [← toShort_of_mem (show -32768 ≤ iDay + 65536 by linarith [h.day.1]) (by linarith)]
        exact (Int.add_bmod_right iDay 65536).symm
      rw [hsame, hwrap] at heq
      simp only [dayNumber] at heq
      linarith
    refine ⟨hlow, ?_⟩
    by_contra hwrong
    rw [toShort_of_mem (by rcases hend with hend | hend <;> linarith) (by linarith)] at heq
    exact yearsPast_wrong h.year.1 h.year.2 hdayMem hfuel hwrong heq
  · rintro ⟨hlow, hright⟩
    rw [toShort_of_mem (by rcases hend with hend | hend <;> linarith) (by linarith)]
    exact yearsPast_right h.year.1 hright

lemma dayOfYear_mem {year month day : ℤ} (hmonth : 1 ≤ month ∧ month ≤ 12) :
    day ≤ dayOfYear year month day ∧ dayOfYear year month day ≤ day + 335 := by
  have hleap := leapDay_mem year
  rw [dayOfYear_of_month hmonth]
  obtain ⟨hlow, hhigh⟩ := hmonth
  interval_cases month <;> simp <;> omega

/-- A date in months is right if its day of the year is; or, when it runs past the end of the
year, if the year's length makes up for it. -/
def MonthsRight (seen : Bool) (year month dom carried : ℤ) : Prop :=
  let feb := seen || isLeapYear year
  if javaYearLength year < dayOfYear year month dom + doyError feb year month + carried then
    year < 32767 ∧ doyError feb year month = javaYearLength year - yearLength year
  else doyError feb year month = 0

/-- When a time built from a year, a month and a day of the month keeps the instant. -/
lemma stdtimeOfMonth_iff (seen : Bool) {month dom : ℤ} (h : t.InRange)
    (hmonth : 1 ≤ month ∧ month ≤ 12) (hdom : -128 ≤ dom ∧ dom ≤ 127)
    (hday : t.day = dayOfYear t.year month dom) :
    (stdtimeOfMonth (monthTable seen) t.year month dom t.hour t.minute t.second t.tenthMsec).2.place
        = t.place ↔
      FractionKept t.tenthMsec ∧ MonthsRight seen t.year month dom
        (carriedDays t.hour t.minute t.second t.tenthMsec) := by
  have hcarried := carriedDays_mem h
  have hday' := @dayOfYear_mem t.year month dom hmonth
  have hdoy := @doy_day t.year month dom hmonth seen
  simp only [stdtimeOfMonth, hdoy, MonthsRight]
  generalize hfeb : (seen || isLeapYear t.year) = feb
  have herror : -1 ≤ doyError feb t.year month ∧ doyError feb t.year month ≤ 1 := by
    unfold doyError
    split_ifs <;> norm_num
  generalize doyError feb t.year month = error at *
  have hkept := stdtimeOfDay_shift t error
  simp only [hday] at hkept
  rw [toShort_of_mem (by linarith) (by linarith), hkept, and_congr_right_iff]
  intro _
  set iDay := dayOfYear t.year month dom + error
    + carriedDays t.hour t.minute t.second t.tenthMsec with hiDay
  have hlen := javaYearLength_cases t.year
  rw [yearsPast_succ]
  split_ifs with hpast
  · have hnext : yearsPast (iDay.toNat / 365) (toShort (t.year + 1)) (iDay - javaYearLength t.year)
        = (toShort (t.year + 1), iDay - javaYearLength t.year) := by
      have hlen' := javaYearLength_cases (toShort (t.year + 1))
      cases iDay.toNat / 365 with
      | zero => rfl
      | succ fuel => rw [yearsPast_succ, if_neg (by omega)]
    have hrest : toShort (iDay - javaYearLength t.year) = iDay - javaYearLength t.year :=
      toShort_of_mem (by omega) (by omega)
    simp only [hnext, hrest]
    rcases h.year.2.lt_or_eq with hshort | hshort
    · rw [toShort_succ h.year.1 hshort]
      simp only [hshort, true_and, dayNumber, yearStart_succ]
      constructor <;> intro heq <;> linarith
    · have hfar := yearStart_add_le (show (-32768 : ℤ) ≤ 32767 by norm_num)
      have hwrap : toShort (32767 + 1) = -32768 := by decide
      simp only [hshort, hwrap, lt_irrefl, false_and, iff_false, dayNumber] at hlen ⊢
      omega
  · rw [toShort_of_mem (by linarith) (by omega)]
    constructor <;> intro heq <;> linarith

end Instant

end StationProcessor
