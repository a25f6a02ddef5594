import StationProcessor.Aspseed.Instants
import StationProcessor.TimeOrder

/-!
# The duration the Java client asks for

`Transfer` builds the finish and the start from their texts and sends the seconds between them;
`netseed` adds these to the start. The duration is right exactly when the array of the months is
off for both times or for neither, but for two spans that the limits on a duration set right.
-/

namespace StationProcessor

open Gregorian

/-! ### Entered times -/

/-- A valid time of the years 1980 to 2099, as the user enters it. -/
structure EnteredTime where
  year : ℤ
  month : ℤ
  dom : ℤ
  hour : ℤ
  minute : ℤ
  second : ℤ
  years : 1980 ≤ year ∧ year ≤ 2099
  date : IsMonthDay year month dom
  hours : 0 ≤ hour ∧ hour < 24
  minutes : 0 ≤ minute ∧ minute < 60
  seconds : 0 ≤ second ∧ second < 60

/-- The last decimal digit of a number. -/
def lastDigit (n : ℤ) : UInt16 := (48 + (n % 10).toNat).toUInt16

def twoDigits (n : ℤ) : JavaString := [lastDigit (n / 10), lastDigit n]

/-- The text `yyyy/mm/dd`. -/
def EnteredTime.dateText (t : EnteredTime) : JavaString :=
  twoDigits (t.year / 100) ++ twoDigits t.year ++ 47 :: (twoDigits t.month ++ 47 :: twoDigits t.dom)

/-- The text `hh:mm:ss`. -/
def EnteredTime.timeText (t : EnteredTime) : JavaString :=
  twoDigits t.hour ++ 58 :: (twoDigits t.minute ++ 58 :: twoDigits t.second)

/-- The time as `netseed` reads it. -/
def EnteredTime.toStdTime2 (t : EnteredTime) : StdTime2 :=
  ⟨t.year, dayOfYear t.year t.month t.dom, t.hour, t.minute, t.second, 0⟩

/-- Seconds on the Gregorian calendar. -/
def EnteredTime.place (t : EnteredTime) : ℤ :=
  dayNumber t.year (dayOfYear t.year t.month t.dom) * 86400 + t.hour * 3600 + t.minute * 60 +
    t.second

namespace EnteredTime

variable (t : EnteredTime)

lemma toStdTime2_valid : t.toStdTime2.Valid :=
  ⟨t.date.isDate, t.hours, t.minutes, t.seconds, by norm_num [toStdTime2]⟩

lemma toStdTime2_place : t.toStdTime2.place = t.place * 10000 := by
  simp only [StdTime2.place, StdTime2.timeOfDay, toStdTime2, place]
  ring

end EnteredTime

/-! ### Reading the texts -/

section Texts

lemma characterDigit_lastDigit (n : ℤ) : characterDigit (lastDigit n) = some (n % 10) := by
  have hall : ∀ k : ℕ, k < 10 → characterDigit (48 + k).toUInt16 = some (k : ℤ) := by decide +kernel
  have hlow := Int.emod_nonneg n (show (10 : ℤ) ≠ 0 by norm_num)
  have hhigh := Int.emod_lt_of_pos n (show (0 : ℤ) < 10 by norm_num)
  rw [lastDigit, hall _ (by omega), Int.toNat_of_nonneg hlow]

lemma valueOf_twoDigits {n : ℤ} (h0 : 0 ≤ n) (h : n < 100) : valueOf (twoDigits n) = n := by
  simp only [valueOf, twoDigits, List.foldl_cons, List.foldl_nil, characterDigit_lastDigit,
    Option.getD_some]
  omega

lemma valueOf_year {n : ℤ} (h0 : 0 ≤ n) (h : n < 10000) :
    valueOf (twoDigits (n / 100) ++ twoDigits n) = n := by
  simp only [valueOf, twoDigits, List.cons_append, List.nil_append, List.foldl_cons, List.foldl_nil,
    characterDigit_lastDigit, Option.getD_some]
  omega

variable (t : EnteredTime)

lemma hasFormat_dateText : hasFormat t.dateText 10 47 4 7 = true := by
  simp only [hasFormat, decide_eq_true_eq]
  refine ⟨rfl, rfl, rfl, fun i hi h4 h7 => ?_⟩
  interval_cases i <;>
    first
      | contradiction
      | simp [EnteredTime.dateText, twoDigits, characterDigit_lastDigit]

lemma hasFormat_timeText : hasFormat t.timeText 8 58 2 5 = true := by
  simp only [hasFormat, decide_eq_true_eq]
  refine ⟨rfl, rfl, rfl, fun i hi h2 h5 => ?_⟩
  interval_cases i <;>
    first
      | contradiction
      | simp [EnteredTime.timeText, twoDigits, characterDigit_lastDigit]

lemma dom_lt : t.dom < 100 := by
  have hle := t.date.le_length
  unfold monthLength at hle
  split_ifs at hle <;> linarith

/-- The time built from the texts of an entered time. -/
lemma stdtimeOfStrings_entered (seen : Bool) :
    stdtimeOfStrings (monthTable seen) t.dateText t.timeText
      = (monthTable (seen || isLeapYear t.year), stdtimeOfDay t.year
          (toShort (dayOfYear t.year t.month t.dom
            + doyError (seen || isLeapYear t.year) t.year t.month))
            t.hour t.minute t.second 0) := by
  have hyear : valueOf (t.dateText.take 4) = t.year :=
    valueOf_year (by linarith [t.years.1]) (by linarith [t.years.2])
  have hmonth : valueOf ((t.dateText.drop 5).take 2) = t.month :=
    valueOf_twoDigits (by linarith [t.date.month.1]) (by linarith [t.date.month.2])
  have hdom : valueOf ((t.dateText.drop 8).take 2) = t.dom :=
    valueOf_twoDigits (by linarith [t.date.one_le]) (dom_lt t)
  have hhour : valueOf (t.timeText.take 2) = t.hour :=
    valueOf_twoDigits t.hours.1 (by linarith [t.hours.2])
  have hminute : valueOf ((t.timeText.drop 3).take 2) = t.minute :=
    valueOf_twoDigits t.minutes.1 (by linarith [t.minutes.2])
  have hsecond : valueOf ((t.timeText.drop 6).take 2) = t.second :=
    valueOf_twoDigits t.seconds.1 (by linarith [t.seconds.2])
  have htable := doy_table seen t.year t.month t.dom
  have hdoy := @doy_day t.year t.month t.dom t.date.month seen
  simp only [stdtimeOfStrings, hasFormat_dateText, hasFormat_timeText, hyear, hmonth, hdom, hhour,
    hminute, hsecond, htable, hdoy, and_self, if_true]
  rfl

end Texts

/-! ### The built times -/

/-- The array has a leap day too many for the date. -/
def DayOff (seen : Bool) (t : EnteredTime) : Prop := 2 < t.month ∧ seen = true ∧ ¬ IsLeap t.year

instance (seen : Bool) (t : EnteredTime) : Decidable (DayOff seen t) :=
  inferInstanceAs (Decidable (2 < t.month ∧ seen = true ∧ ¬ IsLeap t.year))

section Built

/-- Between 1980 and 2099 the rule of `isLeapYear` is that of the calendar. -/
lemma isLeapYear_entered {y : ℤ} (hlow : 1980 ≤ y) (hhigh : y ≤ 2099) :
    isLeapYear y = true ↔ IsLeap y := by
  by_contra hdiffer
  have hcentury := leap_differ hdiffer
  obtain rfl : y = 2000 := by omega
  exact hdiffer (by decide)

lemma doyError_entered (t : EnteredTime) (seen : Bool) :
    doyError (seen || isLeapYear t.year) t.year t.month = if DayOff seen t then 1 else 0 := by
  have hleap := isLeapYear_entered t.years.1 t.years.2
  by_cases hmonth : 2 < t.month
  · by_cases hyear : IsLeap t.year
    · simp [doyError, DayOff, hmonth, hyear, hleap.mpr hyear]
    · have hjava : isLeapYear t.year = false := by simpa using mt hleap.mp hyear
      cases seen <;> simp [doyError, DayOff, hmonth, hyear, hjava]
  · simp [doyError, DayOff, hmonth]

/-- A time with its fields in their ranges, at the given second of the calendar. -/
structure Stdtime.At (t : Stdtime) (second : ℤ) : Prop where
  years : 1901 ≤ t.year ∧ t.year ≤ 2100
  hours : 0 ≤ t.hour ∧ t.hour < 24
  minutes : 0 ≤ t.minute ∧ t.minute < 60
  seconds : 0 ≤ t.second ∧ t.second < 60
  tenthMsec : t.tenthMsec = 0
  place : dayNumber t.year t.day * 86400 + t.hour * 3600 + t.minute * 60 + t.second = second

/-- The time that is built is a day late when the array is off. -/
lemma built_at (t : EnteredTime) (seen : Bool) :
    (stdtimeOfStrings (monthTable seen) t.dateText t.timeText).2.At
      (t.place + if DayOff seen t then 86400 else 0) := by
  have hleap := isLeapYear_entered t.years.1 t.years.2
  have hdate := t.date.isDate
  have hday : 1 ≤ dayOfYear t.year t.month t.dom + (if DayOff seen t then 1 else 0) ∧
      dayOfYear t.year t.month t.dom + (if DayOff seen t then 1 else 0) ≤ 366 := by
    have hlen := yearLength_cases t.year
    have hone := hdate.one_le
    have hle := hdate.le_length
    split_ifs with hoff
    · rcases hlen with ⟨hyear, -⟩ | ⟨-, hlen⟩
      · exact absurd hyear hoff.2.2
      · constructor <;> linarith
    · omega
  have hplace : dayNumber t.year (dayOfYear t.year t.month t.dom + if DayOff seen t then 1 else 0)
      * 86400 + t.hour * 3600 + t.minute * 60 + t.second
        = t.place + if DayOff seen t then 86400 else 0 := by
    simp only [EnteredTime.place, dayNumber]
    split_ifs <;> ring
  rw [stdtimeOfStrings_entered, doyError_entered, ← hplace]
  generalize dayOfYear t.year t.month t.dom + (if DayOff seen t then 1 else 0) = day at hday ⊢
  have hsec : t.second + (0 : ℤ).tdiv 10000 = t.second := by simp
  have hmin : t.minute + t.second.tdiv 60 = t.minute := by
    rw [Int.tdiv_eq_zero_of_lt t.seconds.1 t.seconds.2, add_zero]
  have hhour : t.hour + t.minute.tdiv 60 = t.hour := by
    rw [Int.tdiv_eq_zero_of_lt t.minutes.1 t.minutes.2, add_zero]
  have hdays : day + t.hour.tdiv 24 = day := by
    rw [Int.tdiv_eq_zero_of_lt t.hours.1 t.hours.2, add_zero]
  have hdate' : dayNumber (yearsPast (day.toNat / 365 + 1) t.year day).1
        (yearsPast (day.toNat / 365 + 1) t.year day).2 = dayNumber t.year day ∧
      1901 ≤ (yearsPast (day.toNat / 365 + 1) t.year day).1 ∧
        (yearsPast (day.toNat / 365 + 1) t.year day).1 ≤ 2100 ∧
      1 ≤ (yearsPast (day.toNat / 365 + 1) t.year day).2 ∧
        (yearsPast (day.toNat / 365 + 1) t.year day).2 ≤ 366 := by
    have hlen := (javaYearLength_eq_iff t.year).mpr hleap
    have hcases := javaYearLength_cases t.year
    have hcases' := javaYearLength_cases (t.year + 1)
    rw [yearsPast_succ]
    split_ifs with hpast
    · rw [toShort_succ (by linarith [t.years.1]) (by linarith [t.years.2]),
        yearsPast_of_le _ (by omega)]
      refine ⟨?_, by linarith [t.years.1], by linarith [t.years.2], by linarith, by omega⟩
      simp only [dayNumber, yearStart_succ]
      linarith
    · exact ⟨rfl, by linarith [t.years.1], by linarith [t.years.2], hday⟩
  have hbyte : ∀ z : ℤ, 0 ≤ z → z < 60 → toByte z = z := fun z h0 h =>
    Int.bmod_eq_of_le_mul_two (by norm_num; linarith) (by norm_num; linarith)
  simp only [stdtimeOfDay, Stdtime.normalize,
    toShort_of_mem (by linarith : -32768 ≤ day) (by linarith),
    hsec, hmin, hhour, hdays, Int.tmod_eq_of_lt t.seconds.1 t.seconds.2,
    Int.tmod_eq_of_lt t.minutes.1 t.minutes.2, Int.tmod_eq_of_lt t.hours.1 t.hours.2,
    hbyte _ t.seconds.1 t.seconds.2, hbyte _ t.minutes.1 t.minutes.2,
    hbyte _ t.hours.1 (t.hours.2.trans (by norm_num))]
  obtain ⟨hnumber, hlow, hhigh, hlow', hhigh'⟩ := hdate'
  refine ⟨⟨hlow, hhigh⟩, t.hours, t.minutes, t.seconds, rfl, ?_⟩
  rw [toShort_of_mem (by linarith) (by linarith), hnumber]

end Built

/-! ### The span -/

section Span

variable {a b : Stdtime} {x y : ℤ}

lemma julian_eq {t : Stdtime} (h : 1901 ≤ t.year ∧ t.year ≤ 2100) :
    yearMonthDay2Julian t.year 1 t.day = dayNumber t.year t.day + 1721425 :=
  julday2_eq h.1 h.2 t.day

/-- A difference below its unit. -/
lemma tdiv_small {z k : ℤ} (hlow : -k < z) (hhigh : z < k) (hk : k ≤ 128) :
    z.tdiv k = 0 ∧ toByte (z.tmod k) = z := by
  have hpos : 0 < k := by linarith
  have hspec := tdiv_spec z hpos
  have hzero : z.tdiv k = 0 := by
    rw [← Int.natAbs_eq_zero, Int.natAbs_tdiv]
    exact Nat.div_eq_of_lt (by omega)
  rw [toByte_tmod z hpos hk]
  rw [hzero, mul_zero, zero_add] at hspec
  exact ⟨hzero, hspec.1.symm⟩

/-- The duration is the distance of the times within the limits. -/
lemma duration_eq (ha : a.At x) (hb : b.At y) (hlow : -86400 ≤ x - y)
    (hhigh : x - y ≤ maxDeltaInt + 86400) :
    (let duration :=
        if (deltaTime a b).exceedsMaxSeconds then maxDeltaInt else (deltaTime a b).toSeconds
      if duration < 1 then 1 else duration) = max 1 (min (x - y) maxDeltaInt) := by
  obtain ⟨hs, hs'⟩ := @tdiv_small (a.second - b.second) 60
    (by linarith [ha.seconds.1, hb.seconds.2])
    (by linarith [ha.seconds.2, hb.seconds.1]) (by norm_num)
  obtain ⟨hm, hm'⟩ := @tdiv_small (a.minute - b.minute) 60
    (by linarith [ha.minutes.1, hb.minutes.2])
    (by linarith [ha.minutes.2, hb.minutes.1]) (by norm_num)
  obtain ⟨hh, hh'⟩ := @tdiv_small (a.hour - b.hour) 24 (by linarith [ha.hours.1, hb.hours.2])
    (by linarith [ha.hours.2, hb.hours.1]) (by norm_num)
  have hspan : deltaTime a b = ⟨dayNumber a.year a.day - dayNumber b.year b.day, a.hour - b.hour,
      a.minute - b.minute, a.second - b.second, 0⟩ := by
    have htenth : a.tenthMsec - b.tenthMsec = 0 := by rw [ha.tenthMsec, hb.tenthMsec, sub_zero]
    simp only [deltaTime, htenth, Int.zero_tdiv, add_zero, hs, hs', hm, hm', hh, hh',
      julian_eq ha.years, julian_eq hb.years, add_sub_add_right_eq_sub, DeltaTime.mk.injEq,
      true_and]
    rfl
  have hgap : (dayNumber a.year a.day - dayNumber b.year b.day) * 24 * 60 * 60
      + (a.hour - b.hour) * 60 * 60 + (a.minute - b.minute) * 60 + (a.second - b.second)
        = x - y := by
    linarith [ha.place, hb.place]
  have hmax : maxDeltaInt = 1728000000 := by norm_num [maxDeltaInt]
  have hints : wrapLong 32 (x - y) = x - y :=
    Int.bmod_eq_of_le_mul_two (by norm_num; linarith) (by norm_num; linarith)
  rw [hspan]
  have hlimit : (DeltaTime.mk (dayNumber a.year a.day - dayNumber b.year b.day) (a.hour - b.hour)
      (a.minute - b.minute) (a.second - b.second) 0).exceedsMaxSeconds = true ↔
        20000 < dayNumber a.year a.day - dayNumber b.year b.day := by
    simp only [DeltaTime.exceedsMaxSeconds]
    split_ifs with hday
    · simp only [false_iff]
      linarith
    · rw [decide_eq_true_eq, Int.tdiv_eq_ediv_of_nonneg (by rw [hmax]; norm_num),
        Int.ediv_lt_iff_lt_mul (by linarith), hmax]
      constructor <;> intro h <;> linarith
  have htimes : -86400 < (a.hour - b.hour) * 60 * 60 + (a.minute - b.minute) * 60
      + (a.second - b.second) := by
    linarith [ha.hours.1, hb.hours.2, ha.minutes.1, hb.minutes.2, ha.seconds.1, hb.seconds.2]
  by_cases hexceeds : 20000 < dayNumber a.year a.day - dayNumber b.year b.day
  · have hlong : maxDeltaInt ≤ x - y := by
      rw [hmax]
      linarith
    rw [min_eq_right hlong, hmax]
    simp only [hlimit.mpr hexceeds, if_true]
    norm_num
  · have hshort := mt hlimit.mp hexceeds
    have hlimited : min (x - y) maxDeltaInt
        = if x - y > maxDeltaInt then maxDeltaInt else x - y := by
      split_ifs with hlong
      · exact min_eq_right hlong.le
      · exact min_eq_left (not_lt.mp hlong)
    rw [hlimited]
    simp only [hshort, Bool.false_eq_true, if_false, DeltaTime.toSeconds, hgap, hints, lt_irrefl,
      gt_iff_lt]
    generalize (if maxDeltaInt < x - y then maxDeltaInt else x - y) = duration
    split_ifs with hone
    · exact (max_eq_left hone.le).symm
    · exact (max_eq_right (not_lt.mp hone)).symm

end Span

/-! ### The request -/

/-- What the client owes to the start and the finish: the seconds between them as the duration,
from which `netseed` finds the finish. -/
def AsksExactly (earlier : List StdtimeCall) (start finish : EnteredTime) : Prop :=
  let duration := transferDuration (earlier.foldl StdtimeCall.run initDaysInMonth) finish.dateText
    finish.timeText start.dateText start.timeText
  duration = finish.place - start.place ∧
    stAddToTime2 start.toStdTime2 0 0 0 duration 0 = finish.toStdTime2

/-- The array is off for both times or for none; or the finish is late and the span is the longest
one, or the start is late and the span is the shortest one. -/
def AskRight (earlier : List StdtimeCall) (start finish : EnteredTime) : Prop :=
  let finishOff := DayOff (leapSeen earlier) finish
  let startOff := DayOff (leapSeen earlier || isLeapYear finish.year) start
  (finishOff ↔ startOff) ∨ finishOff ∧ finish.place - start.place = maxDeltaInt ∨
    startOff ∧ finish.place - start.place = 1

lemma asksExactly_iff (earlier : List StdtimeCall) (start finish : EnteredTime)
    (hafter : 0 < finish.place - start.place) (hmax : finish.place - start.place ≤ 20000 * 86400) :
    AsksExactly earlier start finish ↔ AskRight earlier start finish := by
  have hmaxDelta : maxDeltaInt = 1728000000 := by norm_num [maxDeltaInt]
  have hduration : transferDuration (earlier.foldl StdtimeCall.run initDaysInMonth) finish.dateText
      finish.timeText start.dateText start.timeText = max 1 (min
        (finish.place + (if DayOff (leapSeen earlier) finish then 86400 else 0)
          - (start.place + if DayOff (leapSeen earlier || isLeapYear finish.year) start then 86400
              else 0)) maxDeltaInt) := by
    have hfinish := built_at finish (leapSeen earlier)
    have hstart := built_at start (leapSeen earlier || isLeapYear finish.year)
    rw [← duration_eq hfinish hstart (by split_ifs <;> linarith)
      (by rw [hmaxDelta]; split_ifs <;> linarith)]
    simp only [transferDuration, table_earlier, stdtimeOfStrings_entered]
  have hend : ∀ duration : ℤ, duration = finish.place - start.place →
      stAddToTime2 start.toStdTime2 0 0 0 duration 0 = finish.toStdTime2 := by
    intro duration heq
    have hsum : start.toStdTime2.place + (DeltaT2.mk 0 0 0 duration 0).total
        = finish.toStdTime2.place := by
      simp only [DeltaT2.total, EnteredTime.toStdTime2_place, heq]
      ring
    have hbound : finish.toStdTime2.place < yearPlace 4000 :=
      (finish.toStdTime2_valid.year_lt_iff 4000).mp
        (show finish.year < 4000 by linarith [finish.years.2])
    obtain ⟨hvalid, hplace⟩ := stAddToTime2_spec start.toStdTime2 0 0 0 duration 0
      (by rw [hsum]; exact hbound)
    exact (hvalid.eq_iff finish.toStdTime2_valid).mpr (hplace.trans hsum)
  have hexact : max 1 (min (finish.place + (if DayOff (leapSeen earlier) finish then 86400 else 0)
      - (start.place + if DayOff (leapSeen earlier || isLeapYear finish.year) start then 86400
          else 0)) maxDeltaInt) = finish.place - start.place ↔ AskRight earlier start finish := by
    rw [AskRight, hmaxDelta]
    by_cases hf : DayOff (leapSeen earlier) finish <;>
      by_cases hs : DayOff (leapSeen earlier || isLeapYear finish.year) start <;>
      simp only [hf, hs, if_true, if_false, true_and, false_and, or_false, true_or, false_or,
        iff_true, true_iff] <;>
      omega
  simp only [AsksExactly, hduration]
  rw [hexact]
  exact and_iff_left_of_imp fun hright => hend _ (hexact.mpr hright)

/-- The duration is exact for the times and the earlier constructions of `AskRight` only; a time
built from a year and a day of the year keeps the instant when its fraction has no tenth of a
second, its day stays a `short`, and the years it runs past have the length the calendar gives
them; and one built from a month does when its fraction has no tenth of a second and its day of the
year, with the length of the year it runs past, is right. -/
theorem javaTimes_iff (earlier : List StdtimeCall) :
    (∀ start finish : EnteredTime,
      0 < finish.place - start.place → finish.place - start.place ≤ 20000 * 86400 →
        (AsksExactly earlier start finish ↔ AskRight earlier start finish)) ∧
    (∀ t : Stdtime, t.InRange →
      ((stdtimeOfDay t.year t.day t.hour t.minute t.second t.tenthMsec).place = t.place ↔
        FractionKept t.tenthMsec ∧
          -32768 ≤ t.day + carriedDays t.hour t.minute t.second t.tenthMsec ∧
          YearsRight t.year
            (dayNumber t.year (t.day + carriedDays t.hour t.minute t.second t.tenthMsec)))) ∧
    ∀ (t : Stdtime) (month dom : ℤ), t.InRange →
      1 ≤ month ∧ month ≤ 12 → -128 ≤ dom ∧ dom ≤ 127 → t.day = dayOfYear t.year month dom →
        ((stdtimeOfMonth (earlier.foldl StdtimeCall.run initDaysInMonth) t.year month dom t.hour
            t.minute t.second t.tenthMsec).2.place = t.place ↔
          FractionKept t.tenthMsec ∧ MonthsRight (leapSeen earlier) t.year month dom
            (carriedDays t.hour t.minute t.second t.tenthMsec)) := by
  refine ⟨asksExactly_iff earlier, fun t h => stdtimeOfDay_iff h, ?_⟩
  intro t month dom h hmonth hdom hday
  rw [table_earlier]
  exact stdtimeOfMonth_iff (leapSeen earlier) h hmonth hdom hday

/-- The first of March 2023 at noon. -/
def firstOfMarch : EnteredTime :=
  ⟨2023, 3, 1, 12, 0, 0, by decide, ⟨by decide, by decide, by decide⟩,
  by decide, by decide, by decide⟩

/-- The day before. -/
def lastOfFebruary : EnteredTime := ⟨2023, 2, 28, 12, 0, 0, by decide,
  ⟨by decide, by decide, by decide⟩, by decide, by decide, by decide⟩

theorem javaTimes_iff_march :
    (AsksExactly [] lastOfFebruary firstOfMarch ↔ AskRight [] lastOfFebruary firstOfMarch) ∧
      ((stdtimeOfDay 2023 60 12 0 0 999).place = (Stdtime.mk 2023 60 12 0 0 999 true).place ↔
        FractionKept 999 ∧ -32768 ≤ 60 + carriedDays 12 0 0 999 ∧
          YearsRight 2023 (dayNumber 2023 (60 + carriedDays 12 0 0 999))) ∧
      ((stdtimeOfMonth initDaysInMonth 2023 3 1 12 0 0 999).2.place
          = (Stdtime.mk 2023 60 12 0 0 999 true).place ↔
        FractionKept 999 ∧ MonthsRight false 2023 3 1 (carriedDays 12 0 0 999)) :=
  ⟨(javaTimes_iff []).1 lastOfFebruary firstOfMarch (by decide +kernel) (by decide +kernel),
    (javaTimes_iff []).2.1 ⟨2023, 60, 12, 0, 0, 999, true⟩
    ⟨by decide, by decide, by decide, by decide,
      by decide, by decide⟩,
    (javaTimes_iff []).2.2 ⟨2023, 60, 12, 0, 0, 999, true⟩ 3 1 ⟨by decide, by decide, by decide,
      by decide, by decide, by decide⟩ (by decide) (by decide) (by decide +kernel)⟩

/-- After a date of 2024 the day from the last of February to the first of March 2023 is asked for
as two days; and a quarter of a second becomes a twentieth. -/
theorem javaTimes_not :
    ¬ AsksExactly [.ofMonth 2024 1 1 0 0 0 0] lastOfFebruary firstOfMarch ∧
      (stdtimeOfDay 2023 60 12 0 0 2500).place ≠ (Stdtime.mk 2023 60 12 0 0 2500 true).place := by
  constructor
  · rintro ⟨hduration, -⟩
    revert hduration
    decide +kernel
  · decide +kernel

end StationProcessor
