import StationProcessor.JulianDay

/-!
# Times accurate to a millisecond

The routines of `lib/dcc_time` for `STDTIME` and `DELTA_T`, those that `lib/dcc_time2` has for
tenths of milliseconds. The sums of `ST_DeltaToMS` stay below 21 days, so they fit a `LONG` of
any width.
-/

namespace StationProcessor

open Gregorian

/-- `STDTIME`. -/
structure StdTime where
  year : ℤ
  day : ℤ
  hour : ℤ
  minute : ℤ
  second : ℤ
  msec : ℤ
deriving DecidableEq

/-- `DELTA_T`. -/
structure DeltaT where
  nday : ℤ
  nhour : ℤ
  nmin : ℤ
  nsec : ℤ
  nmsecs : ℤ
deriving DecidableEq

/-- `timenormd`. -/
def timenormd (d : DeltaT) : DeltaT :=
  let (msec, second) := carry 1000 d.nmsecs d.nsec
  let (second, minute) := carry 60 second d.nmin
  let (minute, hour) := carry 60 minute d.nhour
  let (hour, day) := carry 24 hour d.nday
  ⟨day, hour, minute, second, msec⟩

/-- `ST_DiffTimes`; `_julday` has the body of `_julday2`. -/
def stDiffTimes (intime insect : StdTime) : DeltaT :=
  timenormd ⟨julday2 intime.year 1 intime.day - julday2 insect.year 1 insect.day,
    intime.hour - insect.hour, intime.minute - insect.minute, intime.second - insect.second,
    intime.msec - insect.msec⟩

/-- `ST_MinusDelta`. -/
def stMinusDelta (d : DeltaT) : DeltaT :=
  timenormd ⟨-d.nday, -d.nhour, -d.nmin, -d.nsec, -d.nmsecs⟩

/-- Milliseconds of a span. -/
def DeltaT.total (d : DeltaT) : ℤ :=
  d.nday * 86400 * 1000 + d.nhour * 3600 * 1000 + d.nmin * 60 * 1000 + d.nsec * 1000 + d.nmsecs

/-- `ST_DeltaToMS`: a span in milliseconds, limited to `± TIM_LIM`. -/
def stDeltaToMs (d : DeltaT) : ℤ :=
  if d.nday > 20 then timLim
  else if d.nday < -20 then -timLim
  else
    let totalms := if d.nday < 0 then -(stMinusDelta d).total else d.total
    if totalms > timLim then timLim else if totalms < -timLim then -timLim else totalms

/-- `ST_CnvJulToSTD`. -/
def stCnvJulToStd (injul : ℤ) : StdTime :=
  let (outyr, _, _, outjday) := stCnvJulToCal2 injul
  ⟨outyr, outjday, 0, 0, 0, 0⟩

/-! ### The axis of milliseconds -/

/-- The place of a time on the axis of milliseconds, by the Gregorian calendar. -/
def StdTime.place (t : StdTime) : ℤ :=
  dayNumber t.year t.day * 86400000 + t.hour * 3600000 + t.minute * 60000 + t.second * 1000
    + t.msec

/-- Normalising keeps the length of a span, of which only the days can be negative. -/
lemma timenormd_spec (d : DeltaT) : (timenormd d).total = d.total ∧
    0 ≤ d.total - (timenormd d).nday * 86400000 ∧
    d.total - (timenormd d).nday * 86400000 < 86400000 := by
  simp only [timenormd, DeltaT.total, carry_eq (by norm_num : (0 : ℤ) < 1000),
    carry_eq (by norm_num : (0 : ℤ) < 60), carry_eq (by norm_num : (0 : ℤ) < 24)]
  refine ⟨?_, ?_, ?_⟩ <;> omega

lemma stMinusDelta_total (d : DeltaT) : (stMinusDelta d).total = -d.total := by
  rw [stMinusDelta, (timenormd_spec _).1]
  simp only [DeltaT.total]
  ring

/-- The difference of two times is their distance on the axis. -/
lemma stDiffTimes_total {a b : StdTime} (ha : 1901 ≤ a.year ∧ a.year ≤ 2100)
    (hb : 1901 ≤ b.year ∧ b.year ≤ 2100) : (stDiffTimes a b).total = a.place - b.place := by
  rw [stDiffTimes, (timenormd_spec _).1, julday2_eq ha.1 ha.2, julday2_eq hb.1 hb.2]
  simp only [DeltaT.total, StdTime.place]
  ring

/-- `ST_DeltaToMS` of a difference is the distance, limited to 20 days. -/
lemma stDeltaToMs_stDiffTimes {a b : StdTime} (ha : 1901 ≤ a.year ∧ a.year ≤ 2100)
    (hb : 1901 ≤ b.year ∧ b.year ≤ 2100) :
    stDeltaToMs (stDiffTimes a b) = max (-timLim) (min timLim (a.place - b.place)) := by
  have htotal := stDiffTimes_total ha hb
  have hminus := stMinusDelta_total (stDiffTimes a b)
  have hrange : 0 ≤ (stDiffTimes a b).total - (stDiffTimes a b).nday * 86400000 ∧
      (stDiffTimes a b).total - (stDiffTimes a b).nday * 86400000 < 86400000 := by
    have hspec := timenormd_spec ⟨julday2 a.year 1 a.day - julday2 b.year 1 b.day,
      a.hour - b.hour, a.minute - b.minute, a.second - b.second, a.msec - b.msec⟩
    rw [← hspec.1] at hspec
    exact hspec.2
  have hlim : timLim = 1728000000 := by norm_num [timLim]
  simp only [stDeltaToMs, hminus, neg_neg, ite_self]
  rw [hlim]
  split_ifs <;> omega

/-- `ST_CnvJulToSTD` of the Julian day of a date is that day of its year. -/
lemma stCnvJulToStd_julday2 {y m d : ℤ} (hy : Accurate y m) (h : IsMonthDay y m d) :
    stCnvJulToStd (julday2 y m d) = ⟨y, dayOfYear y m d, 0, 0, 0, 0⟩ := by
  simp only [stCnvJulToStd, stCnvJulToCal2_julday2 hy h]

end StationProcessor
