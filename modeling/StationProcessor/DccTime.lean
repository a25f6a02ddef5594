import Mathlib.Tactic

/-!
# Times accurate to a tenth of a millisecond

The `STDTIME2` and `DELTA_T2` routines of `lib/dcc_time2`. A `LONG` has `w` bits: the station
runs on a 32-bit processor, the tools also on 64-bit hosts. Only the product in
`stDeltaToMs2` can leave a 32-bit `LONG`, so only there the width is part of the model.

`StdTime2.instant` places a time on one axis of tenth-milliseconds; with a `LONG` of 64 bits
the difference of two times is their distance on that axis, limited to 20 days.
-/

namespace StationProcessor

/-- `STDTIME2`: a year, a day of that year counted from 1, and a time of day. -/
structure StdTime2 where
  year : ℤ
  day : ℤ
  hour : ℤ
  minute : ℤ
  second : ℤ
  tenthMsec : ℤ
deriving DecidableEq

/-- `DELTA_T2`: a signed span whose sign is carried by the days. -/
structure DeltaT2 where
  nday : ℤ
  nhour : ℤ
  nmin : ℤ
  nsec : ℤ
  ntenthMsecs : ℤ
deriving DecidableEq

/-- The value a `LONG` of `w` bits holds after an operation. -/
def wrapLong (w : ℕ) (x : ℤ) : ℤ := x.bmod (2 ^ w)

/-- `TIM_LIM`: 20 days in milliseconds, which the tenth-millisecond routines kept as their
limit. -/
def timLim : ℤ := 20 * 86400 * 1000

/-! ### Normalisation -/

/-- One adjustment of `timenormd2`: bring `x` into `0 .. radix - 1` and carry into `hi`. The
division leaves `|x| < radix`, so each of the two loops of the source runs at most once. -/
def carry (radix x hi : ℤ) : ℤ × ℤ :=
  let p := if |x| > radix - 1 then (x.tmod radix, hi + x.tdiv radix) else (x, hi)
  if p.1 < 0 then (p.1 + radix, p.2 - 1)
  else if p.1 > radix - 1 then (p.1 - radix, p.2 + 1)
  else p

/-- `timenormd2`: carry tenth-milliseconds into seconds, up to hours into days. -/
def timenormd2 (d : DeltaT2) : DeltaT2 :=
  let (tenth, second) := carry 10000 d.ntenthMsecs d.nsec
  let (second, minute) := carry 60 second d.nmin
  let (minute, hour) := carry 60 minute d.nhour
  let (hour, day) := carry 24 hour d.nday
  ⟨day, hour, minute, second, tenth⟩

/-- `_tleap`: the Gregorian leap rule. -/
def tleap (year : ℤ) : Bool :=
  if year % 400 = 0 then true
  else if year % 100 = 0 then false
  else if year % 4 = 0 then true
  else false

/-- `_tdays`: the number of days in a year. -/
def tdays (year : ℤ) : ℤ := if tleap year then 366 else 365

/-- `while (*day >= _tdays(*year))` of `timenorm2`; `fuel` bounds the number of years. -/
def daysUp : ℕ → ℤ → ℤ → ℤ × ℤ
  | 0, year, day => (year, day)
  | fuel + 1, year, day =>
    if day ≥ tdays year then daysUp fuel (year + 1) (day - tdays year) else (year, day)

/-- `while (*day < 0)` of `timenorm2`. -/
def daysDown : ℕ → ℤ → ℤ → ℤ × ℤ
  | 0, year, day => (year, day)
  | fuel + 1, year, day =>
    if day < 0 then daysDown fuel (year - 1) (day + tdays (year - 1)) else (year, day)

/-- `timenorm2`, on a time whose day counts from 0. -/
def timenorm2 (t : StdTime2) : StdTime2 :=
  let d := timenormd2 ⟨t.day, t.hour, t.minute, t.second, t.tenthMsec⟩
  let fuel := d.nday.natAbs / 365 + 1
  let (year, day) := daysUp fuel t.year d.nday
  let (year, day) := daysDown fuel year day
  if year ≥ 4000 then ⟨0, 1, 0, 0, 0, 0⟩ else ⟨year, day, d.nhour, d.nmin, d.nsec, d.ntenthMsecs⟩

/-! ### Sums and differences -/

/-- `ST_AddToTime2`. -/
def stAddToTime2 (t : StdTime2) (day hour minute second tenthMsec : ℤ) : StdTime2 :=
  let s := timenorm2 ⟨t.year, t.day + day - 1, t.hour + hour, t.minute + minute,
    t.second + second, t.tenthMsec + tenthMsec⟩
  { s with day := s.day + 1 }

/-- `_julday2`, accurate from March 1900 to February 2100. -/
def julday2 (year mon day : ℤ) : ℤ :=
  let yearprime := if mon = 1 ∨ mon = 2 then year - 1 else year
  let monprime := if mon = 1 ∨ mon = 2 then mon + 13 else mon + 1
  day + 1720982 + (36525 * yearprime).tdiv 100 + (306001 * monprime).tdiv 10000

/-- `ST_DiffTimes2`. -/
def stDiffTimes2 (a b : StdTime2) : DeltaT2 :=
  timenormd2 ⟨julday2 a.year 1 a.day - julday2 b.year 1 b.day, a.hour - b.hour,
    a.minute - b.minute, a.second - b.second, a.tenthMsec - b.tenthMsec⟩

/-- `ST_MinusDelta2`. -/
def stMinusDelta2 (d : DeltaT2) : DeltaT2 :=
  timenormd2 ⟨-d.nday, -d.nhour, -d.nmin, -d.nsec, -d.ntenthMsecs⟩

/-- The sum of products in `ST_DeltaToMS2`, in `LONG` arithmetic of `w` bits. -/
def deltaTotal (w : ℕ) (d : DeltaT2) : ℤ :=
  let total := wrapLong w (wrapLong w (d.nday * 86400) * 10000)
  let total := wrapLong w (total + wrapLong w (wrapLong w (d.nhour * 3600) * 10000))
  let total := wrapLong w (total + wrapLong w (wrapLong w (d.nmin * 60) * 10000))
  let total := wrapLong w (total + wrapLong w (d.nsec * 10000))
  wrapLong w (total + d.ntenthMsecs)

/-- `ST_DeltaToMS2`: a span in tenth-milliseconds, limited to `± TIM_LIM`. -/
def stDeltaToMs2 (w : ℕ) (d : DeltaT2) : ℤ :=
  if d.nday > 2 then timLim
  else if d.nday < -2 then -timLim
  else
    let total := if d.nday < 0 then wrapLong w (-deltaTotal w (stMinusDelta2 d))
      else deltaTotal w d
    if total > timLim then timLim else if total < -timLim then -timLim else total

/-- `compare_dcc_times`: the difference narrowed to an `int`. -/
def compareDccTimes (w : ℕ) (a b : StdTime2) : ℤ :=
  (stDeltaToMs2 w (stDiffTimes2 a b)).bmod (2 ^ 32)

/-! ### The axis of tenth-milliseconds -/

/-- Tenth-milliseconds of a span. -/
def DeltaT2.total (d : DeltaT2) : ℤ :=
  d.nday * 864000000 + d.nhour * 36000000 + d.nmin * 600000 + d.nsec * 10000 + d.ntenthMsecs

/-- Hours, minutes, seconds and tenth-milliseconds within their ranges. -/
structure DeltaT2.Normal (d : DeltaT2) : Prop where
  hour : 0 ≤ d.nhour ∧ d.nhour < 24
  minute : 0 ≤ d.nmin ∧ d.nmin < 60
  second : 0 ≤ d.nsec ∧ d.nsec < 60
  tenth : 0 ≤ d.ntenthMsecs ∧ d.ntenthMsecs < 10000

/-- The place of a time on the axis of tenth-milliseconds. -/
def StdTime2.instant (t : StdTime2) : ℤ :=
  julday2 t.year 1 t.day * 864000000 + t.hour * 36000000 + t.minute * 600000
    + t.second * 10000 + t.tenthMsec

/-- A carry is a division with a remainder that is never negative. -/
lemma carry_eq {radix : ℤ} (hr : 0 < radix) (x hi : ℤ) :
    carry radix x hi = (x % radix, hi + x / radix) := by
  have hdiv := Int.tmod_add_mul_tdiv x radix
  have hlt := Int.tmod_lt_of_pos x hr
  have hneg := Int.lt_tmod_of_pos x hr
  have hunique : ∀ q r : ℤ, r + radix * q = x → 0 ≤ r → r < radix →
      (r, hi + q) = (x % radix, hi + x / radix) := by
    intro q r h h0 h1
    obtain ⟨hq, hr'⟩ := (Int.ediv_emod_unique hr).mpr ⟨h, h0, h1⟩
    rw [hq, hr']
  unfold carry
  by_cases hbig : |x| > radix - 1
  · simp only [hbig, if_true]
    split_ifs with h0 h1
    · rw [show hi + x.tdiv radix - 1 = hi + (x.tdiv radix - 1) by ring]
      exact hunique _ _ (by linarith) (by omega) (by omega)
    · omega
    · exact hunique _ _ hdiv (by omega) (by omega)
  · simp only [hbig, if_false]
    rw [gt_iff_lt, not_lt, abs_le] at hbig
    split_ifs with h0 h1
    · rw [show hi - 1 = hi + (-1) by ring]
      exact hunique _ _ (by ring) (by omega) (by omega)
    · omega
    · simpa using hunique 0 x (by ring) (by omega) (by omega)

lemma timenormd2_normal (d : DeltaT2) : (timenormd2 d).Normal := by
  simp only [timenormd2, carry_eq (by norm_num : (0 : ℤ) < 10000),
    carry_eq (by norm_num : (0 : ℤ) < 60), carry_eq (by norm_num : (0 : ℤ) < 24)]
  constructor <;> constructor <;> simp only <;> omega

/-- Normalising keeps the length of a span. -/
lemma timenormd2_total (d : DeltaT2) : (timenormd2 d).total = d.total := by
  simp only [timenormd2, DeltaT2.total, carry_eq (by norm_num : (0 : ℤ) < 10000),
    carry_eq (by norm_num : (0 : ℤ) < 60), carry_eq (by norm_num : (0 : ℤ) < 24)]
  omega

lemma stDiffTimes2_normal (a b : StdTime2) : (stDiffTimes2 a b).Normal := timenormd2_normal _

/-- The difference of two times is their distance on the axis. -/
lemma stDiffTimes2_total (a b : StdTime2) :
    (stDiffTimes2 a b).total = a.instant - b.instant := by
  rw [stDiffTimes2, timenormd2_total]
  simp only [DeltaT2.total, StdTime2.instant]
  ring

lemma stMinusDelta2_total (d : DeltaT2) : (stMinusDelta2 d).total = -d.total := by
  rw [stMinusDelta2, timenormd2_total]
  simp only [DeltaT2.total]
  ring

/-- A value well inside a 64-bit `LONG` is kept. -/
lemma wrapLong_of_small {x : ℤ} (h : |x| < 10 ^ 12) : wrapLong 64 x = x := by
  rw [abs_lt] at h
  rw [wrapLong, Int.bmod_eq_of_le_mul_two] <;> norm_num <;> omega

/-- For spans of a few days no 64-bit product overflows. -/
lemma deltaTotal_eq {d : DeltaT2} (hd : d.Normal) (hday : |d.nday| ≤ 3) :
    deltaTotal 64 d = d.total := by
  obtain ⟨⟨h0, h1⟩, ⟨m0, m1⟩, ⟨s0, s1⟩, ⟨t0, t1⟩⟩ := hd
  rw [abs_le] at hday
  have small : ∀ x : ℤ, -10 ^ 12 < x → x < 10 ^ 12 → wrapLong 64 x = x :=
    fun x hx hx' => wrapLong_of_small (abs_lt.mpr ⟨hx, hx'⟩)
  simp only [deltaTotal]
  rw [small (d.nday * 86400) (by omega) (by omega), small (d.nhour * 3600) (by omega) (by omega),
    small (d.nmin * 60) (by omega) (by omega), small (d.nsec * 10000) (by omega) (by omega)]
  rw [small (d.nday * 86400 * 10000) (by omega) (by omega),
    small (d.nhour * 3600 * 10000) (by omega) (by omega),
    small (d.nmin * 60 * 10000) (by omega) (by omega)]
  rw [small (d.nday * 86400 * 10000 + _) (by omega) (by omega)]
  rw [small (d.nday * 86400 * 10000 + _ + d.nmin * 60 * 10000) (by omega) (by omega)]
  rw [small (d.nday * 86400 * 10000 + _ + d.nmin * 60 * 10000 + _) (by omega) (by omega)]
  rw [small _ (by omega) (by omega), DeltaT2.total]
  ring

/-- With a `LONG` of 64 bits a normalised span is its length, limited to 20 days. -/
lemma stDeltaToMs2_eq {d : DeltaT2} (hd : d.Normal) :
    stDeltaToMs2 64 d = max (-timLim) (min timLim d.total) := by
  have hrange : 0 ≤ d.total - d.nday * 864000000 ∧ d.total - d.nday * 864000000 < 864000000 := by
    obtain ⟨⟨h0, h1⟩, ⟨m0, m1⟩, ⟨s0, s1⟩, ⟨t0, t1⟩⟩ := hd
    simp only [DeltaT2.total]
    constructor <;> omega
  have hneg := stMinusDelta2_total d
  have hnormal : (stMinusDelta2 d).Normal := timenormd2_normal _
  have hrange' : 0 ≤ (stMinusDelta2 d).total - (stMinusDelta2 d).nday * 864000000 ∧
      (stMinusDelta2 d).total - (stMinusDelta2 d).nday * 864000000 < 864000000 := by
    obtain ⟨⟨h0, h1⟩, ⟨m0, m1⟩, ⟨s0, s1⟩, ⟨t0, t1⟩⟩ := hnormal
    simp only [DeltaT2.total]
    constructor <;> omega
  have hlim : timLim = 1728000000 := by norm_num [timLim]
  unfold stDeltaToMs2
  rw [hlim]
  by_cases hbig : d.nday > 2
  · rw [if_pos hbig]
    omega
  rw [if_neg hbig]
  by_cases hlow : d.nday < -2
  · rw [if_pos hlow]
    omega
  rw [if_neg hlow]
  by_cases h0 : d.nday < 0
  · have htotal : wrapLong 64 (-deltaTotal 64 (stMinusDelta2 d)) = d.total := by
      rw [deltaTotal_eq hnormal (abs_le.mpr ⟨by omega, by omega⟩), hneg, neg_neg]
      exact wrapLong_of_small (abs_lt.mpr ⟨by omega, by omega⟩)
    simp only [if_pos h0, htotal]
    split_ifs <;> omega
  · have htotal : deltaTotal 64 d = d.total :=
      deltaTotal_eq hd (abs_le.mpr ⟨by omega, by omega⟩)
    simp only [if_neg h0, htotal]
    split_ifs <;> omega

/-- `compare_dcc_times` decides the order of every pair of times, for a `LONG` of `w` bits. -/
def TrueSign (w : ℕ) : Prop :=
  ∀ a b : StdTime2, (compareDccTimes w a b < 0 ↔ a.instant < b.instant) ∧
    (compareDccTimes w a b > 0 ↔ b.instant < a.instant)

/-- On a platform with 64-bit longs the comparison is right. -/
theorem trueSign_long64 : TrueSign 64 := by
  intro a b
  have hlim : timLim = 1728000000 := by norm_num [timLim]
  have hcmp : compareDccTimes 64 a b = max (-timLim) (min timLim (a.instant - b.instant)) := by
    rw [compareDccTimes, stDeltaToMs2_eq (stDiffTimes2_normal a b), stDiffTimes2_total, hlim]
    rw [Int.bmod_eq_of_le_mul_two] <;> norm_num <;> omega
  rw [hcmp, hlim]
  omega

end StationProcessor
