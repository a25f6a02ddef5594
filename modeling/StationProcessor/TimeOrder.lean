import StationProcessor.Calendar
import StationProcessor.Diskloop.Context

/-!
# The order of times and its comparison

`compare_dcc_times` on a `LONG` of 32 and of 64 bits. A gap of less than three days but of 2^31
tenth-milliseconds or more passes the limit test on days and does not fit a `LONG` of 32 bits.
-/

namespace StationProcessor

open Gregorian

/-! ### The order of times -/

/-- The order of times: years first, tenth-milliseconds last. -/
def StdTime2.Before (a b : StdTime2) : Prop :=
  a.year < b.year ∨ a.year = b.year ∧ (a.day < b.day ∨ a.day = b.day ∧
    (a.hour < b.hour ∨ a.hour = b.hour ∧ (a.minute < b.minute ∨ a.minute = b.minute ∧
      (a.second < b.second ∨ a.second = b.second ∧ a.tenthMsec < b.tenthMsec))))

/-- Two numbers of two digits compare by their first digits, then by their second ones. -/
lemma mixed_lt_iff {k q q' r r' : ℤ} (h : 0 ≤ r ∧ r < k) (h' : 0 ≤ r' ∧ r' < k) :
    q * k + r < q' * k + r' ↔ q < q' ∨ q = q' ∧ r < r' := by
  rcases lt_trichotomy q q' with hq | rfl | hq
  · have hstep : (q + 1) * k ≤ q' * k := mul_le_mul_of_nonneg_right hq (by linarith)
    simp only [hq, true_or, iff_true]
    linarith
  · simp
  · have hstep : (q' + 1) * k ≤ q * k := mul_le_mul_of_nonneg_right hq (by linarith)
    constructor
    · intro hlt
      linarith
    · rintro (hlt | ⟨rfl, -⟩) <;> linarith

lemma mixed_eq_iff {k q q' r r' : ℤ} (h : 0 ≤ r ∧ r < k) (h' : 0 ≤ r' ∧ r' < k) :
    q * k + r = q' * k + r' ↔ q = q' ∧ r = r' := by
  have hlt := @mixed_lt_iff k q q' r r' h h'
  have hgt := @mixed_lt_iff k q' q r' r h' h
  constructor
  · intro heq
    rw [heq] at hlt hgt
    simp only [lt_self_iff_false, false_iff] at hlt hgt
    omega
  · rintro ⟨rfl, rfl⟩
    rfl

/-- The place of a time, digit by digit. -/
lemma StdTime2.place_eq (t : StdTime2) :
    t.place = (((dayNumber t.year t.day * 24 + t.hour) * 60 + t.minute) * 60 + t.second) * 10000
      + t.tenthMsec := by
  simp only [StdTime2.place, StdTime2.timeOfDay]
  ring

/-- The axis has the order of times. -/
lemma StdTime2.Valid.before_iff {a b : StdTime2} (ha : a.Valid) (hb : b.Valid) :
    a.Before b ↔ a.place < b.place := by
  have hdate : dayNumber a.year a.day = dayNumber b.year b.day ↔ a.year = b.year ∧ a.day = b.day :=
    ⟨dayNumber_inj ha.date hb.date, fun ⟨hy, hd⟩ => by rw [hy, hd]⟩
  rw [a.place_eq, b.place_eq, mixed_lt_iff ha.tenth hb.tenth, mixed_lt_iff ha.second hb.second,
    mixed_lt_iff ha.minute hb.minute, mixed_lt_iff ha.hour hb.hour,
    mixed_eq_iff ha.second hb.second, mixed_eq_iff ha.minute hb.minute,
    mixed_eq_iff ha.hour hb.hour, dayNumber_lt_iff ha.date hb.date, hdate]
  simp only [StdTime2.Before, and_or_left, or_assoc, and_assoc]

/-- Different times have different places. -/
lemma StdTime2.Valid.eq_iff {a b : StdTime2} (ha : a.Valid) (hb : b.Valid) :
    a = b ↔ a.place = b.place := by
  constructor
  · rintro rfl
    rfl
  · intro h
    rw [a.place_eq, b.place_eq, mixed_eq_iff ha.tenth hb.tenth, mixed_eq_iff ha.second hb.second,
      mixed_eq_iff ha.minute hb.minute, mixed_eq_iff ha.hour hb.hour] at h
    obtain ⟨⟨⟨⟨hdate, hhour⟩, hminute⟩, hsecond⟩, htenth⟩ := h
    obtain ⟨hyear, hday⟩ := dayNumber_inj ha.date hb.date hdate
    cases a
    cases b
    simp only [StdTime2.mk.injEq] at *
    exact ⟨hyear, hday, hhour, hminute, hsecond, htenth⟩

/-! ### A `LONG` of 32 bits -/

/-- A normalised span lies within the day its days say. -/
lemma DeltaT2.Normal.total_mem {d : DeltaT2} (hd : d.Normal) :
    d.nday * 864000000 ≤ d.total ∧ d.total < (d.nday + 1) * 864000000 := by
  obtain ⟨⟨h0, h1⟩, ⟨m0, m1⟩, ⟨s0, s1⟩, ⟨x0, x1⟩⟩ := hd
  simp only [DeltaT2.total]
  constructor <;> linarith

/-- The sum of products is the length of the span, as far as a `LONG` holds it. -/
lemma deltaTotal_wrap (w : ℕ) (d : DeltaT2) : deltaTotal w d = wrapLong w d.total := by
  simp only [deltaTotal, wrapLong, Int.bmod_add_bmod, Int.add_bmod_bmod, Int.bmod_mul_bmod,
    DeltaT2.total]
  ring_nf

/-- The lengths of a positive gap that are below the limit on days and overflow 32 bits. -/
def Overflows (gap : ℤ) : Prop := 2 ^ 31 ≤ gap ∧ gap < 3 * 864000000

instance : DecidablePred Overflows := fun gap =>
  inferInstanceAs (Decidable (2 ^ 31 ≤ gap ∧ gap < 3 * 864000000))

/-- With a `LONG` of 32 bits a gap that overflows is taken for an overlap of more than a day. -/
lemma stDeltaToMs2_long32 {d : DeltaT2} (hd : d.Normal) :
    (Overflows d.total → -timLim ≤ stDeltaToMs2 32 d ∧ stDeltaToMs2 32 d < -10 ^ 9) ∧
      (¬ Overflows d.total → stDeltaToMs2 32 d = max (-timLim) (min timLim d.total)) := by
  have hrange := hd.total_mem
  have hnormal : (stMinusDelta2 d).Normal := timenormd2_normal _
  have hneg := stMinusDelta2_total d
  have hlim : timLim = 1728000000 := by norm_num [timLim]
  simp only [stDeltaToMs2, deltaTotal_wrap, hneg, hlim, Overflows]
  have hsmall : ∀ x : ℤ, -2 ^ 31 ≤ x → x < 2 ^ 31 → wrapLong 32 x = x := by
    intro x h h'
    exact Int.bmod_eq_of_le_mul_two (by norm_num; omega) (by norm_num; omega)
  by_cases hbig : d.nday > 2
  · simp only [hbig, if_true]
    omega
  by_cases hlow : d.nday < -2
  · simp only [hbig, hlow, if_true, if_false]
    omega
  by_cases h0 : d.nday < 0
  · rw [hsmall (-d.total) (by omega) (by omega), neg_neg, hsmall d.total (by omega) (by omega)]
    simp only [hbig, hlow, h0, if_true, if_false]
    split_ifs <;> omega
  · simp only [hbig, hlow, h0, if_false]
    by_cases hover : 2 ^ 31 ≤ d.total
    · have hwrap : wrapLong 32 d.total = d.total - 2 ^ 32 := by
        have hmod : wrapLong 32 (d.total - 2 ^ 32) = wrapLong 32 d.total :=
          Int.sub_bmod_right d.total (2 ^ 32)
        rw [← hmod]
        exact hsmall _ (by omega) (by omega)
      rw [hwrap]
      split_ifs <;> omega
    · rw [hsmall d.total (by omega) (by omega)]
      split_ifs <;> omega

/-! ### The comparison -/

/-- What `compare_dcc_times` owes to two times and `adl_write` to a record that starts later. -/
structure ComparesRight (w : ℕ) (a b : StdTime2) : Prop where
  lt : compareDccTimes w a b < 0 ↔ a.Before b
  eq : compareDccTimes w a b = 0 ↔ a = b
  gt : compareDccTimes w a b > 0 ↔ b.Before a
  opposite : (compareDccTimes w b a).sign = -(compareDccTimes w a b).sign
  accepts : ∀ (n : ℕ) (cfg : Config n) (samples : ℤ) (r : Record n), cfg.plat.longBits = w →
    (parseSeedHeader cfg.plat r.toList).recStart = a → b.Before a → overlaps cfg samples b r = false

section Comparison

variable {w : ℕ} {a b : StdTime2} (ha : a.Valid) (hb : b.Valid) (hac : a.InCentury)
  (hbc : b.InCentury)

include hac hbc

/-- The difference in tenth-milliseconds, where it does not overflow. -/
lemma delta_eq (hw : w = 64 ∨ w = 32 ∧ ¬ Overflows (a.place - b.place)) :
    stDeltaToMs2 w (stDiffTimes2 a b) = max (-timLim) (min timLim (a.place - b.place)) := by
  have htotal := stDiffTimes2_place hac hbc
  rcases hw with rfl | ⟨rfl, hover⟩
  · rw [stDeltaToMs2_eq (stDiffTimes2_normal a b), htotal]
  · rw [← htotal] at hover ⊢
    exact (stDeltaToMs2_long32 (stDiffTimes2_normal a b)).2 hover

lemma compareDccTimes_eq (hw : w = 64 ∨ w = 32 ∧ ¬ Overflows (a.place - b.place)) :
    compareDccTimes w a b = max (-timLim) (min timLim (a.place - b.place)) := by
  have hlim : timLim = 1728000000 := by norm_num [timLim]
  rw [compareDccTimes, delta_eq hac hbc hw, hlim]
  exact Int.bmod_eq_of_le_mul_two (by norm_num; omega) (by norm_num; omega)

/-- A gap that overflows makes the later time the smaller one. -/
lemma compareDccTimes_neg (hover : Overflows (a.place - b.place)) :
    compareDccTimes 32 a b < 0 := by
  have hlim : timLim = 1728000000 := by norm_num [timLim]
  rw [← stDiffTimes2_place hac hbc] at hover
  obtain ⟨hlow, hneg⟩ := (stDeltaToMs2_long32 (stDiffTimes2_normal a b)).1 hover
  rw [compareDccTimes, Int.bmod_eq_of_le_mul_two (by norm_num; omega) (by norm_num; omega)]
  linarith

include ha hb

/-- The comparison is right for all times on 64 bits, and on 32 bits unless the two are between
2^31 tenth-milliseconds and three days apart. -/
theorem comparesRight_iff (hw : w = 32 ∨ w = 64) :
    ComparesRight w a b ↔ w = 64 ∨ ¬ Overflows |a.place - b.place| := by
  have hlim : timLim = 1728000000 := by norm_num [timLim]
  have hbefore := ha.before_iff hb
  have hafter := hb.before_iff ha
  constructor
  · intro h
    by_contra hcon
    obtain ⟨h64, hover⟩ := not_or.mp hcon
    obtain rfl : w = 32 := hw.resolve_right h64
    rw [not_not] at hover
    rcases le_total 0 (a.place - b.place) with hsign | hsign
    · rw [abs_of_nonneg hsign] at hover
      have hlt := hbefore.mp (h.lt.mp (compareDccTimes_neg hac hbc hover))
      linarith
    · rw [abs_of_nonpos hsign, neg_sub] at hover
      have hneg := compareDccTimes_neg hbc hac hover
      have hpos := h.lt.mpr (hbefore.mpr (by have := hover.1; linarith))
      have hopp := h.opposite
      rw [Int.sign_eq_neg_one_of_neg hneg, Int.sign_eq_neg_one_of_neg hpos] at hopp
      norm_num at hopp
  · intro hcond
    have hfits : w = 64 ∨ w = 32 ∧ ¬ Overflows (a.place - b.place) ∧
        ¬ Overflows (b.place - a.place) := by
      rcases hcond with h64 | hcond
      · exact Or.inl h64
      · refine hw.symm.imp_right fun h32 => ⟨h32, ?_, ?_⟩ <;>
          refine fun hover => hcond ?_
        · rwa [abs_of_nonneg (by have := hover.1; linarith)]
        · rwa [abs_sub_comm, abs_of_nonneg (by have := hover.1; linarith)]
    have hab := compareDccTimes_eq hac hbc (hfits.imp_right fun h => ⟨h.1, h.2.1⟩)
    have hba := compareDccTimes_eq hbc hac (hfits.imp_right fun h => ⟨h.1, h.2.2⟩)
    refine ⟨?_, ?_, ?_, ?_, ?_⟩
    · rw [hab, hbefore, hlim]
      omega
    · rw [hab, ha.eq_iff hb, hlim]
      omega
    · rw [hab, hafter, hlim]
      omega
    · rw [hab, hba, ← Int.sign_neg]
      congr 1
      omega
    · intro n cfg samples r hbits hstart hlater
      have hdelta := delta_eq hac hbc (hfits.imp_right fun h => ⟨h.1, h.2.1⟩)
      have hplace := hafter.mp hlater
      simp only [overlaps, deltaTms, hbits, hstart, hdelta, hlim, Bool.and_eq_false_imp,
        decide_eq_false_iff_not]
      intro _
      omega

end Comparison

/-- Noon of the first of January 2024, a time to compare others with. -/
def newYearNoon : StdTime2 := ⟨2024, 1, 12, 0, 0, 0⟩

lemma newYearNoon_valid : newYearNoon.Valid := by
  refine ⟨⟨?_, ?_⟩, ?_, ?_, ?_, ?_⟩ <;> decide

/-- Three days minus a tenth-millisecond. -/
def almostThreeDaysLater : StdTime2 := ⟨2024, 4, 11, 59, 59, 9999⟩

lemma almostThreeDaysLater_valid : almostThreeDaysLater.Valid := by
  refine ⟨⟨?_, ?_⟩, ?_, ?_, ?_, ?_⟩ <;> decide

theorem comparesRight_iff_almostThreeDays :
    ComparesRight 32 almostThreeDaysLater newYearNoon ↔
      32 = 64 ∨ ¬ Overflows |almostThreeDaysLater.place - newYearNoon.place| :=
  comparesRight_iff almostThreeDaysLater_valid newYearNoon_valid ⟨by decide, by decide⟩
    ⟨by decide, by decide⟩ (Or.inl rfl)

/-- On 32 bits a time almost three days later compares as the smaller one. -/
theorem comparesRight_overflow :
    ¬ ∀ w : ℕ, w = 32 ∨ w = 64 → ∀ a b : StdTime2, a.Valid → b.Valid → a.InCentury →
      b.InCentury → ComparesRight w a b := by
  intro h
  have hright := h 32 (Or.inl rfl) almostThreeDaysLater newYearNoon almostThreeDaysLater_valid
    newYearNoon_valid ⟨by decide, by decide⟩ ⟨by decide, by decide⟩
  have hlt := hright.lt.mp (by decide)
  simp [StdTime2.Before, almostThreeDaysLater, newYearNoon] at hlt

end StationProcessor
