import StationProcessor.TimeOrder

/-!
# The end time of a record

`ParseSeedHeader` converts the length of a record to an `int` of tenth-milliseconds before adding
it to the start time. `exactSpan` is that length from the sample interval the SEED rules give.
-/

namespace StationProcessor

open Gregorian

/-- The interval between two samples in seconds, for a factor and a multiplier that are not 0:
a positive one gives samples for each second, a negative one seconds for each sample. -/
def samplePeriod (factor mult : ℤ) : ℚ :=
  (if factor > 0 then 1 / (factor : ℚ) else -factor) * (if mult > 0 then 1 / (mult : ℚ) else -mult)

/-- The length of a record in tenth-milliseconds, rounded down. -/
def exactSpan (samples factor mult : ℤ) : ℤ :=
  if factor = 0 ∨ mult = 0 then 0 else ⌊(samples : ℚ) * samplePeriod factor mult * 10000⌋

/-- The exact length of the record with this header. -/
def recordSpan (r : Bytes) : ℤ :=
  exactSpan (ntohsAt r 30) (sampleRateFactor r) (sampleRateMultiplier r)

/-! ### The span -/

lemma samplePeriod_nonneg (factor mult : ℤ) : 0 ≤ samplePeriod factor mult := by
  have hside : ∀ x : ℤ, (0 : ℚ) ≤ if x > 0 then 1 / (x : ℚ) else -x := by
    intro x
    split_ifs with h
    · positivity
    · have hx : (x : ℚ) ≤ 0 := by exact_mod_cast not_lt.mp h
      linarith
  exact mul_nonneg (hside factor) (hside mult)

/-- The rate of the source is the inverse of the interval. -/
lemma sampleRate_eq {factor mult : ℤ} (hf : factor ≠ 0) (hm : mult ≠ 0) :
    sampleRate factor mult = (samplePeriod factor mult)⁻¹ := by
  have hfq : (factor : ℚ) ≠ 0 := by exact_mod_cast hf
  have hmq : (mult : ℚ) ≠ 0 := by exact_mod_cast hm
  rcases lt_or_gt_of_ne hf with hf' | hf' <;> rcases lt_or_gt_of_ne hm with hm' | hm' <;>
    simp only [sampleRate, samplePeriod, gt_iff_lt, hf', hm', hf'.not_gt, hm'.not_gt, and_self,
      and_true, and_false, if_true, if_false] <;>
    push_cast <;> field_simp

lemma exactSpan_nonneg {samples : ℤ} (h : 0 ≤ samples) (factor mult : ℤ) :
    0 ≤ exactSpan samples factor mult := by
  have hperiod := samplePeriod_nonneg factor mult
  unfold exactSpan
  split_ifs
  · exact le_rfl
  · exact Int.floor_nonneg.mpr (by positivity)

/-- The span of the source is the exact one where an `int` holds it. -/
lemma spanTenthMsec_eq (plat : Platform) {samples : ℤ} (h : 0 ≤ samples) (factor mult : ℤ) :
    spanTenthMsec plat samples factor mult =
      if exactSpan samples factor mult < 2 ^ 31 then exactSpan samples factor mult
      else plat.intOfHuge (exactSpan samples factor mult) := by
  have hnonneg := exactSpan_nonneg h factor mult
  by_cases hzero : factor = 0 ∨ mult = 0
  · have hz : ¬ (factor ≠ 0 ∧ mult ≠ 0) := by tauto
    simp [spanTenthMsec, exactSpan, hz, hzero]
  · obtain ⟨hf, hm⟩ := not_or.mp hzero
    have hperiod := samplePeriod_nonneg factor mult
    have hspan : (samples : ℚ) / sampleRate factor mult * 10000
        = (samples : ℚ) * samplePeriod factor mult * 10000 := by
      rw [sampleRate_eq hf hm, div_inv_eq_mul]
    have hnotneg : ¬ (samples : ℚ) * samplePeriod factor mult * 10000 < 0 :=
      not_lt.mpr (by positivity)
    simp only [exactSpan, hzero, if_false] at hnonneg ⊢
    simp only [spanTenthMsec, hf, hm, ne_eq, not_false_eq_true, and_self, if_true, hspan,
      intOfDouble, hnotneg, if_false]
    have hlow : (-2 ^ 31 : ℤ) ≤ ⌊(samples : ℚ) * samplePeriod factor mult * 10000⌋ := by linarith
    have hfloor : ∀ q : ℚ, q.floor = ⌊q⌋ := fun _ => rfl
    simp only [hfloor, hlow, true_and]

/-! ### The end -/

/-- Splitting a span into days, hours, minutes, seconds and tenth-milliseconds keeps its length. -/
lemma split_total (span : ℤ) :
    (DeltaT2.mk (((span.tdiv 10000).tdiv 60).tdiv 60 |>.tdiv 24)
      (((span.tdiv 10000).tdiv 60).tdiv 60 |>.tmod 24) (((span.tdiv 10000).tdiv 60).tmod 60)
      ((span.tdiv 10000).tmod 60) (span.tmod 10000)).total = span := by
  have h1 := Int.tmod_add_mul_tdiv span 10000
  have h2 := Int.tmod_add_mul_tdiv (span.tdiv 10000) 60
  have h3 := Int.tmod_add_mul_tdiv ((span.tdiv 10000).tdiv 60) 60
  have h4 := Int.tmod_add_mul_tdiv (((span.tdiv 10000).tdiv 60).tdiv 60) 24
  simp only [DeltaT2.total]
  linarith

/-- Adding a span of 32 bits to a time of the century gives the valid time at its place. -/
lemma endOfSpan_spec {start : StdTime2} (hv : start.Valid) (hc : start.InCentury) {span : ℤ}
    (hspan : span < 2 ^ 31) :
    (endOfSpan start span).Valid ∧ (endOfSpan start span).place = start.place + span := by
  have hplace := (hv.inCentury_iff.mp hc).2
  have hroom : yearPlace 2100 + 2 ^ 31 < yearPlace 4000 := by decide
  have htotal := split_total span
  have hspec := stAddToTime2_spec start _ _ _ _ _ (by rw [htotal]; linarith)
  rwa [htotal] at hspec

/-- A header whose end time is the start time plus the length of the record. -/
structure EndsRight (plat : Platform) (r : Bytes) : Prop where
  valid : (parseSeedHeader plat r).recEnd.Valid
  place : (parseSeedHeader plat r).recEnd.place = (headerStart r).place + recordSpan r
  not_before : ¬ (parseSeedHeader plat r).recEnd.Before (parseSeedHeader plat r).recStart

lemma ntohsAt_nonneg (r : Bytes) (i : ℕ) : 0 ≤ ntohsAt r i := by
  simp only [ntohsAt, byteAt]
  positivity

/-- The end time, from the exact length of the record. -/
lemma recEnd_eq (plat : Platform) (r : Bytes) :
    (parseSeedHeader plat r).recEnd = endOfSpan (headerStart r)
      (if recordSpan r < 2 ^ 31 then recordSpan r else plat.intOfHuge (recordSpan r)) := by
  simp only [parseSeedHeader, spanTenthMsec_eq plat (ntohsAt_nonneg r 30)]
  rfl

/-- The end time is right exactly when an `int` of tenth-milliseconds holds the length. -/
theorem endsRight_iff {plat : Platform}
    (hint : ∀ x : ℤ, -2 ^ 31 ≤ plat.intOfHuge x ∧ plat.intOfHuge x < 2 ^ 31) {r : Bytes}
    (hv : (headerStart r).Valid) (hc : (headerStart r).InCentury) :
    EndsRight plat r ↔ recordSpan r < 2 ^ 31 := by
  have hnonneg : 0 ≤ recordSpan r := exactSpan_nonneg (ntohsAt_nonneg r 30) _ _
  have hend := recEnd_eq plat r
  constructor
  · rintro ⟨-, hplace, -⟩
    by_contra hhuge
    rw [hend, if_neg hhuge, (endOfSpan_spec hv hc (hint _).2).2] at hplace
    have hlt := (hint (recordSpan r)).2
    linarith
  · intro hspan
    rw [if_pos hspan] at hend
    obtain ⟨hvalid, hplace⟩ := endOfSpan_spec hv hc hspan
    refine ⟨by rwa [hend], by rw [hend, hplace], ?_⟩
    rw [hend]
    intro hbefore
    have hlt := (hvalid.before_iff hv).mp hbefore
    linarith

/-- The fixed header of a record that starts at midnight of the first of January 2024. -/
def slowRecord (samples factor mult : UInt8 × UInt8) : Bytes :=
  List.replicate 20 48 ++ [7, 232, 0, 1, 0, 0, 0, 0, 0, 0]
    ++ [samples.1, samples.2, factor.1, factor.2, mult.1, mult.2]

lemma headerStart_slowRecord (samples factor mult : UInt8 × UInt8) :
    headerStart (slowRecord samples factor mult) = ⟨2024, 1, 0, 0, 0, 0⟩ := by
  have hbyte : ∀ i < 30, byteAt (slowRecord samples factor mult) i
      = byteAt (List.replicate 20 48 ++ [7, 232, 0, 1, 0, 0, 0, 0, 0, 0]) i := by
    intro i hi
    simp only [byteAt, slowRecord]
    rw [List.getD_eq_getElem?_getD, List.getElem?_append_left (by simpa using hi),
      ← List.getD_eq_getElem?_getD]
  simp only [headerStart, ntohsAt, Nat.reduceAdd, hbyte, Nat.reduceLT]
  decide

lemma valid_slowRecord (samples factor mult : UInt8 × UInt8) :
    (headerStart (slowRecord samples factor mult)).Valid := by
  rw [headerStart_slowRecord]
  refine ⟨⟨?_, ?_⟩, ?_, ?_, ?_, ?_⟩ <;> decide

lemma inCentury_slowRecord (samples factor mult : UInt8 × UInt8) :
    (headerStart (slowRecord samples factor mult)).InCentury := by
  rw [headerStart_slowRecord]
  exact ⟨by decide, by decide⟩

/-- One sample a minute for 1000 minutes. -/
theorem endsRight_iff_minutes :
    EndsRight hostConfig.plat (slowRecord (3, 232) (255, 196) (0, 1)) ↔
      recordSpan (slowRecord (3, 232) (255, 196) (0, 1)) < 2 ^ 31 :=
  endsRight_iff (fun x => ⟨le_rfl, by norm_num [hostConfig]⟩) (valid_slowRecord _ _ _)
    (inCentury_slowRecord _ _ _)

/-- One sample a minute for 4000 minutes. -/
lemma recordSpan_slow : recordSpan (slowRecord (15, 160) (255, 196) (0, 1)) = 2400000000 := by
  have hsamples : ntohsAt (slowRecord (15, 160) (255, 196) (0, 1)) 30 = 4000 := by decide
  have hfactor : sampleRateFactor (slowRecord (15, 160) (255, 196) (0, 1)) = -60 := by decide
  have hmult : sampleRateMultiplier (slowRecord (15, 160) (255, 196) (0, 1)) = 1 := by decide
  norm_num [recordSpan, exactSpan, samplePeriod, hsamples, hfactor, hmult]

/-- Such a record ends before it starts. -/
theorem endsRight_slow :
    (headerStart (slowRecord (15, 160) (255, 196) (0, 1))).Valid ∧
      (headerStart (slowRecord (15, 160) (255, 196) (0, 1))).InCentury ∧
      ¬ EndsRight hostConfig.plat (slowRecord (15, 160) (255, 196) (0, 1)) := by
  refine ⟨valid_slowRecord _ _ _, inCentury_slowRecord _ _ _, ?_⟩
  intro h
  apply h.not_before
  rw [recEnd_eq, recordSpan_slow, if_neg (by norm_num)]
  have hyear : (endOfSpan (headerStart (slowRecord (15, 160) (255, 196) (0, 1)))
      (hostConfig.plat.intOfHuge 2400000000)).year = 2023 := by decide
  exact Or.inl (by rw [hyear]; decide)

end StationProcessor
