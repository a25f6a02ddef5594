import StationProcessor.TimePrint

/-!
# Printing spans

`ST_DeltaPrint2` takes the sign out of a span with `ST_MinusDelta2` and prints what is left, with
days, hours and minutes only where there are any. Behind days it prints the seconds of the span
with its sign still in.
-/

namespace StationProcessor

open Decimal

/-! ### Printing -/

/-- `ST_MinusDelta2`, with the days in a `LONG` of `w` bits; they take part in sums only. -/
def stMinusDelta2Long (w : ℕ) (indelta : DeltaT2) : DeltaT2 :=
  { stMinusDelta2 indelta with nday := wrapLong w (stMinusDelta2 indelta).nday }

/-- `msprt`: the fraction, in full where a fixed format is asked for. -/
def spanFraction (fixms : Bool) (tenthMs : ℤ) : Bytes :=
  if fixms then 46 :: printPadded 4 tenthMs else printFraction tenthMs

/-- `osign` -/
def spanSign (minus printplusflag : Bool) : Bytes :=
  if minus then [45] else if printplusflag then [43] else []

/-- The fields of a span, with the seconds that are printed behind days. -/
def spanFields (fixms : Bool) (tdelta : DeltaT2) (nsec : ℤ) : Bytes :=
  let msprt := spanFraction fixms tdelta.ntenthMsecs
  if tdelta.nday > 0 then
    printInt (tdelta.nday.bmod (2 ^ 32)) ++ 44 :: (printInt tdelta.nhour ++
      58 :: (printPadded 2 tdelta.nmin ++ 58 :: (printPadded 2 nsec ++ msprt)))
  else if tdelta.nhour > 0 then
    printInt tdelta.nhour ++ 58 :: (printPadded 2 tdelta.nmin ++
      58 :: (printPadded 2 tdelta.nsec ++ msprt))
  else if tdelta.nmin > 0 then
    printInt tdelta.nmin ++ 58 :: (printPadded 2 tdelta.nsec ++ msprt)
  else printInt tdelta.nsec ++ msprt

/-- `ST_DeltaPrint2`. The seconds behind days are those of `delta`. -/
def stDeltaPrint2 (w : ℕ) (delta : DeltaT2) (printplusflag fixms : Bool) : Bytes :=
  let minus := decide (delta.nday < 0)
  let tdelta := if delta.nday < 0 then stMinusDelta2Long w delta else delta
  spanSign minus printplusflag ++ spanFields fixms tdelta delta.nsec

/-! ### Signs -/

/-- The texts of a span and of the negated one have the opposite signs and are equal behind them. -/
def SignReversed (w : ℕ) (d : DeltaT2) (printplusflag fixms : Bool) : Prop :=
  ∃ fields, stDeltaPrint2 w d printplusflag fixms
      = spanSign (decide (d.nday < 0)) printplusflag ++ fields ∧
    stDeltaPrint2 w (stMinusDelta2Long w d) printplusflag fixms
      = spanSign (decide (¬ d.nday < 0)) printplusflag ++ fields

/-- The days fit a `LONG`. -/
def DeltaT2.InLong (w : ℕ) (d : DeltaT2) : Prop := -2 ^ (w - 1) ≤ d.nday ∧ d.nday < 2 ^ (w - 1)

instance (w : ℕ) (d : DeltaT2) : Decidable (d.InLong w) := inferInstanceAs (Decidable (_ ∧ _))

/-- A day in tenth-milliseconds. -/
def dayLength : ℤ := 864000000

variable {w : ℕ} {d : DeltaT2}

lemma stMinusDelta2_normal (d : DeltaT2) : (stMinusDelta2 d).Normal := timenormd2_normal _

/-- The days of a normalised span. -/
lemma DeltaT2.Normal.nday_iff (hd : d.Normal) (k : ℤ) : d.nday < k ↔ d.total < k * dayLength := by
  obtain ⟨hlow, hhigh⟩ := hd.total_mem
  unfold dayLength
  constructor <;> intro h <;> omega

/-- Normalised spans of one length are equal. -/
lemma DeltaT2.Normal.eq_of_total {e : DeltaT2} (hd : d.Normal) (he : e.Normal)
    (h : d.total = e.total) : d = e := by
  obtain ⟨hh, hm, hs, hx⟩ := hd
  obtain ⟨hh', hm', hs', hx'⟩ := he
  simp only [DeltaT2.total] at h
  cases d
  cases e
  simp only [DeltaT2.mk.injEq] at *
  omega

lemma stMinusDelta2_stMinusDelta2 (hd : d.Normal) : stMinusDelta2 (stMinusDelta2 d) = d := by
  refine DeltaT2.Normal.eq_of_total (stMinusDelta2_normal _) hd ?_
  rw [stMinusDelta2_total, stMinusDelta2_total, neg_neg]

lemma wrapLong_of_fits (hw : 0 < w) {x : ℤ} (hlow : -2 ^ (w - 1) ≤ x) (hhigh : x < 2 ^ (w - 1)) :
    wrapLong w x = x := by
  obtain ⟨k, rfl⟩ := Nat.exists_eq_succ_of_ne_zero hw.ne'
  simp only [Nat.succ_sub_one] at hlow hhigh
  rw [wrapLong, Int.bmod_eq_of_le_mul_two] <;> push_cast [pow_succ] <;> linarith

/-- Only the least number of days cannot be negated. -/
lemma stMinusDelta2Long_eq (hw : 0 < w) (hd : d.Normal) (hlong : d.InLong w)
    (hleast : d.total ≠ -2 ^ (w - 1) * dayLength) :
    stMinusDelta2Long w d = stMinusDelta2 d ∧ (stMinusDelta2 d).InLong w := by
  have htotal := stMinusDelta2_total d
  have hday := (stMinusDelta2_normal d).nday_iff
  obtain ⟨hlow, hhigh⟩ := hlong
  have hlow' := (hd.nday_iff (-2 ^ (w - 1))).not.mp (not_lt.mpr hlow)
  have hhigh' := (hd.nday_iff (2 ^ (w - 1))).mp hhigh
  have hless : -2 ^ (w - 1) * dayLength < d.total := lt_of_le_of_ne (not_lt.mp hlow') hleast.symm
  have hin : (stMinusDelta2 d).InLong w := by
    constructor
    · refine not_lt.mp fun h => ?_
      have := (hday (-2 ^ (w - 1))).mp h
      linarith
    · refine (hday (2 ^ (w - 1))).mpr ?_
      linarith
  refine ⟨?_, hin⟩
  rw [stMinusDelta2Long, wrapLong_of_fits hw hin.1 hin.2]

/-- The seconds of a span are those of the negated one where they and the fraction are 0, or where
they are 30 and the fraction is 0. -/
lemma nsec_stMinusDelta2_iff (hd : d.Normal) :
    (stMinusDelta2 d).nsec = d.nsec ↔ d.ntenthMsecs = 0 ∧ (d.nsec = 0 ∨ d.nsec = 30) := by
  have hsecond := hd.second
  have htenth := hd.tenth
  have hnsec : (stMinusDelta2 d).nsec = (-d.nsec + -d.ntenthMsecs / 10000) % 60 := by
    simp only [stMinusDelta2, timenormd2, carry_eq (by norm_num : (0 : ℤ) < 10000),
      carry_eq (by norm_num : (0 : ℤ) < 60), carry_eq (by norm_num : (0 : ℤ) < 24)]
  rw [hnsec]
  omega

lemma printPadded_inj {width : ℕ} {a b : ℤ} :
    printPadded width a = printPadded width b ↔ a = b := by
  constructor
  · intro h
    have hread := congrArg readInt h
    rwa [readInt_printPadded, readInt_printPadded, Option.some_inj] at hread
  · exact congrArg _

/-- The seconds behind days are seen only where there are days. -/
lemma spanFields_eq_iff {fixms : Bool} {a b : ℤ} :
    spanFields fixms d a = spanFields fixms d b ↔ (0 < d.nday → a = b) := by
  unfold spanFields
  by_cases hday : 0 < d.nday
  · simp only [gt_iff_lt, hday, if_true, List.append_cancel_left_eq, List.cons.injEq, true_and,
      List.append_cancel_right_eq, printPadded_inj, forall_const]
  · simp only [gt_iff_lt, hday, if_false, false_imp_iff]

/-- Opposite signs tell texts apart. -/
lemma spanSign_append_ne (printplusflag : Bool) (fields : Bytes) :
    spanSign true printplusflag ++ fields ≠ spanSign false printplusflag ++ fields := by
  intro h
  have hsign := List.append_cancel_right h
  cases printplusflag <;> cases hsign

section Print

variable {printplusflag fixms : Bool}

lemma stDeltaPrint2_of_neg (hneg : d.nday < 0) : stDeltaPrint2 w d printplusflag fixms
    = spanSign true printplusflag ++ spanFields fixms (stMinusDelta2Long w d) d.nsec := by
  simp only [stDeltaPrint2, hneg, decide_true, if_true]

lemma stDeltaPrint2_of_nonneg (hneg : ¬ d.nday < 0) : stDeltaPrint2 w d printplusflag fixms
    = spanSign false printplusflag ++ spanFields fixms d d.nsec := by
  simp only [stDeltaPrint2, hneg, decide_false, if_false]

/-- The least number of days is its own negation. -/
lemma stMinusDelta2Long_least (hw : 0 < w) (hd : d.Normal)
    (hleast : d.total = -2 ^ (w - 1) * dayLength) : stMinusDelta2Long w d = d := by
  have htotal := stMinusDelta2_total d
  have hnormal := stMinusDelta2_normal d
  have hday : (stMinusDelta2 d).nday = 2 ^ (w - 1) := by
    refine le_antisymm (Int.lt_add_one_iff.mp ((hnormal.nday_iff _).mpr ?_)) (not_lt.mp ?_)
    · rw [htotal, hleast, dayLength]
      linarith
    · rw [hnormal.nday_iff, htotal, hleast]
      linarith
  have hwrap : wrapLong w (2 ^ (w - 1)) = -2 ^ (w - 1) := by
    have hpos : (0 : ℤ) < 2 ^ (w - 1) := pow_pos two_pos _
    have hturn : -2 ^ (w - 1) + ((2 ^ w : ℕ) : ℤ) = 2 ^ (w - 1) := by
      obtain ⟨k, rfl⟩ := Nat.exists_eq_succ_of_ne_zero hw.ne'
      push_cast [Nat.succ_sub_one, pow_succ]
      ring
    calc wrapLong w (2 ^ (w - 1)) = wrapLong w (-2 ^ (w - 1) + ((2 ^ w : ℕ) : ℤ)) := by rw [hturn]
      _ = wrapLong w (-2 ^ (w - 1)) := Int.add_bmod_right _ _
      _ = -2 ^ (w - 1) := wrapLong_of_fits hw le_rfl (by linarith)
  have hlong : (stMinusDelta2Long w d).Normal :=
    ⟨hnormal.hour, hnormal.minute, hnormal.second, hnormal.tenth⟩
  refine hlong.eq_of_total hd ?_
  have hparts : (stMinusDelta2Long w d).total = (stMinusDelta2 d).total
      + (wrapLong w (stMinusDelta2 d).nday - (stMinusDelta2 d).nday) * dayLength := by
    simp only [DeltaT2.total, stMinusDelta2Long, dayLength]
    ring
  rw [hparts, hday, hwrap, htotal, hleast]
  ring

/-- Negating a span that is not the least number of days reverses the sign in its text exactly where
it is shorter than a day, or prints the same seconds as the negated one. -/
theorem deltaPrint_signReversed_iff (hw : 0 < w) (hd : d.Normal) (hlong : d.InLong w)
    (hne : d.total ≠ 0) (printplusflag fixms : Bool) :
    SignReversed w d printplusflag fixms ↔ d.total ≠ -2 ^ (w - 1) * dayLength ∧
      (|d.total| < dayLength ∨ d.ntenthMsecs = 0 ∧ (d.nsec = 0 ∨ d.nsec = 30)) := by
  have hnormal := stMinusDelta2_normal d
  have htotal := stMinusDelta2_total d
  have hzero := hd.nday_iff 0
  rw [zero_mul] at hzero
  by_cases hleast : d.total = -2 ^ (w - 1) * dayLength
  · have hneg : d.nday < 0 := by
      rw [hzero, hleast, dayLength]
      linarith [pow_pos (two_pos : (0 : ℤ) < 2) (w - 1)]
    refine iff_of_false ?_ fun h => h.1 hleast
    rintro ⟨fields, htext, htext'⟩
    rw [stMinusDelta2Long_least hw hd hleast, htext] at htext'
    simp only [hneg, decide_true, not_true_eq_false, decide_false] at htext'
    exact spanSign_append_ne printplusflag fields htext'
  obtain ⟨hminus, hlong'⟩ := stMinusDelta2Long_eq hw hd hlong hleast
  have hback : stMinusDelta2Long w (stMinusDelta2 d) = d := by
    have hgreatest := (hd.nday_iff (2 ^ (w - 1))).mp hlong.2
    rw [(stMinusDelta2Long_eq hw hnormal hlong' _).1, stMinusDelta2_stMinusDelta2 hd]
    rw [htotal]
    linarith
  have hzero' := hnormal.nday_iff 0
  rw [zero_mul, htotal] at hzero'
  rw [and_iff_right hleast, ← nsec_stMinusDelta2_iff hd, SignReversed, hminus]
  by_cases hneg : d.nday < 0
  · have hpos : ¬ (stMinusDelta2 d).nday < 0 := by
      rw [hzero']
      linarith [hzero.mp hneg]
    have hday := hnormal.nday_iff 1
    rw [one_mul, htotal] at hday
    simp only [stDeltaPrint2_of_neg hneg, stDeltaPrint2_of_nonneg hpos, hminus, hneg, decide_true,
      not_true_eq_false, decide_false, List.append_cancel_left_eq, exists_eq_left']
    rw [spanFields_eq_iff, abs_of_neg (hzero.mp hneg), ← hday]
    omega
  · have hpos : 0 < d.total := lt_of_le_of_ne (not_lt.mp (hzero.not.mp hneg)) hne.symm
    have hneg' : (stMinusDelta2 d).nday < 0 := hzero'.mpr (by linarith)
    have hday := hd.nday_iff 1
    rw [one_mul] at hday
    simp only [stDeltaPrint2_of_nonneg hneg, stDeltaPrint2_of_neg hneg', hback, hneg, decide_false,
      not_false_eq_true, decide_true, List.append_cancel_left_eq, exists_eq_left']
    rw [spanFields_eq_iff, abs_of_pos hpos, ← hday]
    omega

def anHour : DeltaT2 := ⟨0, 1, 0, 0, 0⟩

theorem deltaPrint_signReversed_iff_hour :
    SignReversed 64 anHour true false ↔ anHour.total ≠ -2 ^ (64 - 1) * dayLength ∧
      (|anHour.total| < dayLength ∨ anHour.ntenthMsecs = 0 ∧
        (anHour.nsec = 0 ∨ anHour.nsec = 30)) :=
  deltaPrint_signReversed_iff (by decide) ⟨by decide, by decide, by decide, by decide⟩ (by decide)
    (by decide) true false

/-- A day and ten seconds: behind the sign there are 50 seconds in one text and 10 in the other. -/
theorem deltaPrint_not_signReversed :
    ¬ ∀ (w : ℕ) (d : DeltaT2), 0 < w → d.Normal → d.InLong w → d.total ≠ 0 →
      ∀ printplusflag fixms, SignReversed w d printplusflag fixms := by
  intro hall
  obtain ⟨fields, htext, htext'⟩ := hall 64 ⟨1, 0, 0, 10, 0⟩ (by decide)
    ⟨by decide, by decide, by decide, by decide⟩ (by decide) (by decide) true false
  have hplus : stDeltaPrint2 64 ⟨1, 0, 0, 10, 0⟩ true false = ascii "+1,0:00:10" := by
    decide +kernel
  have hminus : stDeltaPrint2 64 (stMinusDelta2Long 64 ⟨1, 0, 0, 10, 0⟩) true false
      = ascii "-1,0:00:50" := by
    decide +kernel
  have hfields : ascii "1,0:00:10" = fields := congrArg List.tail (hplus.symm.trans htext)
  have hfields' : ascii "1,0:00:50" = fields := congrArg List.tail (hminus.symm.trans htext')
  exact absurd (hfields.trans hfields'.symm) (by decide)

end Print

end StationProcessor
