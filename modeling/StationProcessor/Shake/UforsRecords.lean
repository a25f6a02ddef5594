import StationProcessor.Shake.MsrPack
import StationProcessor.Shake.Ufors

/-!
# Records of the rotation sensor

`collectData` with the `msr_pack` of the library. `record_handler` shifts the array of samples that
`msr_pack` is reading from; that does no harm, because no call makes a second record. The records
decode to the samples that the calls were given.
-/

namespace StationProcessor

namespace Shake

open BitField

/-! ### The program -/

/-- The array of samples that `msr_pack` is given. -/
def samplesOf (given : List ℤ) (i : ℕ) : BitVec 32 := BitVec.ofInt 32 (given.getD i 0)

/-- The byte order of the records is big-endian on every host. -/
def bigEndian (bigHost : Bool) : Swapping := ⟨bigHost, !bigHost⟩

/-- What happens when bytes are read, and what stands in the memory for a record. -/
structure RecordEvent where
  more : ℕ
  gps : Option UInt8
  gap : Bool
  rawrec : ℕ → Frame

/-- A call of `msr_pack`, whether there was no error, and the records it made. -/
structure PackResult where
  call : PackCall
  ok : Bool
  records : List PackedRecord

/-- The variables of `collectData` with those that `msr` keeps from call to call, and the calls so
far. -/
structure UforsRun where
  ufors : Ufors
  sequenceNumber : ℕ
  ststate : StreamState
  results : List PackResult

def UforsRun.init (stream : Bytes) : UforsRun where
  ufors := .init stream
  sequenceNumber := 1
  ststate := ⟨0, 0, 0, false⟩
  results := []

/-- The call of `msr_pack`: the header with its two blockettes is of 64 bytes. -/
def UforsRun.msrPack (bigHost : Bool) (r : UforsRun) (rawrec : ℕ → Frame) (given : List ℤ) :
    Bool × MsrPack :=
  Shake.msrPack (bigEndian bigHost) .steim2 512 64 rawrec (samplesOf given) given.length
    r.sequenceNumber r.ststate false

/-- `samples_in_record` of each record. -/
def samplesInRecords (records : List PackedRecord) : List ℕ :=
  records.map fun r => r.numsamples.toNat

/-- A call with a positive number of samples, as far as `msr_pack` goes. -/
lemma UforsRun.msrPack_spec (bigHost : Bool) (r : UforsRun) (rawrec : ℕ → Frame) {given : List ℤ}
    (hpos : 0 < given.length) :
    PackedTo (bigEndian bigHost) .steim2 (samplesOf given) 7 (firstNumber r.sequenceNumber)
        r.ststate (r.msrPack bigHost rawrec given).2 ∧
      Ends .steim2 (samplesOf given) given.length 735 false r.ststate
        (r.msrPack bigHost rawrec given) :=
  Shake.msrPack_spec (bigEndian bigHost) .steim2 rawrec (samplesOf given) r.sequenceNumber r.ststate
    false (by decide) (by decide) (by norm_num) (by norm_num) hpos

/-- The library packs no more samples than it is given. -/
lemma UforsRun.sum_le (bigHost : Bool) (r : UforsRun) (rawrec : ℕ → Frame) (given : List ℤ) :
    (samplesInRecords (r.msrPack bigHost rawrec given).2.records).sum ≤ given.length := by
  rcases Nat.eq_zero_or_pos given.length with hzero | hpos
  · simp [UforsRun.msrPack, Shake.msrPack, hzero, samplesInRecords]
  · obtain ⟨hpacked, hends⟩ := r.msrPack_spec bigHost rawrec hpos
    rw [samplesInRecords, hpacked.counts]
    exact hends.le

/-- The library, as `collectData` sees it. -/
def UforsRun.packer (bigHost : Bool) (r : UforsRun) (rawrec : ℕ → Frame) : Packer where
  counts given := samplesInRecords (r.msrPack bigHost rawrec given).2.records
  sum_le := r.sum_le bigHost rawrec

/-- A `read` and what follows it. -/
def recordStep (bigHost : Bool) (r : UforsRun) (e : RecordEvent) : Option UforsRun :=
  (readStep r.ufors ⟨e.more, ⟨e.gps, e.gap, r.packer bigHost e.rawrec⟩⟩).map
    fun (ufors, call) =>
      match call with
      | none => { r with ufors := ufors }
      | some call =>
        let result := r.msrPack bigHost e.rawrec call.given
        { ufors := ufors
          sequenceNumber := result.2.sequenceNumber
          ststate := result.2.ststate
          results := r.results ++ [⟨call, result.1, result.2.records⟩] }

/-- A run of `collectData`; `none` when the array of samples is too small. -/
def collectRecords (bigHost : Bool) (r : UforsRun) (events : List RecordEvent) :
    Option UforsRun :=
  events.foldlM (recordStep bigHost) r

/-! ### Samples -/

/-- The numbers of 24 bits. -/
def SampleRange (x : ℤ) : Prop := -2 ^ 23 ≤ x ∧ x < 2 ^ 23

lemma byteAt_range (r : Bytes) (i : ℕ) : 0 ≤ byteAt r i ∧ byteAt r i < 256 := by
  have hlt := (r.getD i 0).toNat_lt
  rw [byteAt]
  omega

lemma sampleRange_sampleValue (frame : Bytes) : SampleRange (sampleValue frame) := by
  have hlo := Int.le_bmod (x := byteAt frame 0) (m := 256) (by norm_num)
  have hhi := Int.bmod_lt (x := byteAt frame 0) (m := 256) (by norm_num)
  have h1 := byteAt_range frame 1
  have h2 := byteAt_range frame 2
  simp only [SampleRange, sampleValue, toByte]
  omega

section Samples

variable {s s' : Ufors} {e : ReadEvent} {call : Option PackCall}

lemma sampleRange_foldl_recordHandler (hs : ∀ i, SampleRange (s.sample i)) (counts : List ℕ) :
    ∀ i, SampleRange ((counts.foldl recordHandler s).sample i) := by
  induction counts generalizing s with
  | nil => exact hs
  | cons k counts ih =>
    refine ih fun i => ?_
    simp only [recordHandler]
    split_ifs
    · exact hs _
    · exact hs _

lemma collectFrame_samples {e : FrameEvent} {frame : Bytes} {call : PackCall}
    (h : collectFrame e frame s = some (s', call)) (hs : ∀ i, SampleRange (s.sample i)) :
    (∀ i, SampleRange (s'.sample i)) ∧ call.packed = (e.pack.counts call.given).sum ∧
      ∀ x ∈ call.given, SampleRange x := by
  unfold collectFrame at h
  split_ifs at h
  obtain ⟨rfl, rfl⟩ := Prod.mk.inj (Option.some.inj h)
  have hstore : ∀ i,
      SampleRange ((storeSample e (sampleValue frame) (checkTime e s)).sample i) := by
    intro i
    simp only [storeSample, checkTime, Function.update_apply]
    split_ifs
    · exact sampleRange_sampleValue frame
    · exact hs i
  refine ⟨sampleRange_foldl_recordHandler hstore _, rfl, fun x hx => ?_⟩
  obtain ⟨i, -, rfl⟩ := List.mem_map.mp hx
  exact hstore i

/-- A read keeps the samples in their range, and says how many of them are packed. -/
lemma readStep_samples (hs : ∀ i, SampleRange (s.sample i)) (h : readStep s e = some (s', call)) :
    (∀ i, SampleRange (s'.sample i)) ∧ ∀ c, call = some c →
      c.packed = (e.frame.pack.counts c.given).sum ∧ ∀ x ∈ c.given, SampleRange x := by
  simp only [readStep] at h
  split_ifs at h
  · obtain ⟨⟨t, c⟩, hcollect, heq⟩ := Option.map_eq_some_iff.mp h
    obtain ⟨rfl, rfl⟩ := Prod.mk.inj heq
    obtain ⟨hsamples, hpacked⟩ := collectFrame_samples hcollect hs
    refine ⟨hsamples, fun c' hc => ?_⟩
    obtain rfl := Option.some.inj hc
    exact hpacked
  · obtain ⟨rfl, rfl⟩ := Prod.mk.inj (Option.some.inj h)
    exact ⟨hs, by simp⟩
  · obtain ⟨rfl, rfl⟩ := Prod.mk.inj (Option.some.inj h)
    exact ⟨hs, by simp⟩

/-- There is a place for the next sample. -/
lemma readStep_isSome (hfew : s.iMeasureCount ≤ 735) (e : ReadEvent) :
    ∃ s' call, readStep s e = some (s', call) := by
  simp only [readStep]
  split_ifs
  · rw [collectFrame, if_neg (by simp only [sampleSize]; omega)]
    exact ⟨_, _, rfl⟩
  · exact ⟨_, _, rfl⟩
  · exact ⟨_, _, rfl⟩

end Samples

/-- The difference of two samples is of 25 bits. -/
lemma fits_sub {a b : BitVec 32} (ha : SampleRange a.toInt) (hb : SampleRange b.toInt) :
    Fits 30 (a - b) := by
  obtain ⟨halo, hahi⟩ := ha
  obtain ⟨hblo, hbhi⟩ := hb
  rw [Fits, BitVec.toInt_sub, Int.bmod_eq_of_le (by omega) (by omega)]
  omega

section Given

variable {given : List ℤ}

lemma toInt_samplesOf (hgiven : ∀ x ∈ given, SampleRange x) (i : ℕ) :
    (samplesOf given i).toInt = given.getD i 0 ∧ SampleRange (given.getD i 0) := by
  have hrange : SampleRange (given.getD i 0) := by
    rw [List.getD_eq_getElem?_getD]
    cases hx : given[i]? with
    | none => norm_num [SampleRange]
    | some x => exact hgiven x (List.mem_of_getElem? hx)
  obtain ⟨hlo, hhi⟩ := hrange
  refine ⟨?_, hlo, hhi⟩
  rw [samplesOf, BitVec.toInt_ofInt]
  exact Int.bmod_eq_of_le (by omega) (by omega)

lemma sampleRange_samplesOf (hgiven : ∀ x ∈ given, SampleRange x) (i : ℕ) :
    SampleRange (samplesOf given i).toInt := by
  obtain ⟨heq, hrange⟩ := toInt_samplesOf hgiven i
  rwa [heq]

lemma map_toInt_samplesOf (hgiven : ∀ x ∈ given, SampleRange x) {k : ℕ} (hk : k ≤ given.length) :
    ((List.range k).map (samplesOf given)).map BitVec.toInt = given.take k := by
  apply List.ext_getElem
  · simp [hk]
  · intro i hi hi'
    have hlt : i < given.length := by
      rw [List.length_take] at hi'
      omega
    rw [List.getElem_map, List.getElem_map, List.getElem_range, List.getElem_take,
      (toInt_samplesOf hgiven i).1, List.getD_eq_getElem?_getD, List.getElem?_eq_getElem hlt,
      Option.getD_some]

/-- What a call of `msr_pack` does. -/
structure PackResult.Right (bigHost : Bool) (result : PackResult) : Prop where
  ok : result.ok = true
  given_le : result.call.given.length ≤ 736
  records_le : result.records.length ≤ 1
  left_le : result.call.given.length ≤ result.call.packed + 735
  decodes : ∃ pieces, Hold (bigEndian bigHost) .steim2 448 result.records pieces ∧
    pieces.flatten.map BitVec.toInt = result.call.given.take result.call.packed

/-- Packing the samples of the sensor never fails, and makes one record at most. -/
lemma UforsRun.right (bigHost : Bool) {r : UforsRun} (rawrec : ℕ → Frame) {call : PackCall}
    (hlast : SampleRange r.ststate.lastintsample.toInt) (hpos : 0 < call.given.length)
    (hle : call.given.length ≤ 736) (hgiven : ∀ x ∈ call.given, SampleRange x)
    (hpacked : call.packed = ((r.packer bigHost rawrec).counts call.given).sum) :
    PackResult.Right bigHost ⟨call, (r.msrPack bigHost rawrec call.given).1,
        (r.msrPack bigHost rawrec call.given).2.records⟩ ∧
      SampleRange (r.msrPack bigHost rawrec call.given).2.ststate.lastintsample.toInt := by
  obtain ⟨hto, hends⟩ := r.msrPack_spec bigHost rawrec hpos
  have htotal : call.packed =
      (r.msrPack bigHost rawrec call.given).2.totalpackedsamples := hpacked.trans hto.counts
  have hok : (r.msrPack bigHost rawrec call.given).1 = true := by
    by_contra herror
    obtain ⟨-, i, -, hfits⟩ := hends.error (Bool.eq_false_iff.mpr herror)
    apply hfits
    rw [difference, StreamState.d0]
    split_ifs
    · exact fits_sub (sampleRange_samplesOf hgiven 0) hlast
    · decide
    · exact fits_sub (sampleRange_samplesOf hgiven i) (sampleRange_samplesOf hgiven (i - 1))
  refine ⟨⟨hok, hle, ?_, ?_, ?_⟩, ?_⟩
  · have hfew : call.given.length ≤ 7 * Encoding.steim2.frameMaxSamples + (15 * 7 - 2) := by
      simp only [Encoding.frameMaxSamples]
      omega
    exact length_records_msrPack _ _ _ _ _ _ (by decide) (by decide) (by norm_num) (by norm_num)
      hpos hfew
  · rw [htotal]
    exact hends.left hok
  · obtain ⟨pieces, hhold, hflatten⟩ := hto.hold
    refine ⟨pieces, hhold, ?_⟩
    rw [hflatten, htotal]
    exact map_toInt_samplesOf hgiven hends.le
  · rcases hto.keeps with ⟨-, hst⟩ | ⟨-, -, hkept⟩
    · rw [hst]
      exact hlast
    · rw [hkept]
      exact sampleRange_samplesOf hgiven _

end Given

/-! ### Runs -/

/-- The values that were stored since a run of samples was started. -/
def storedSince (results : List PackResult) : List ℤ :=
  results.foldl (fun stored result =>
    (if result.call.started then [] else stored) ++ [result.call.last]) []

/-- The values in the records since then. -/
def recordedSince (results : List PackResult) : List ℤ :=
  results.foldl (fun recorded result =>
    (if result.call.started then [] else recorded)
      ++ result.call.given.take result.call.packed) []

/-- What holds after every step: there is room for the next sample, the samples are of 24 bits, what
was stored is in the records or still in the array, and the records are numbered. -/
structure Collecting (bigHost : Bool) (r : UforsRun) : Prop where
  room : r.ufors.buffer.length < 5
  few : r.ufors.iMeasureCount ≤ 735
  samples : ∀ i, SampleRange (r.ufors.sample i)
  last : SampleRange r.ststate.lastintsample.toInt
  right : ∀ result ∈ r.results, result.Right bigHost
  stored : storedSince r.results = recordedSince r.results ++ r.ufors.given
  numbers : (r.results.flatMap PackResult.records).map PackedRecord.sequenceNumber =
    (List.range (r.results.flatMap PackResult.records).length).map (recordNumber 1)
  next : r.sequenceNumber = recordNumber 1 (r.results.flatMap PackResult.records).length

lemma firstNumber_recordNumber (first i : ℕ) :
    firstNumber (recordNumber first i) = recordNumber first i := by
  rw [firstNumber, if_neg]
  simp only [recordNumber]
  omega

lemma recordNumber_recordNumber (first i j : ℕ) :
    recordNumber (recordNumber first i) j = recordNumber first (i + j) := by
  simp only [recordNumber]
  omega

variable {bigHost : Bool} {r : UforsRun}

/-- A step of the run. -/
lemma Collecting.step (h : Collecting bigHost r) (e : RecordEvent) :
    ∃ r', recordStep bigHost r e = some r' ∧ Collecting bigHost r' := by
  obtain ⟨s', call, hstep⟩ :=
    readStep_isSome h.few ⟨e.more, ⟨e.gps, e.gap, r.packer bigHost e.rawrec⟩⟩
  obtain ⟨got, rest, -, hcases⟩ := readStep_cases h.room hstep
  obtain ⟨hsamples, hcall⟩ := readStep_samples h.samples hstep
  have hroom := (hcases.frames []).2
  have hcount := length_given s'
  have hcount' := length_given r.ufors
  have hfew := h.few
  refine ⟨_, by rw [recordStep, hstep]; rfl, ?_⟩
  cases hcases with
  | waits _ _ given _ =>
    rw [given] at hcount
    refine ⟨hroom, by simp only; omega, hsamples, h.last, h.right, ?_, h.numbers, h.next⟩
    rw [given]
    exact h.stored
  | rejects _ _ given _ _ =>
    rw [given] at hcount
    refine ⟨hroom, by simp only; omega, hsamples, h.last, h.right, ?_, h.numbers, h.next⟩
    rw [given]
    exact h.stored
  | @recognises call _ _ given left _ _ _ =>
    obtain ⟨hpacked, hgiven⟩ := hcall call rfl
    have hlength := congrArg List.length given
    have hlength' := congrArg List.length left
    rw [List.length_append, List.length_singleton] at hlength
    rw [List.length_drop, hcount] at hlength'
    have hle : call.given.length ≤ 736 := by
      split_ifs at hlength
      · simp only [List.length_nil] at hlength
        omega
      · omega
    obtain ⟨hright, hlast⟩ := UforsRun.right bigHost e.rawrec h.last (by omega) hle hgiven hpacked
    obtain ⟨hto, -⟩ := r.msrPack_spec bigHost e.rawrec (show 0 < call.given.length by omega)
    have hleft := hright.left_le
    refine ⟨hroom, ?_, hsamples, hlast, ?_, ?_, ?_, ?_⟩
    · simp only at hleft ⊢
      omega
    · intro result hresult
      rcases List.mem_append.mp hresult with hresult | hresult
      · exact h.right result hresult
      · rw [List.mem_singleton.mp hresult]
        exact hright
    · simp only [storedSince, recordedSince, List.foldl_append, List.foldl_cons, List.foldl_nil]
      rw [left, List.append_assoc, List.take_append_drop, given]
      split_ifs
      · rfl
      · rw [← List.append_assoc]
        exact congrArg (· ++ [call.last]) h.stored
    · have hfirst := firstNumber_recordNumber 1 (r.results.flatMap PackResult.records).length
      have hnumbers := hto.numbers
      rw [h.next, hfirst] at hnumbers
      rw [List.flatMap_append, List.map_append, h.numbers, List.flatMap_singleton, hnumbers,
        List.length_append, List.range_add, List.map_append, List.map_map]
      congr 1
      exact List.map_congr_left fun i _ => recordNumber_recordNumber 1 _ i
    · have hfirst := firstNumber_recordNumber 1 (r.results.flatMap PackResult.records).length
      have hnext := hto.next
      rw [h.next, hfirst, recordNumber_recordNumber] at hnext
      rw [List.flatMap_append, List.flatMap_singleton, List.length_append]
      exact hnext

/-- A run of any length. -/
lemma Collecting.run (h : Collecting bigHost r) (events : List RecordEvent) :
    ∃ r', collectRecords bigHost r events = some r' ∧ Collecting bigHost r' := by
  induction events generalizing r with
  | nil => exact ⟨r, rfl, h⟩
  | cons e events ih =>
    obtain ⟨r', hstep, hnext⟩ := h.step e
    obtain ⟨last, hrun, hlast⟩ := ih hnext
    refine ⟨last, ?_, hlast⟩
    rw [collectRecords, List.foldlM_cons, hstep]
    exact hrun

end Shake

end StationProcessor
