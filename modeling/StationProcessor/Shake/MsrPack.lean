import StationProcessor.Shake.SteimRoundTrip

/-!
# Records of compressed samples

`msr_pack` fills record after record with samples and hands each to `record_handler`. Without
`flush` it leaves the samples that may not fill a record for the next call; from one call to the
next the last sample is kept, for the first difference of the next record.
-/

namespace StationProcessor

namespace Shake

open BitField

/-! ### The program -/

/-- `DE_STEIM1` and `DE_STEIM2` -/
inductive Encoding
  | steim1
  | steim2
  deriving DecidableEq

/-- `STEIM1_FRAME_MAX_SAMPLES` and `STEIM2_FRAME_MAX_SAMPLES` -/
def Encoding.frameMaxSamples : Encoding → ℕ
  | .steim1 => 60
  | .steim2 => 105

def Encoding.packer (sw : Swapping) : Encoding → SteimPacker
  | .steim1 => Shake.steim1 sw
  | .steim2 => Shake.steim2 sw

/-- `StreamState` -/
structure StreamState where
  packedrecords : ℕ
  packedsamples : ℕ
  lastintsample : BitVec 32
  comphistory : Bool

/-- What `record_handler` gets: of the header the number of the record and of its samples. -/
structure PackedRecord where
  sequenceNumber : ℕ
  numsamples : BitVec 16
  dframes : ℕ → Frame

/-- The variables of `msr_pack`, and the records that it has handed on. -/
structure MsrPack where
  dframes : ℕ → Frame
  totalpackedsamples : ℕ
  sequenceNumber : ℕ
  ststate : StreamState
  records : List PackedRecord

/-- The difference to the sample before, if that is known. -/
def StreamState.d0 (st : StreamState) (intbuff : ℕ → BitVec 32) : BitVec 32 :=
  if st.comphistory then intbuff 0 - st.lastintsample else 0

/-- `msr_pack_data`: the frames, how many samples they hold and the last of these. -/
def msrPackData (sw : Swapping) (encoding : Encoding) (dest : ℕ → Frame) (src : ℕ → BitVec 32)
    (maxsamples maxdatabytes : ℕ) (st : StreamState) :
    Option ((ℕ → Frame) × ℕ × BitVec 32) :=
  (msrPackSteim sw (encoding.packer sw) dest src (st.d0 src) maxsamples (maxdatabytes / 64)
    true).map fun (dframes, _, packsamples) => (dframes, packsamples, src (packsamples - 1))

/-- Hand a record on and prepare the next one. -/
def MsrPack.handOn (s : MsrPack) (dframes : ℕ → Frame) (packsamples : ℕ)
    (lastintsample : BitVec 32) : MsrPack where
  dframes := dframes
  totalpackedsamples := s.totalpackedsamples + packsamples
  sequenceNumber := if s.sequenceNumber ≥ 999999 then 1 else s.sequenceNumber + 1
  ststate :=
    { packedrecords := s.ststate.packedrecords + 1
      packedsamples := s.ststate.packedsamples + packsamples
      lastintsample := lastintsample
      comphistory := true }
  records := s.records ++
    [{ sequenceNumber := s.sequenceNumber
       numsamples := BitVec.ofNat 16 packsamples
       dframes := dframes }]

/-- The packing loop of `msr_pack`, and whether it ended without an error. Each round packs at least
one sample. -/
def msrPackLoop (sw : Swapping) (encoding : Encoding) (data : ℕ → BitVec 32)
    (numsamples maxsamples maxdatabytes : ℕ) (flush : Bool) : ℕ → MsrPack → Bool × MsrPack
  | 0, s => (true, s)
  | rounds + 1, s =>
    if maxsamples < numsamples - s.totalpackedsamples ∨ flush = true then
      match msrPackData sw encoding s.dframes (fun i => data (s.totalpackedsamples + i))
        (numsamples - s.totalpackedsamples) maxdatabytes s.ststate with
      | none => (false, s)
      | some (dframes, packsamples, lastintsample) =>
        let s := s.handOn dframes packsamples lastintsample
        if numsamples ≤ s.totalpackedsamples then (true, s)
        else msrPackLoop sw encoding data numsamples maxsamples maxdatabytes flush rounds s
    else (true, s)

/-- The first multiple of 64 behind the header. -/
def dataOffset (headerlen : ℕ) : ℕ := max 64 ((headerlen + 63) / 64 * 64)

/-- `MINRECLEN` and `MAXRECLEN` -/
def reclenHolds (reclen : ℕ) : Bool := decide (256 ≤ reclen) && decide (reclen ≤ 1048576)

/-- `msr_pack` behind the checks of the header: whether there was no error, and the variables. -/
def msrPack (sw : Swapping) (encoding : Encoding) (reclen headerlen : ℕ) (rawrec : ℕ → Frame)
    (data : ℕ → BitVec 32) (numsamples : ℕ) (sequenceNumber : ℕ) (ststate : StreamState)
    (flush : Bool) : Bool × MsrPack :=
  let sequenceNumber :=
    if sequenceNumber = 0 ∨ 999999 < sequenceNumber then 1 else sequenceNumber
  let s : MsrPack := ⟨rawrec, 0, sequenceNumber, ststate, []⟩
  if reclenHolds reclen = false ∨ numsamples = 0 then (false, s)
  else
    let maxdatabytes := reclen - dataOffset headerlen
    let maxsamples := maxdatabytes / 64 * encoding.frameMaxSamples
    msrPackLoop sw encoding data numsamples maxsamples maxdatabytes flush numsamples s

/-- The decoder of an encoding, with what it notes. -/
def Encoding.decode (strictRIC : Bool) (bytes : ℕ → BitVec 8) (length numSamples : ℕ)
    (swapBytes : Bool) : Encoding → Option Decoded
  | .steim1 => (decode1 bytes length numSamples swapBytes 0).map fun samples =>
    ⟨samples, false, false⟩
  | .steim2 => decode2 strictRIC bytes length numSamples swapBytes 0

/-- The samples of a record, as it says how many they are. -/
def PackedRecord.decode (sw : Swapping) (encoding : Encoding) (strictRIC : Bool) (length : ℕ)
    (r : PackedRecord) : Option Decoded :=
  encoding.decode strictRIC (frameByte sw r.dframes) length r.numsamples.toNat sw.swapBytes

/-! ### One record -/

section Record

variable (sw : Swapping) (encoding : Encoding) (dest : ℕ → Frame) (src : ℕ → BitVec 32)
  {ns nf : ℕ} (st : StreamState)

/-- A record that holds the next samples: all of them, unless it is full. -/
structure RecordHolds (ns nf : ℕ) (dframes : ℕ → Frame) (N : ℕ) : Prop where
  pos : 0 < N
  le : N ≤ ns
  full : N < ns → 15 * nf - 2 ≤ N
  lt : N < 2 ^ 16
  decodes : ∀ strictRIC,
    encoding.decode strictRIC (frameByte sw dframes) (nf * 64) N sw.swapBytes =
      some ⟨(List.range N).map src, false, false⟩

variable (nf) in
lemma Encoding.faithful : ∃ dec most, Faithful sw (encoding.packer sw) dec ∧ dec.Roomy most ∧
    most ≤ 7 ∧ ∀ {ws : List PackedWord} {dframes : ℕ → Frame} {d0 : BitVec 32} {N : ℕ},
      Block sw dec src d0 ws dframes nf N → nf ≤ 63 → 0 < N → ∀ strictRIC,
        encoding.decode strictRIC (frameByte sw dframes) (nf * 64) N sw.swapBytes =
          some ⟨(List.range N).map src, false, false⟩ := by
  cases encoding with
  | steim1 =>
    refine ⟨decoder1, 4, faithful_steim1 sw, roomy_decoder1, by norm_num, ?_⟩
    intro ws dframes d0 N h _ hpos strictRIC
    rw [Encoding.decode, h.decode1_eq hpos (Or.inl rfl), Option.map_some]
  | steim2 =>
    refine ⟨decoder2, 7, faithful_steim2 sw, roomy_decoder2, le_rfl, ?_⟩
    intro ws dframes d0 N h hnf hpos strictRIC
    exact h.decode2_eq hnf hpos (Or.inl rfl) strictRIC

/-- A record holds the next samples; only Steim 2 can fail, for a difference of more than 30
bits. -/
lemma msrPackData_spec (hns : 0 < ns) (hnf : 0 < nf) (hnf' : nf ≤ 63) :
    (∃ dframes N, msrPackData sw encoding dest src ns (nf * 64) st =
        some (dframes, N, src (N - 1)) ∧ RecordHolds sw encoding src ns nf dframes N) ∨
    (msrPackData sw encoding dest src ns (nf * 64) st = none ∧ encoding = .steim2 ∧
      ∃ i < ns, ¬ Fits 30 (difference src (st.d0 src) i)) := by
  obtain ⟨dec, most, hfaithful, hroomy, hmost, hdecode⟩ := encoding.faithful sw src nf
  have hframes : nf * 64 / 64 = nf := Nat.mul_div_cancel nf (by norm_num)
  rcases msrPackSteim_spec hfaithful dest src (st.d0 src) hnf hns true with
    ⟨ws, dframes, n, N, heq, hblock, hpos, hle, hn, hpad, hfull⟩ | ⟨heq, i, hi, hstuck⟩
  · left
    have hpacked := packed_of_block sw src (st.d0 src) hblock hroomy hpos hle hn hpad hfull
    obtain rfl := hpad rfl
    refine ⟨dframes, N, ?_, hpos, hle, hpacked.full, ?_, hdecode hblock hnf' hpos⟩
    · rw [msrPackData, hframes, heq]
      rfl
    · have hroom := hpacked.room.trans (Nat.mul_le_mul_right _ hmost)
      omega
  · right
    refine ⟨?_, ?_, i, hi, ?_⟩
    · rw [msrPackData, hframes, heq]
      rfl
    · cases encoding with
      | steim1 => exact absurd hstuck (not_stuck_steim1 _)
      | steim2 => rfl
    · cases encoding with
      | steim1 => exact absurd hstuck (not_stuck_steim1 _)
      | steim2 => exact hstuck.not_fits

end Record

/-! ### All records -/

section Records

variable {sw : Swapping} {encoding : Encoding} {data : ℕ → BitVec 32} {numsamples nf first : ℕ}
  {maxsamples : ℕ} {flush : Bool} {st : StreamState} {s : MsrPack}

/-- The samples that the records hold, record by record. -/
structure Hold (sw : Swapping) (encoding : Encoding) (length : ℕ) (records : List PackedRecord)
    (pieces : List (List (BitVec 32))) : Prop where
  decodes : ∀ strictRIC, records.map (PackedRecord.decode sw encoding strictRIC length) =
    pieces.map fun piece => some ⟨piece, false, false⟩
  ne_nil : ∀ piece ∈ pieces, piece ≠ []

/-- The number of record `i`; behind 999999 comes 1. -/
def recordNumber (first i : ℕ) : ℕ := (first - 1 + i) % 999999 + 1

/-- The last sample, if any was packed, is kept. -/
def Keeps (data : ℕ → BitVec 32) (st : StreamState) (s : MsrPack) : Prop :=
  s.totalpackedsamples = 0 ∧ s.ststate = st ∨
    0 < s.totalpackedsamples ∧ s.ststate.comphistory = true ∧
      s.ststate.lastintsample = data (s.totalpackedsamples - 1)

/-- The next difference is the one to the last sample. -/
lemma Keeps.difference_eq (h : Keeps data st s) (i : ℕ) :
    difference (fun i => data (s.totalpackedsamples + i))
        (s.ststate.d0 fun i => data (s.totalpackedsamples + i)) i =
      difference data (st.d0 data) (s.totalpackedsamples + i) := by
  rcases h with ⟨hzero, hst⟩ | ⟨hpos, hhistory, hlast⟩
  · simp [hzero, hst]
  · have hlater : ¬ s.totalpackedsamples + i = 0 := by omega
    rw [StreamState.d0, if_pos hhistory, hlast, difference, difference, if_neg hlater]
    by_cases hi : i = 0
    · rw [if_pos hi, hi, Nat.add_zero]
    · rw [if_neg hi, Nat.add_sub_assoc (Nat.pos_of_ne_zero hi)]

/-- What has been packed: the records hold the samples so far, and are numbered. -/
structure PackedTo (sw : Swapping) (encoding : Encoding) (data : ℕ → BitVec 32) (nf first : ℕ)
    (st : StreamState) (s : MsrPack) : Prop where
  hold : ∃ pieces, Hold sw encoding (nf * 64) s.records pieces ∧
    pieces.flatten = (List.range s.totalpackedsamples).map data
  numbers : s.records.map PackedRecord.sequenceNumber =
    (List.range s.records.length).map (recordNumber first)
  next : s.sequenceNumber = recordNumber first s.records.length
  counts : (s.records.map fun r => r.numsamples.toNat).sum = s.totalpackedsamples
  keeps : Keeps data st s

@[simp] lemma MsrPack.handOn_totalpackedsamples (s : MsrPack) (dframes : ℕ → Frame) (N : ℕ)
    (x : BitVec 32) :
    (s.handOn dframes N x).totalpackedsamples = s.totalpackedsamples + N := rfl

lemma PackedTo.handOn (h : PackedTo sw encoding data nf first st s) {dframes : ℕ → Frame} {ns N : ℕ}
    (hrecord : RecordHolds sw encoding (fun i => data (s.totalpackedsamples + i)) ns nf dframes N) :
    PackedTo sw encoding data nf first st
      (s.handOn dframes N (data (s.totalpackedsamples + (N - 1)))) := by
  obtain ⟨pieces, ⟨hdecodes, hne⟩, hflatten⟩ := h.hold
  have hpos := hrecord.pos
  have hnumsamples : (BitVec.ofNat 16 N).toNat = N := by
    rw [BitVec.toNat_ofNat, Nat.mod_eq_of_lt hrecord.lt]
  refine ⟨⟨pieces ++ [(List.range N).map fun i => data (s.totalpackedsamples + i)],
    ⟨fun strictRIC => ?_, fun p hp => ?_⟩, ?_⟩, ?_, ?_, ?_, ?_⟩
  · rw [MsrPack.handOn, List.map_append, hdecodes, List.map_append, List.map_singleton,
      List.map_singleton, PackedRecord.decode, hnumsamples, hrecord.decodes]
  · rcases List.mem_append.mp hp with hp | hp
    · exact hne p hp
    · rw [List.mem_singleton.mp hp]
      simpa using hpos.ne'
  · rw [MsrPack.handOn_totalpackedsamples, List.flatten_append, hflatten, List.flatten_singleton,
      List.range_add, List.map_append, List.map_map]
    rfl
  · rw [MsrPack.handOn, List.map_append, h.numbers, List.length_append, List.length_singleton,
      List.range_succ, List.map_append, List.map_singleton, List.map_singleton, h.next]
  · have hnext := h.next
    simp only [MsrPack.handOn, List.length_append, List.length_singleton, recordNumber] at hnext ⊢
    split_ifs with hend <;> omega
  · rw [MsrPack.handOn, List.map_append, List.sum_append, h.counts, List.map_singleton,
      List.sum_singleton, hnumsamples]
  · right
    rw [MsrPack.handOn_totalpackedsamples, Nat.add_sub_assoc hpos]
    exact ⟨by omega, rfl, rfl⟩

/-- How the loop ends: with all samples packed, with too few left for a record that is certainly
full, or with an error. -/
structure Ends (encoding : Encoding) (data : ℕ → BitVec 32) (numsamples maxsamples : ℕ)
    (flush : Bool) (st : StreamState) (result : Bool × MsrPack) : Prop where
  le : result.2.totalpackedsamples ≤ numsamples
  left : result.1 = true → numsamples ≤ result.2.totalpackedsamples + maxsamples
  flushed : result.1 = true → flush = true → result.2.totalpackedsamples = numsamples
  error : result.1 = false →
    encoding = .steim2 ∧ ∃ i < numsamples, ¬ Fits 30 (difference data (st.d0 data) i)

variable (maxsamples flush) in
lemma msrPackLoop_spec (hnf : 0 < nf) (hnf' : nf ≤ 63) {rounds : ℕ}
    (h : PackedTo sw encoding data nf first st s) (hlt : s.totalpackedsamples < numsamples)
    (hrounds : numsamples - s.totalpackedsamples ≤ rounds) :
    PackedTo sw encoding data nf first st
        (msrPackLoop sw encoding data numsamples maxsamples (nf * 64) flush rounds s).2 ∧
      Ends encoding data numsamples maxsamples flush st
        (msrPackLoop sw encoding data numsamples maxsamples (nf * 64) flush rounds s) := by
  induction rounds generalizing s with
  | zero => omega
  | succ rounds ih =>
    rw [msrPackLoop]
    split_ifs with hwhile
    · rcases msrPackData_spec sw encoding s.dframes (fun i => data (s.totalpackedsamples + i))
        s.ststate (show 0 < numsamples - s.totalpackedsamples by omega) hnf hnf' with
        ⟨dframes, N, hdata, hrecord⟩ | ⟨hdata, hsteim2, i, hi, hfits⟩
      · have hnext := h.handOn hrecord
        have hpos := hrecord.pos
        have hle := hrecord.le
        simp only [hdata]
        split_ifs with hall <;> rw [MsrPack.handOn_totalpackedsamples] at hall
        · -- the last samples
          refine ⟨hnext, ⟨?_, fun _ => ?_, fun _ _ => ?_, by simp⟩⟩ <;>
          · rw [MsrPack.handOn_totalpackedsamples]
            omega
        · exact ih hnext (by rw [MsrPack.handOn_totalpackedsamples]; omega)
            (by rw [MsrPack.handOn_totalpackedsamples]; omega)
      · rw [h.keeps.difference_eq] at hfits
        simp only [hdata]
        refine ⟨h, ⟨hlt.le, by simp, by simp, fun _ => ⟨hsteim2, _, ?_, hfits⟩⟩⟩
        omega
    · rw [not_or] at hwhile
      refine ⟨h, ⟨hlt.le, fun _ => ?_, fun _ hflush => absurd hflush hwhile.2, by simp⟩⟩
      simp only
      omega

/-- With few samples left the loop is over. -/
lemma msrPackLoop_of_le {rounds : ℕ} (h : numsamples ≤ s.totalpackedsamples + maxsamples) :
    msrPackLoop sw encoding data numsamples maxsamples (nf * 64) false rounds s = (true, s) := by
  cases rounds with
  | zero => rfl
  | succ rounds =>
    rw [msrPackLoop, if_neg]
    rw [not_or]
    exact ⟨by omega, by simp⟩

/-- With no more samples than a full record leaves for the next call, no second record is made. -/
lemma length_records_msrPackLoop (hnf : 0 < nf) (hnf' : nf ≤ 63) (hpos : 0 < numsamples)
    (hfew : numsamples ≤ maxsamples + (15 * nf - 2)) (hs : s.totalpackedsamples = 0) (rounds : ℕ) :
    (msrPackLoop sw encoding data numsamples maxsamples (nf * 64) false rounds
      s).2.records.length ≤ s.records.length + 1 := by
  cases rounds with
  | zero => exact Nat.le_succ _
  | succ rounds =>
    rw [msrPackLoop]
    by_cases hwhile : maxsamples < numsamples - s.totalpackedsamples ∨ false = true
    · rw [if_pos hwhile]
      rcases msrPackData_spec sw encoding s.dframes (fun i => data (s.totalpackedsamples + i))
        s.ststate (show 0 < numsamples - s.totalpackedsamples by omega) hnf hnf' with
        ⟨dframes, N, hdata, hrecord⟩ | ⟨hdata, -⟩
      · have hfull := hrecord.full
        simp only [hdata]
        split_ifs with hall <;> rw [MsrPack.handOn_totalpackedsamples] at hall
        · simp [MsrPack.handOn]
        · rw [msrPackLoop_of_le (by rw [MsrPack.handOn_totalpackedsamples]; omega)]
          simp [MsrPack.handOn]
      · simp [hdata]
    · rw [if_neg hwhile]
      exact Nat.le_succ _

end Records

section MsrPack

variable (sw : Swapping) (encoding : Encoding) {reclen headerlen : ℕ} (rawrec : ℕ → Frame)
  (data : ℕ → BitVec 32) {numsamples : ℕ} (sequenceNumber : ℕ) (ststate : StreamState)
  (flush : Bool)

/-- The first number of a record: a number out of range starts again. -/
def firstNumber (sequenceNumber : ℕ) : ℕ :=
  if sequenceNumber = 0 ∨ 999999 < sequenceNumber then 1 else sequenceNumber

/-- `msr_pack` with records of such a size packs up to its end or to its error. -/
lemma msrPack_spec {nf : ℕ} (hreclen : reclenHolds reclen = true)
    (hdata : reclen - dataOffset headerlen = nf * 64) (hnf : 0 < nf) (hnf' : nf ≤ 63)
    (hns : 0 < numsamples) :
    PackedTo sw encoding data nf (firstNumber sequenceNumber) ststate
        (msrPack sw encoding reclen headerlen rawrec data numsamples sequenceNumber ststate
          flush).2 ∧
      Ends encoding data numsamples (nf * encoding.frameMaxSamples) flush ststate
        (msrPack sw encoding reclen headerlen rawrec data numsamples sequenceNumber ststate
          flush) := by
  have hinit : PackedTo sw encoding data nf (firstNumber sequenceNumber) ststate
      ⟨rawrec, 0, firstNumber sequenceNumber, ststate, []⟩ := by
    refine ⟨⟨[], ⟨by simp, by simp⟩, by simp⟩, by simp, ?_, by simp, Or.inl ⟨rfl, rfl⟩⟩
    simp only [recordNumber, firstNumber, List.length_nil]
    split_ifs <;> omega
  have hloop := msrPackLoop_spec (nf * encoding.frameMaxSamples) flush hnf hnf' hinit hns
    (le_refl _)
  rw [msrPack]
  simp only
  rw [if_neg (by simp [hreclen, hns.ne']), hdata, Nat.mul_div_cancel nf (by norm_num)]
  exact hloop

/-- A call with few samples makes one record at most. -/
lemma length_records_msrPack {nf : ℕ} (hreclen : reclenHolds reclen = true)
    (hdata : reclen - dataOffset headerlen = nf * 64) (hnf : 0 < nf) (hnf' : nf ≤ 63)
    (hns : 0 < numsamples) (hfew : numsamples ≤ nf * encoding.frameMaxSamples + (15 * nf - 2)) :
    (msrPack sw encoding reclen headerlen rawrec data numsamples sequenceNumber ststate
      false).2.records.length ≤ 1 := by
  rw [msrPack]
  simp only
  rw [if_neg (by simp [hreclen, hns.ne']), hdata, Nat.mul_div_cancel nf (by norm_num)]
  exact length_records_msrPackLoop hnf hnf' hns hfew rfl numsamples

end MsrPack

end Shake

end StationProcessor
