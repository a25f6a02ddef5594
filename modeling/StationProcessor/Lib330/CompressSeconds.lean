import StationProcessor.Lib330.CompressRuns

/-!
# Seconds that the digitizer has packed

A second is unpacked for its samples, and its blocks are copied into records as they are. As long as
the blocks are valid and the seconds of a record follow each other, the records hold the samples.
A second that is found invalid behind its first block makes the library read in front of them.
-/

namespace StationProcessor

namespace Lib330

open Shake (Frame PackedWord)

variable {pcom pcom' : ComPacket} {prev : BitVec 32} {xs ds es : List (BitVec 32)} {rate : ℕ}
  {pcmp : Precomp}

/-! ### Sums of differences -/

/-- The samples that differences give, from `prev` on. -/
def sumFrom : BitVec 32 → List (BitVec 32) → List (BitVec 32)
  | _, [] => []
  | prev, d :: ds => (prev + d) :: sumFrom (prev + d) ds

@[simp] lemma length_sumFrom : (sumFrom prev ds).length = ds.length := by
  induction ds generalizing prev with
  | nil => rfl
  | cons d ds ih => rw [sumFrom, List.length_cons, List.length_cons, ih]

lemma diffsFrom_sumFrom : diffsFrom prev (sumFrom prev ds) = ds := by
  induction ds generalizing prev with
  | nil => rfl
  | cons d ds ih => rw [sumFrom, diffsFrom, ih, BitVec.add_comm, BitVec.add_sub_cancel]

lemma sumFrom_append :
    sumFrom prev (ds ++ es) = sumFrom prev ds ++ sumFrom ((sumFrom prev ds).getLastD prev) es := by
  induction ds generalizing prev with
  | nil => rfl
  | cons d ds ih =>
    rw [List.cons_append, sumFrom, sumFrom, ih, List.getLastD_cons, List.cons_append]

/-! ### The samples of a second -/

/-- The differences of a block. -/
def Precomp.blockDiffs (pcmp : Precomp) (i : ℕ) : List (BitVec 32) :=
  Shake.wordSamples2 false (pcmp.code i) (WordBytes.ofWord true (pcmp.data i))

/-- The samples of the blocks before a place. -/
def Precomp.samplesTo (pcmp : Precomp) (n : ℕ) : List (BitVec 32) :=
  sumFrom pcmp.prevSample ((List.range n).flatMap pcmp.blockDiffs)

/-- The sample before a block. -/
def Precomp.value (pcmp : Precomp) (i : ℕ) : BitVec 32 :=
  (pcmp.samplesTo i).getLastD pcmp.prevSample

/-- The samples of a block. -/
def Precomp.blockSamples (pcmp : Precomp) (i : ℕ) : List (BitVec 32) :=
  sumFrom (pcmp.value i) (pcmp.blockDiffs i)

/-- All blocks are valid, and there are no more samples than the rate allows. -/
structure Precomp.Valid (rate : ℕ) (pcmp : Precomp) : Prop where
  block : ∀ i < pcmp.blocks, ValidBlock (pcmp.code i) (pcmp.data i)
  length_le : (pcmp.samplesTo pcmp.blocks).length ≤ rate

lemma Precomp.samplesTo_succ (pcmp : Precomp) (n : ℕ) :
    pcmp.samplesTo (n + 1) = pcmp.samplesTo n ++ pcmp.blockSamples n := by
  rw [Precomp.samplesTo, List.range_succ, List.flatMap_append, List.flatMap_singleton,
    sumFrom_append]
  rfl

lemma Precomp.value_succ (pcmp : Precomp) (n : ℕ) :
    pcmp.value (n + 1) = (pcmp.blockSamples n).getLastD (pcmp.value n) := by
  rw [Precomp.value, Precomp.samplesTo_succ, getLastD_append]
  rfl

/-- The samples before a place are the first ones. -/
lemma Precomp.samplesTo_prefix (pcmp : Precomp) {i j : ℕ} (hij : i ≤ j) :
    pcmp.samplesTo i <+: pcmp.samplesTo j := by
  induction j, hij using Nat.le_induction with
  | base => exact List.prefix_rfl
  | succ j _ ih =>
    rw [Precomp.samplesTo_succ]
    exact ih.trans (List.prefix_append _ _)

lemma length_unpack (dcp : DecompBit) (k : ℕ) (accum : BitVec 32) (unpacked : List (BitVec 32)) :
    (unpack dcp k accum unpacked).length = k + unpacked.length := by
  induction k generalizing accum unpacked with
  | zero => simp [unpack]
  | succ k ih =>
    rw [unpack, ih, List.length_cons]
    omega

/-- A valid block has a sample. -/
lemma ValidBlock.pos {code accum : BitVec 32} (h : ValidBlock code accum) :
    0 < (Shake.wordSamples2 false code (WordBytes.ofWord true accum)).length := by
  have hsamps : ∀ k, 0 < (decomptab k).samps := by
    intro k
    unfold decomptab
    split <;> simp
  rw [← (unpack_eq_wordSamples2 h).2, length_unpack]
  exact Nat.lt_of_lt_of_le (hsamps _) (Nat.le_add_right _ _)

lemma ValidBlock.code {code accum : BitVec 32} (h : ValidBlock code accum) :
    code &&& 3#32 = code ∧ code ≠ 0 := by
  rcases h with rfl | ⟨rfl, -⟩ | ⟨rfl, -⟩ <;> decide

section Valid

variable (hvalid : pcmp.Valid rate)

include hvalid

lemma Precomp.Valid.blockSamples_ne {i : ℕ} (hi : i < pcmp.blocks) : pcmp.blockSamples i ≠ [] := by
  have hpos := (hvalid.block i hi).pos
  rw [← List.length_pos_iff, Precomp.blockSamples, length_sumFrom]
  exact hpos

/-- Each block has its own place. -/
lemma Precomp.Valid.place_lt {i j : ℕ} (hij : i < j) (hj : j ≤ pcmp.blocks) :
    (pcmp.samplesTo i).length < (pcmp.samplesTo j).length := by
  have hpos := List.length_pos_iff.mpr (hvalid.blockSamples_ne (show i < pcmp.blocks by omega))
  have hle := (pcmp.samplesTo_prefix (show i + 1 ≤ j from hij)).length_le
  rw [Precomp.samplesTo_succ, List.length_append] at hle
  omega

end Valid

/-! ### Unpacking -/

lemma storeSamples_eq {s : Decompressed} (h : s.databuf.length + ds.length ≤ rate) :
    storeSamples rate ds s =
      { s with databuf := s.databuf ++ sumFrom s.curval ds
               curval := (sumFrom s.curval ds).getLastD s.curval } := by
  induction ds generalizing s with
  | nil => simp [storeSamples, sumFrom]
  | cons d ds ih =>
    rw [List.length_cons] at h
    have hroom : (s.databuf ++ [s.curval + d]).length + ds.length ≤ rate := by
      rw [List.length_append, List.length_singleton]
      omega
    rw [storeSamples, if_neg (by omega), ih hroom]
    simp only [sumFrom, List.getLastD_cons, List.append_assoc, List.singleton_append]

/-- The variables of `decompress_blockette` in front of a block. -/
def Precomp.unpacked (pcmp : Precomp) (i : ℕ) : Decompressed where
  databuf := pcmp.samplesTo i
  idxbuf := (List.range i).map fun j => (pcmp.samplesTo j).length
  curval := pcmp.value i
  blocks := pcmp.blocks

/-- The same with the place of that block. -/
def Precomp.entered (pcmp : Precomp) (i : ℕ) : Decompressed :=
  { pcmp.unpacked i with idxbuf := (pcmp.unpacked (i + 1)).idxbuf }

lemma Precomp.storeSamples_entered (pcmp : Precomp) {i : ℕ}
    (hroom : (pcmp.samplesTo i).length + (pcmp.blockDiffs i).length ≤ rate) :
    storeSamples rate (pcmp.blockDiffs i) (pcmp.entered i) = pcmp.unpacked (i + 1) := by
  rw [storeSamples_eq (show (pcmp.entered i).databuf.length + _ ≤ rate from hroom)]
  simp only [Precomp.entered, Precomp.unpacked, Precomp.samplesTo_succ, Precomp.value_succ]
  rfl

/-- One round of the loop. -/
lemma Precomp.decompLoop_unpacked (pcmp : Precomp) {i : ℕ}
    (hroom : (pcmp.samplesTo i).length < rate) (left : ℕ) :
    decompLoop rate pcmp (left + 1) i (pcmp.unpacked i) =
      if 6 < subcode (pcmp.code i) (pcmp.data i) then { pcmp.unpacked i with blocks := 0 }
      else decompLoop rate pcmp left (i + 1) (storeSamples rate
        (unpack (decomptab (subcode (pcmp.code i) (pcmp.data i)))
          (decomptab (subcode (pcmp.code i) (pcmp.data i))).samps (pcmp.data i) [])
        (pcmp.entered i)) := by
  have hentered : { pcmp.unpacked i with
      idxbuf := (pcmp.unpacked i).idxbuf ++ [(pcmp.unpacked i).databuf.length] } =
        pcmp.entered i := by
    simp only [Precomp.entered, Precomp.unpacked, List.range_succ, List.map_append,
      List.map_singleton]
  rw [← hentered, decompLoop, if_pos (show (pcmp.unpacked i).databuf.length < rate from hroom)]

lemma Precomp.decompLoop_valid (pcmp : Precomp) {i : ℕ}
    (hvalid : ValidBlock (pcmp.code i) (pcmp.data i))
    (hroom : (pcmp.samplesTo i).length < rate) (left : ℕ) :
    decompLoop rate pcmp (left + 1) i (pcmp.unpacked i) =
      decompLoop rate pcmp left (i + 1) (storeSamples rate (pcmp.blockDiffs i)
        (pcmp.entered i)) := by
  obtain ⟨hsub, hunpack⟩ := unpack_eq_wordSamples2 hvalid
  rw [pcmp.decompLoop_unpacked hroom, if_neg (by omega), hunpack]
  rfl

lemma Precomp.Valid.decompLoop (hvalid : pcmp.Valid rate) {left i : ℕ}
    (hi : i + left = pcmp.blocks) :
    decompLoop rate pcmp left i (pcmp.unpacked i) = pcmp.unpacked pcmp.blocks := by
  induction left generalizing i with
  | zero => rw [show i = pcmp.blocks by omega]; rfl
  | succ left ih =>
    have hlt := hvalid.place_lt (show i < pcmp.blocks by omega) le_rfl
    have hle := hvalid.length_le
    have hnext := (pcmp.samplesTo_prefix (show i + 1 ≤ pcmp.blocks by omega)).length_le
    rw [Precomp.samplesTo_succ, List.length_append, Precomp.blockSamples, length_sumFrom] at hnext
    rw [pcmp.decompLoop_valid (hvalid.block i (by omega)) (by omega),
      pcmp.storeSamples_entered (by omega), ih (by omega)]

/-- A valid second is unpacked as it is. -/
lemma Precomp.Valid.decompressBlockette (hvalid : pcmp.Valid rate) :
    (decompressBlockette rate pcmp).databuf = pcmp.samplesTo pcmp.blocks ∧
    (decompressBlockette rate pcmp).blocks = pcmp.blocks ∧
    ∀ i ≤ pcmp.blocks, (decompressBlockette rate pcmp).idxbuf.getD i 0 =
      (pcmp.samplesTo i).length := by
  have hloop := hvalid.decompLoop (Nat.zero_add pcmp.blocks)
  have hstart : pcmp.unpacked 0 = ⟨[], [], pcmp.prevSample, pcmp.blocks⟩ := rfl
  rw [hstart] at hloop
  rw [Lib330.decompressBlockette]
  simp only [hloop]
  refine ⟨rfl, rfl, fun i hi => ?_⟩
  have hbuf : (pcmp.unpacked pcmp.blocks).idxbuf ++ [(pcmp.unpacked pcmp.blocks).databuf.length] =
      (List.range (pcmp.blocks + 1)).map fun j => (pcmp.samplesTo j).length := by
    rw [List.range_succ, List.map_append]
    rfl
  rw [hbuf]
  simp [List.getD_eq_getElem?_getD, Nat.lt_succ_of_le hi]

/-! ### Copying -/

/-- The samples of some blocks. -/
def Precomp.slice (pcmp : Precomp) (i j : ℕ) : List (BitVec 32) :=
  (List.range' i (j - i)).flatMap pcmp.blockSamples

@[simp] lemma Precomp.slice_self (pcmp : Precomp) (i : ℕ) : pcmp.slice i i = [] := by
  simp [Precomp.slice]

lemma Precomp.slice_cons (pcmp : Precomp) {i j : ℕ} (hij : i < j) :
    pcmp.slice i j = pcmp.blockSamples i ++ pcmp.slice (i + 1) j := by
  rw [Precomp.slice, show j - i = j - (i + 1) + 1 by omega, List.range'_succ, List.flatMap_cons]
  rfl

/-- The samples before a place and those up to the next one. -/
lemma Precomp.samplesTo_append_slice (pcmp : Precomp) {i j : ℕ} (hij : i ≤ j) :
    pcmp.samplesTo i ++ pcmp.slice i j = pcmp.samplesTo j := by
  induction j, hij using Nat.le_induction with
  | base => rw [Precomp.slice_self, List.append_nil]
  | succ j hij ih =>
    have hslice : pcmp.slice i (j + 1) = pcmp.slice i j ++ pcmp.blockSamples j := by
      rw [Precomp.slice, Precomp.slice, show j + 1 - i = j - i + 1 by omega, List.range'_1_concat,
        List.flatMap_append, List.flatMap_singleton, Nat.add_sub_cancel' hij]
    rw [hslice, ← List.append_assoc, ih, ← Precomp.samplesTo_succ]

lemma Precomp.slice_append (pcmp : Precomp) {i j k : ℕ} (hij : i ≤ j) (hjk : j ≤ k) :
    pcmp.slice i j ++ pcmp.slice j k = pcmp.slice i k := by
  refine (List.append_right_inj (pcmp.samplesTo i)).mp ?_
  rw [← List.append_assoc, samplesTo_append_slice pcmp hij, samplesTo_append_slice pcmp hjk,
    samplesTo_append_slice pcmp (hij.trans hjk)]

lemma ComPacket.sameWaiting_putWord (pcom : ComPacket) (code value : BitVec 32) :
    SameWaiting pcom (pcom.putWord code value) := ⟨rfl, rfl, rfl, rfl, rfl, rfl, rfl⟩

/-- What copying blocks does to a record. -/
structure Copies (pcmp : Precomp) (pcom pcom' : ComPacket) (i next left : ℕ) : Prop where
  same : SameWaiting pcom pcom'
  count : pcom'.nextCompressedSample = pcom.nextCompressedSample
  frame : pcom'.frame = pcom.frame
  blocks : next + left = pcmp.blocks
  le : i ≤ next
  block_le : pcom'.block ≤ 16
  begun : i < pcmp.blocks → pcom.block < 16 → i < next

/-- Blocks are copied until there are no more or the frame is full. -/
lemma InRecord.copyBlocks {x0 : BitVec 32} {ws : List PackedWord} (hvalid : pcmp.Valid rate)
    {left i : ℕ} (hi : i + left = pcmp.blocks) (h : InRecord pcom x0 prev ws xs)
    (hblock : pcom.block ≤ 16) (hvalue : xs.getLastD prev = pcmp.value i)
    (hfirst : xs = [] → (pcmp.blockSamples i).headD x0 = x0) :
    ∃ pcom' left' next ws', copyBlocks pcmp left i pcom = (pcom', left', next) ∧
      InRecord pcom' x0 prev ws' (xs ++ pcmp.slice i next) ∧
      (xs ++ pcmp.slice i next).getLastD prev = pcmp.value next ∧
      Copies pcmp pcom pcom' i next left' := by
  induction left generalizing i pcom xs ws with
  | zero =>
    refine ⟨pcom, 0, i, ws, rfl, ?_, ?_, .refl pcom, rfl, rfl, hi, le_rfl, hblock,
      fun hlt => by omega⟩
    · rwa [Precomp.slice_self, List.append_nil]
    · rwa [Precomp.slice_self, List.append_nil]
  | succ left ih =>
    rw [Lib330.copyBlocks]
    split_ifs with hroom
    · have hblockValid := hvalid.block i (by omega)
      have hne := hvalid.blockSamples_ne (show i < pcmp.blocks by omega)
      have hword : Shake.wordSamples2 false (pcmp.code i) (WordBytes.ofWord true (pcmp.data i)) =
          diffsFrom (xs.getLastD prev) (pcmp.blockSamples i) := by
        rw [hvalue, Precomp.blockSamples, diffsFrom_sumFrom]
        rfl
      have hhead : (xs ++ pcmp.blockSamples i).headD x0 = x0 := by
        by_cases hxs : xs = []
        · rw [hxs]
          exact hfirst hxs
        · rw [headD_append hxs]
          exact h.first
      have hput := h.putWord hroom hblockValid.code.1 hblockValid.code.2 hne hword hhead
      obtain ⟨pcom', left', next, ws', heq, hrecord, hlast, hcopies⟩ :=
        ih (show i + 1 + left = pcmp.blocks by omega) hput
          (show pcom.block + 1 ≤ 16 by omega)
          (by rw [getLastD_append, hvalue, Precomp.value_succ])
          (fun hnil => absurd (List.append_eq_nil_iff.mp hnil).2 hne)
      have hlt : i < next := hcopies.le
      rw [List.append_assoc, ← Precomp.slice_cons pcmp hlt] at hrecord hlast
      exact ⟨pcom', left', next, ws', heq, hrecord, hlast,
        (pcom.sameWaiting_putWord _ _).trans hcopies.same, hcopies.count, hcopies.frame,
        hcopies.blocks, hlt.le, hcopies.block_le, fun _ _ => hlt⟩
    · refine ⟨pcom, left + 1, i, ws, rfl, ?_, ?_, .refl pcom, rfl, rfl, hi, le_rfl, hblock,
        fun _ hlt => absurd hlt hroom⟩
      · rwa [Precomp.slice_self, List.append_nil]
      · rwa [Precomp.slice_self, List.append_nil]

/-- A value is the sample before its place. -/
lemma Precomp.Valid.getD_value (hvalid : pcmp.Valid rate) {i : ℕ} (hpos : 0 < i)
    (hi : i ≤ pcmp.blocks) : (pcmp.samplesTo pcmp.blocks).getD ((pcmp.samplesTo i).length - 1) 0 =
      pcmp.value i := by
  have hlt := hvalid.place_lt hpos hi
  have hne : pcmp.samplesTo i ≠ [] := List.ne_nil_of_length_pos (by omega)
  rw [Precomp.value, getLastD_eq_getD hne, ← pcmp.samplesTo_append_slice hi,
    List.getD_eq_getElem?_getD, List.getElem?_append_left (by omega),
    ← List.getD_eq_getElem?_getD]

/-- The sample at the place of a block is its first one. -/
lemma Precomp.Valid.getD_first (hvalid : pcmp.Valid rate) {i : ℕ} (hi : i < pcmp.blocks) :
    (pcmp.blockSamples i).headD ((pcmp.samplesTo pcmp.blocks).getD (pcmp.samplesTo i).length 0) =
      (pcmp.samplesTo pcmp.blocks).getD (pcmp.samplesTo i).length 0 := by
  have hne := hvalid.blockSamples_ne hi
  rw [← pcmp.samplesTo_append_slice hi.le, List.getD_eq_getElem?_getD,
    List.getElem?_append_right le_rfl, Nat.sub_self, pcmp.slice_cons hi]
  cases hblock : pcmp.blockSamples i with
  | nil => exact absurd hblock hne
  | cons x xs => rfl

/-- Blocks may be added to a record when it is empty or its last sample is the one before them. -/
def Receives (pcom : ComPacket) (xs : List (BitVec 32)) (value : BitVec 32) : Prop :=
  xs = [] ∨ pcom.lastSample = value

/-- Nothing waits; the last sample may change. -/
lemma Waits.of_none (h : Waits pcom) (hzero : pcom.peekTotal = 0) (hsame : SameWaiting pcom pcom')
    (value : BitVec 32) : Waits { pcom' with lastSample := value } := by
  have hwaits := hsame.waits h
  have hzero' : pcom'.peekTotal = 0 := hsame.peekTotal.trans hzero
  exact ⟨hwaits.ctabx, hwaits.nextIn, fun i hi => absurd hi (by simp [hzero'])⟩

lemma buildBlocks_eq (pcmp : Precomp) (s : Decompressed) (blocks blockIdx : ℕ) (pcom : ComPacket) :
    buildBlocks pcmp s blocks blockIdx pcom =
      let begun := if pcom.frame = pcom.blocketteCount + 1 ∧ pcom.block ≤ 1 then
        pcom.startFrame (s.databuf.getD (s.idxbuf.getD blockIdx 0) 0) else pcom
      let copied := copyBlocks pcmp blocks blockIdx begun
      if s.idxbuf.getD copied.2.2 0 = 0 then none
      else some ({ copied.1.storeFull with
          lastSample := s.databuf.getD (s.idxbuf.getD copied.2.2 0 - 1) 0 },
        s.idxbuf.getD copied.2.2 0 - s.idxbuf.getD blockIdx 0, copied.2.1, copied.2.2) := rfl

/-- The record with its first sample, if it has not been begun. -/
lemma Holds.beginBlocks (h : Holds pcom xs) (hvalid : pcmp.Valid rate) {i : ℕ}
    (hi : i < pcmp.blocks) (hreceives : Receives pcom xs (pcmp.value i)) :
    ∃ begun x0 prev ws, (if pcom.frame = pcom.blocketteCount + 1 ∧ pcom.block ≤ 1 then
        pcom.startFrame ((pcmp.samplesTo pcmp.blocks).getD (pcmp.samplesTo i).length 0)
      else pcom) = begun ∧ InRecord begun x0 prev ws xs ∧ xs.getLastD prev = pcmp.value i ∧
      (xs = [] → (pcmp.blockSamples i).headD x0 = x0) ∧ begun.block < 16 ∧
      SameWaiting pcom begun ∧ begun.nextCompressedSample = pcom.nextCompressedSample ∧
      begun.frame = pcom.frame := by
  cases h.carries with
  | empty hempty =>
    exact ⟨_, _, pcmp.value i, [], if_pos ⟨hempty.frame, hempty.block.le⟩, hempty.startFrame _ _,
      rfl, fun _ => hvalid.getD_first hi, by simp [ComPacket.startFrame],
      ⟨rfl, rfl, rfl, rfl, rfl, rfl, rfl⟩, rfl, rfl⟩
  | @data x0 prev ws _ hrecord hxs hblock hlast =>
    have hplace := hrecord.place
    refine ⟨pcom, x0, prev, ws, if_neg ?_, hrecord, ?_, fun hnil => absurd hnil hxs, hblock,
      .refl pcom, rfl, rfl⟩
    · rintro ⟨hframe, hone⟩
      rw [ComPacket.stored, hframe, Nat.sub_self] at hplace
      omega
    · rw [← hlast]
      exact hreceives.resolve_left hxs

/-- What `build_blocks` does: at least one block goes into the record. -/
lemma Holds.buildBlocks (h : Holds pcom xs) (hwaits : Waits pcom) (hzero : pcom.peekTotal = 0)
    (hvalid : pcmp.Valid rate) {left i : ℕ} (hi : i + left = pcmp.blocks) (hleft : 0 < left)
    (hreceives : Receives pcom xs (pcmp.value i)) :
    ∃ pcom' next left',
      buildBlocks pcmp (decompressBlockette rate pcmp) left i pcom =
        some (pcom', (pcmp.samplesTo next).length - (pcmp.samplesTo i).length, left', next) ∧
      next + left' = pcmp.blocks ∧ i < next ∧ Carries pcom' (xs ++ pcmp.slice i next) ∧
      pcom'.lastSample = pcmp.value next ∧ Waits pcom' ∧ pcom'.peekTotal = 0 ∧
      pcom'.maxframes = pcom.maxframes ∧
      pcom'.nextCompressedSample = pcom.nextCompressedSample ∧
      pcom'.frame ≤ pcom'.maxframes + 1 ∧
      (pcom'.frame = pcom'.maxframes + 1 → pcom'.block = 1) := by
  obtain ⟨hdata, -, hplace⟩ := hvalid.decompressBlockette
  have hframe_le := h.frame_le
  obtain ⟨begun, x0, prev, ws, hbegun, hrecord, hvalue, hfirst, hblock, hsame, hcount, hframe⟩ :=
    h.beginBlocks hvalid (by omega) hreceives
  obtain ⟨copied, left', next, ws', hcopy, hcopied, hlast, hcopies⟩ :=
    hrecord.copyBlocks hvalid hi hblock.le hvalue hfirst
  have hlt := hcopies.begun (by omega) hblock
  have hblocks := hcopies.blocks
  have hpositive := hvalid.place_lt hlt (by omega)
  obtain ⟨hstored, hblock', hframe', hfull⟩ := hcopied.storeFull hcopies.block_le
  have hsame' := (hsame.trans hcopies.same).trans copied.sameWaiting_storeFull
  have hframeEq := hcopies.frame.trans hframe
  have hne : xs ++ pcmp.slice i next ≠ [] := by
    rw [pcmp.slice_cons hlt]
    simp [hvalid.blockSamples_ne (show i < pcmp.blocks by omega)]
  refine ⟨{ copied.storeFull with lastSample := pcmp.value next }, next, left', ?_, hblocks, hlt,
    .data (hstored.congr rfl rfl rfl rfl rfl rfl) hne hblock' hlast.symm, rfl,
    hwaits.of_none hzero hsame' _, hsame'.peekTotal.trans hzero, hsame'.maxframes, ?_, ?_, ?_⟩
  · rw [buildBlocks_eq]
    simp only [hdata, hplace i (by omega), hbegun, hcopy, hplace next (by omega)]
    rw [if_neg (by omega), hvalid.getD_value (by omega) (by omega)]
  · exact (copied.count_storeFull.trans hcopies.count).trans hcount
  · change copied.storeFull.frame ≤ copied.storeFull.maxframes + 1
    rw [hsame'.maxframes]
    omega
  · change copied.storeFull.frame = copied.storeFull.maxframes + 1 → copied.storeFull.block = 1
    rw [hsame'.maxframes]
    intro heq
    exact hfull (by omega)

/-! ### Seconds -/

/-- A packet in which nothing waits, with the value that the next second must follow. -/
structure Drained (pcom : ComPacket) (last : Option (BitVec 32)) (xs : List (BitVec 32)) :
    Prop where
  holds : Holds pcom xs
  waits : Waits pcom
  peekTotal : pcom.peekTotal = 0
  last : xs = [] ∨ ∃ value ∈ last, pcom.lastSample = value

lemma Drained.live {last : Option (BitVec 32)} (h : Drained pcom last xs) : Live pcom xs := by
  refine ⟨h.waits, h.peekTotal.trans_lt (by norm_num), xs, h.holds, ?_⟩
  rw [pcom.waiting_eq_nil h.peekTotal, List.append_nil]

lemma Drained.receives {last : Option (BitVec 32)} (h : Drained pcom last xs)
    {next : BitVec 32} (hfollows : ∀ value ∈ last, next = value) : Receives pcom xs next := by
  refine h.last.imp_right ?_
  rintro ⟨value, hmem, hlast⟩
  rw [hlast, hfollows value hmem]

/-- Records that hold samples, and a packet with those behind them. -/
def Leaves (records : List SeedRecord) (pcom : ComPacket) (last : Option (BitVec 32))
    (xs : List (BitVec 32)) : Prop :=
  ∃ pieces rest, List.Forall₂ SeedRecord.Holds records pieces ∧ pieces.flatten ++ rest = xs ∧
    Drained pcom last rest

lemma Drained.leaves {last : Option (BitVec 32)} (h : Drained pcom last xs) :
    Leaves [] pcom last xs :=
  ⟨[], xs, .nil, rfl, h⟩

/-- Records that come first. -/
lemma Leaves.append {records more : List SeedRecord} {pieces : List (List (BitVec 32))}
    {rest : List (BitVec 32)} {last : Option (BitVec 32)}
    (hpieces : List.Forall₂ SeedRecord.Holds records pieces) (h : Leaves more pcom last rest) :
    Leaves (records ++ more) pcom last (pieces.flatten ++ rest) := by
  obtain ⟨pieces', rest', hpieces', rfl, hdrained⟩ := h
  refine ⟨pieces ++ pieces', rest', List.rel_append hpieces hpieces', ?_, hdrained⟩
  rw [List.flatten_append, List.append_assoc]

lemma buildLoop_succ (pcmp : Precomp) (s : Decompressed) (rounds samples blocks blockIdx : ℕ)
    (pcom : ComPacket) : buildLoop pcmp s (rounds + 1) samples blocks blockIdx pcom =
      if samples = 0 then some (pcom, [])
      else (buildBlocks pcmp s blocks blockIdx pcom).bind fun b =>
        if b.2.1 = 0 then some (b.1, [])
        else (countUsed b.1 b.2.1).bind fun r =>
          (buildLoop pcmp s rounds (samples - b.2.1) b.2.2.1 b.2.2.2 r.1).bind fun m =>
            some (m.1, r.2 ++ m.2) := rfl

/-- All blocks go into records; each round copies at least one. -/
lemma Drained.buildLoop (hvalid : pcmp.Valid rate) {rounds left i : ℕ}
    (h : Drained pcom (some (pcmp.value i)) xs) (hi : i + left = pcmp.blocks)
    (hrounds : (pcmp.samplesTo pcmp.blocks).length - (pcmp.samplesTo i).length ≤ rounds) :
    ∃ pcom' records, buildLoop pcmp (decompressBlockette rate pcmp) rounds
        ((pcmp.samplesTo pcmp.blocks).length - (pcmp.samplesTo i).length) left i pcom =
          some (pcom', records) ∧
      Leaves records pcom' (some (pcmp.value pcmp.blocks)) (xs ++ pcmp.slice i pcmp.blocks) := by
  -- without samples there are no blocks
  have hend : ∀ {i : ℕ} {pcom : ComPacket} {xs : List (BitVec 32)}, i ≤ pcmp.blocks →
      (pcmp.samplesTo pcmp.blocks).length - (pcmp.samplesTo i).length = 0 →
      Drained pcom (some (pcmp.value i)) xs →
      Leaves [] pcom (some (pcmp.value pcmp.blocks)) (xs ++ pcmp.slice i pcmp.blocks) := by
    intro i pcom xs hi hdone h
    obtain rfl : i = pcmp.blocks := by
      by_contra hne
      have hlt := hvalid.place_lt (show i < pcmp.blocks by omega) le_rfl
      omega
    rw [Precomp.slice_self, List.append_nil]
    exact h.leaves
  induction rounds generalizing left i pcom xs with
  | zero => exact ⟨pcom, [], rfl, hend (by omega) (by omega) h⟩
  | succ rounds ih =>
    rw [buildLoop_succ]
    split_ifs with hdone
    · exact ⟨pcom, [], rfl, hend (by omega) hdone h⟩
    · have hleft : 0 < left := by
        by_contra hnot
        rw [show i = pcmp.blocks by omega, Nat.sub_self] at hdone
        exact hdone rfl
      have hholds := h.holds
      obtain ⟨built, next, left', hbuild, hnext, hlt, hcarries, hlast, hwaits, hzero, hmax,
        hcount, hframe, hfull⟩ :=
        hholds.buildBlocks h.waits h.peekTotal hvalid hi hleft (h.receives (by simp))
      have hplace := hvalid.place_lt hlt (by omega)
      have hlength := congrArg List.length (pcmp.samplesTo_append_slice hlt.le)
      rw [List.length_append] at hlength
      have hne : xs ++ pcmp.slice i next ≠ [] := by
        rw [← List.length_pos_iff, List.length_append]
        omega
      have hheld := hholds.count
      have hused : built.nextCompressedSample + ((pcmp.samplesTo next).length -
          (pcmp.samplesTo i).length) = (xs ++ pcmp.slice i next).length + 1 := by
        rw [List.length_append]
        omega
      obtain ⟨counted, records, heq, hsame, ⟨pieces, rest, hpieces, hholds', hflat⟩, -⟩ :=
        hcarries.countUsed hne hused (hmax ▸ hholds.max_le) (hmax ▸ hholds.maxframes_pos) hframe
          hfull
      have hdrained : Drained counted (some (pcmp.value next)) rest :=
        ⟨hholds', hsame.waits hwaits, hsame.peekTotal.trans hzero,
          Or.inr ⟨_, rfl, hsame.lastSample.trans hlast⟩⟩
      obtain ⟨pcom', more, hloop, hleaves⟩ := ih hdrained hnext (by omega)
      have hle := (pcmp.samplesTo_prefix (show next ≤ pcmp.blocks by omega)).length_le
      refine ⟨pcom', records ++ more, ?_, ?_⟩
      · rw [hbuild, Option.bind_some, if_neg (by dsimp only; omega), heq, Option.bind_some]
        dsimp only
        rw [show (pcmp.samplesTo pcmp.blocks).length - (pcmp.samplesTo i).length -
          ((pcmp.samplesTo next).length - (pcmp.samplesTo i).length) =
            (pcmp.samplesTo pcmp.blocks).length - (pcmp.samplesTo next).length by omega, hloop]
        rfl
      · have hall := Leaves.append hpieces hleaves
        rwa [← List.append_assoc, hflat, List.append_assoc,
          pcmp.slice_append hlt.le (by omega)] at hall

/-- A second that follows the samples of the record goes behind them. -/
lemma Drained.processComp {last : Option (BitVec 32)} (h : Drained pcom last xs)
    (hvalid : pcmp.Valid rate) (hfollows : ∀ value ∈ last, pcmp.prevSample = value) :
    ∃ pcom' records, processComp rate pcmp pcom = some (pcom', records) ∧
      Leaves records pcom' (some (pcmp.value pcmp.blocks))
        (xs ++ (decompressBlockette rate pcmp).databuf) := by
  obtain ⟨hdata, hblocks, -⟩ := hvalid.decompressBlockette
  have hstart : (pcmp.samplesTo 0).length = 0 := rfl
  have hall : pcmp.slice 0 pcmp.blocks = pcmp.samplesTo pcmp.blocks :=
    pcmp.samplesTo_append_slice (Nat.zero_le _)
  have hdrained : Drained pcom (some (pcmp.value 0)) xs :=
    ⟨h.holds, h.waits, h.peekTotal, (h.receives hfollows).imp_right fun hlast => ⟨_, rfl, hlast⟩⟩
  have hloop := hdrained.buildLoop hvalid (Nat.zero_add pcmp.blocks) le_rfl
  rw [hstart, Nat.sub_zero, hall] at hloop
  rw [Lib330.processComp, hblocks, hdata]
  exact hloop

/-! ### Runs -/

/-- What comes to a channel whose seconds the digitizer packs. -/
inductive PackedEvent
  | second (pcmp : Precomp)
  | flush
  | blockette (pw : Frame)

def PackedEvent.step (rate : ℕ) (pcom : ComPacket) :
    PackedEvent → Option (ComPacket × List SeedRecord)
  | .second pcmp => processComp rate pcmp pcom
  | .flush => flushLcq pcom
  | .blockette pw => addBlockette pcom pw

/-- The packet after some events, with the records that were finished. -/
def packedRun (rate : ℕ) (pcom : ComPacket) :
    List PackedEvent → Option (ComPacket × List SeedRecord)
  | [] => some (pcom, [])
  | event :: events => do
    let (pcom, records) ← event.step rate pcom
    let (pcom, more) ← packedRun rate pcom events
    some (pcom, records ++ more)

/-- The samples that `decompress_blockette` finds in the seconds among the events. -/
def PackedEvent.samples (rate : ℕ) : PackedEvent → List (BitVec 32)
  | .second pcmp => (decompressBlockette rate pcmp).databuf
  | .flush => []
  | .blockette _ => []

/-- All seconds are valid, and each follows the one before it unless there is a flush between
them. -/
def Consecutive (rate : ℕ) : Option (BitVec 32) → List PackedEvent → Prop
  | _, [] => True
  | last, .second pcmp :: events => pcmp.Valid rate ∧ (∀ value ∈ last, pcmp.prevSample = value) ∧
      Consecutive rate (some (pcmp.value pcmp.blocks)) events
  | _, .flush :: events => Consecutive rate none events
  | last, .blockette _ :: events => Consecutive rate last events

lemma packedRun_cons (event : PackedEvent) (events : List PackedEvent) :
    packedRun rate pcom (event :: events) = (event.step rate pcom).bind fun r =>
      (packedRun rate r.1 events).bind fun m => some (m.1, r.2 ++ m.2) := rfl

/-- What one event does to the samples. -/
lemma Drained.step {last : Option (BitVec 32)} (h : Drained pcom last xs) {event : PackedEvent}
    {events : List PackedEvent} (hconsecutive : Consecutive rate last (event :: events)) :
    (∃ pcom' records last', event.step rate pcom = some (pcom', records) ∧
      Leaves records pcom' last' (xs ++ event.samples rate) ∧ Consecutive rate last' events) ∨
    (event.step rate pcom = none ∧ Overfull pcom ∧ ∃ pw, event = .blockette pw) := by
  cases event with
  | second pcmp =>
    obtain ⟨hvalid, hfollows, hevents⟩ := hconsecutive
    obtain ⟨pcom', records, heq, hleaves⟩ := h.processComp hvalid hfollows
    exact Or.inl ⟨pcom', records, _, heq, hleaves, hevents⟩
  | flush =>
    obtain ⟨pcom', records, pieces, heq, hpieces, rfl, hholds, hwaits, hzero, -⟩ := h.live.flushLcq
    exact Or.inl ⟨pcom', records, none, heq,
      ⟨pieces, [], hpieces, rfl, hholds, hwaits, hzero, Or.inl rfl⟩, hconsecutive⟩
  | blockette pw =>
    rcases h.live.addBlockette pw with ⟨pcom', records, heq, ⟨pieces, rest, hpieces, hlive, hflat⟩,
      hnewest, -, hzero⟩ | ⟨hnone, hover⟩
    · have hzero' : pcom'.peekTotal = 0 := Nat.le_zero.mp (hzero.trans_eq h.peekTotal)
      have hwaiting := pcom'.waiting_eq_nil hzero'
      obtain ⟨ys, hholds, hys⟩ := hlive.held
      rw [hwaiting, List.append_nil] at hys
      subst hys
      refine Or.inl ⟨pcom', records, last, heq, ⟨pieces, ys, hpieces, ?_,
        hholds, hlive.waits, hzero', ?_⟩, hconsecutive⟩
      · rw [hflat]
        exact (List.append_nil _).symm
      · rw [ComPacket.newest, ComPacket.newest, hwaiting,
          pcom.waiting_eq_nil h.peekTotal] at hnewest
        rcases h.last with rfl | ⟨value, hmem, hlast⟩
        · exact Or.inl (List.append_eq_nil_iff.mp hflat).2
        · exact Or.inr ⟨value, hmem, hnewest.trans hlast⟩
    · exact Or.inr ⟨hnone, hover, pw, rfl⟩

/-- Events pass the samples of their seconds on, up to a blockette that there is no room for. -/
lemma Drained.run {last : Option (BitVec 32)} (h : Drained pcom last xs)
    {events : List PackedEvent} (hconsecutive : Consecutive rate last events) :
    (∃ pcom' records last', packedRun rate pcom events = some (pcom', records) ∧
      Leaves records pcom' last' (xs ++ events.flatMap (PackedEvent.samples rate))) ∨
    (packedRun rate pcom events = none ∧ ∃ before pw after pcom' records,
      events = before ++ .blockette pw :: after ∧
      packedRun rate pcom before = some (pcom', records) ∧ Overfull pcom') := by
  induction events generalizing pcom xs last with
  | nil =>
    refine Or.inl ⟨pcom, [], last, rfl, ?_⟩
    rw [List.flatMap_nil, List.append_nil]
    exact h.leaves
  | cons event events ih =>
    rw [packedRun_cons]
    rcases h.step hconsecutive with ⟨middle, records, last', heq,
      ⟨pieces, rest, hpieces, hflat, hdrained⟩, hevents⟩ | ⟨hnone, hover, pw, rfl⟩
    · rw [heq, Option.bind_some]
      rcases ih hdrained hevents with ⟨pcom', more, last'', hrun, hleaves⟩ |
        ⟨hrun, before, pw, after, pcom', more, rfl, hbefore, hover⟩
      · refine Or.inl ⟨pcom', records ++ more, last'', by rw [hrun]; rfl, ?_⟩
        have hall := Leaves.append hpieces hleaves
        rwa [← List.append_assoc, hflat, List.append_assoc, ← List.flatMap_cons] at hall
      · refine Or.inr ⟨by rw [hrun]; rfl, event :: before, pw, after, pcom', records ++ more, rfl,
          ?_, hover⟩
        rw [packedRun_cons, heq, Option.bind_some, hbefore]
        rfl
    · exact Or.inr ⟨by rw [hnone]; rfl, [], pw, events, pcom, [], rfl, rfl, hover⟩

lemma drained_init {maxframes : ℕ} (hpos : 0 < maxframes) (hle : maxframes ≤ 7) :
    Drained (.init maxframes) none [] := by
  have hlive := live_init hpos hle
  obtain ⟨xs, hholds, hxs⟩ := hlive.held
  obtain rfl := (List.append_eq_nil_iff.mp hxs).1
  exact ⟨hholds, hlive.waits, rfl, Or.inl rfl⟩

/-- The samples that are unpacked from valid seconds are those that are in the records, in order,
where the blocks are copied as they came; only samples of the record in progress are not yet in a
finished record, and a flush finishes it. -/
theorem packedRun_samples {maxframes : ℕ} (hpos : 0 < maxframes) (hle : maxframes ≤ 7)
    {events : List PackedEvent} (hconsecutive : Consecutive rate none events) :
    (∃ pcom records pieces rest, packedRun rate (.init maxframes) events = some (pcom, records) ∧
      List.Forall₂ SeedRecord.Holds records pieces ∧
      pieces.flatten ++ rest = events.flatMap (PackedEvent.samples rate) ∧
      rest.length + 1 = pcom.nextCompressedSample ∧
      ∃ pcom' more pieces', flushLcq pcom = some (pcom', more) ∧
        List.Forall₂ SeedRecord.Holds more pieces' ∧ pieces'.flatten = rest) ∨
    (packedRun rate (.init maxframes) events = none ∧ ∃ before pw after pcom records,
      events = before ++ .blockette pw :: after ∧
      packedRun rate (.init maxframes) before = some (pcom, records) ∧ Overfull pcom) := by
  rcases (drained_init hpos hle).run hconsecutive with
    ⟨pcom, records, last, hrun, pieces, rest, hpieces, hflat, hdrained⟩ | hstops
  · obtain ⟨pcom', more, pieces', hflush, hpieces', hrest, -⟩ := hdrained.live.flushLcq
    exact Or.inl ⟨pcom, records, pieces, rest, hrun, hpieces, hflat, hdrained.holds.count.symm,
      pcom', more, pieces', hflush, hpieces', hrest⟩
  · exact Or.inr hstops

/-- A second of one block, which has four differences. -/
def oneBlock (prevSample : BitVec 32) : Precomp :=
  ⟨prevSample, fun _ => 0x4000, fun _ => 0x01020304, 1⟩

/-- Two seconds with a blockette between them. -/
theorem packedRun_samples_two : ∃ pcom records pieces pcom' more pieces',
    packedRun 4 (.init 7) [.second (oneBlock 0), .blockette zeroFrame, .second (oneBlock 10)] =
      some (pcom, records) ∧
    flushLcq pcom = some (pcom', more) ∧
    List.Forall₂ SeedRecord.Holds (records ++ more) (pieces ++ pieces') ∧
    (pieces ++ pieces').flatten = [1, 3, 6, 10, 11, 13, 16, 20] := by
  have hvalid : ∀ prevSample, (oneBlock prevSample).Valid 4 := by
    intro prevSample
    refine ⟨fun i hi => Or.inl ?_, le_of_eq ?_⟩
    · obtain rfl : i = 0 := Nat.lt_one_iff.mp hi
      change (oneBlock 0).code 0 = 1
      decide
    · rw [Precomp.samplesTo, length_sumFrom]
      change ((List.range 1).flatMap (oneBlock 0).blockDiffs).length = 4
      decide
  have hconsecutive : Consecutive 4 none
      [.second (oneBlock 0), .blockette zeroFrame, .second (oneBlock 10)] := by
    refine ⟨hvalid 0, by simp, hvalid 10, ?_, trivial⟩
    rintro value ⟨⟩
    decide
  rcases packedRun_samples (show 0 < 7 by norm_num) le_rfl hconsecutive with
    ⟨pcom, records, pieces, rest, hrun, hpieces, hflat, -, pcom', more, pieces', hflush, hpieces',
      rfl⟩ | ⟨hnone, -⟩
  · refine ⟨pcom, records, pieces, pcom', more, pieces', hrun, hflush,
      List.rel_append hpieces hpieces', ?_⟩
    rw [List.flatten_append, hflat]
    rfl
  · exact absurd hnone (by decide)

/-! ### Seconds that are found invalid -/

/-- A block that the digitizer makes, or one of the form that `decompress_blockette` looks for. -/
def ReadBlock (code accum : BitVec 32) : Prop :=
  ValidBlock code accum ∨ 6 < subcode code accum

lemma storeSamples_idxbuf (s : Decompressed) : (storeSamples rate ds s).idxbuf = s.idxbuf := by
  induction ds generalizing s with
  | nil => rfl
  | cons d ds ih =>
    rw [storeSamples]
    split_ifs
    · rfl
    · exact ih _

/-- Samples that there is no room for make a second invalid. -/
lemma storeSamples_full {s : Decompressed} (hle : s.databuf.length ≤ rate)
    (hmore : rate < s.databuf.length + ds.length) :
    (storeSamples rate ds s).blocks = 0 ∧ (storeSamples rate ds s).databuf.length = rate := by
  induction ds generalizing s with
  | nil => exact absurd hle (by simpa using hmore)
  | cons d ds ih =>
    rw [List.length_cons] at hmore
    rw [storeSamples]
    split_ifs with hfull
    · exact ⟨rfl, le_antisymm hle hfull⟩
    · refine ih ?_ ?_
      · simp only [List.length_append, List.length_singleton]
        omega
      · simp only [List.length_append, List.length_singleton]
        omega

lemma decompLoop_full {s : Decompressed} (hfull : rate ≤ s.databuf.length) (left i : ℕ) :
    decompLoop rate pcmp left i s = s := by
  cases left with
  | zero => rfl
  | succ left => rw [decompLoop, if_neg (by omega)]

/-- The first block has the first place. -/
lemma decompLoop_headD {s : Decompressed} (hhead : s.idxbuf.headD s.databuf.length = 0)
    (left i : ℕ) : (decompLoop rate pcmp left i s).idxbuf.headD
      (decompLoop rate pcmp left i s).databuf.length = 0 := by
  induction left generalizing i s with
  | zero => exact hhead
  | succ left ih =>
    rw [decompLoop]
    dsimp only
    split_ifs with hroom hcode
    · exact hhead
    · refine ih ?_ _
      rw [storeSamples_idxbuf]
      cases hidx : s.idxbuf with
      | nil => rwa [hidx] at hhead
      | cons j js => rwa [hidx] at hhead
    · exact hhead

lemma decompressBlockette_place_zero :
    (decompressBlockette rate pcmp).idxbuf.getD 0 0 = 0 := by
  have hhead : (decompressBlockette rate pcmp).idxbuf.getD 0 0 =
      (decompLoop rate pcmp pcmp.blocks 0 ⟨[], [], pcmp.prevSample, pcmp.blocks⟩).idxbuf.headD
        (decompLoop rate pcmp pcmp.blocks 0
          ⟨[], [], pcmp.prevSample, pcmp.blocks⟩).databuf.length := by
    rw [decompressBlockette]
    cases hidx : (decompLoop rate pcmp pcmp.blocks 0
      ⟨[], [], pcmp.prevSample, pcmp.blocks⟩).idxbuf with
    | nil => rfl
    | cons j js => rfl
  rw [hhead]
  exact decompLoop_headD (by rfl) _ _

section Read

variable (hread : ∀ i < pcmp.blocks, ReadBlock (pcmp.code i) (pcmp.data i))
  (hplaces : ∀ i < pcmp.blocks, (pcmp.samplesTo i).length ≠ rate)

include hread hplaces

/-- The blocks are valid, or the loop finds out; it has then kept the samples so far, and some of
the next block if that is valid. -/
lemma Precomp.decompLoop_cases {left i : ℕ} (hi : i + left = pcmp.blocks)
    (hle : (pcmp.samplesTo i).length ≤ rate) :
    ((∀ j < pcmp.blocks, i ≤ j → ValidBlock (pcmp.code j) (pcmp.data j)) ∧
      (pcmp.samplesTo pcmp.blocks).length ≤ rate) ∨
    (i < pcmp.blocks ∧ (decompLoop rate pcmp left i (pcmp.unpacked i)).blocks = 0 ∧
      (pcmp.samplesTo i).length ≤ (decompLoop rate pcmp left i (pcmp.unpacked i)).databuf.length ∧
      ((pcmp.samplesTo i).length = (decompLoop rate pcmp left i (pcmp.unpacked i)).databuf.length ↔
        ¬ ValidBlock (pcmp.code i) (pcmp.data i))) := by
  induction left generalizing i with
  | zero =>
    obtain rfl : i = pcmp.blocks := by omega
    exact Or.inl ⟨fun j hj hle => absurd hj (by omega), hle⟩
  | succ left ih =>
    have hlt : i < pcmp.blocks := by omega
    have hroom : (pcmp.samplesTo i).length < rate := lt_of_le_of_ne hle (hplaces i hlt)
    by_cases hvalid : ValidBlock (pcmp.code i) (pcmp.data i)
    · have hpos : 0 < (pcmp.blockDiffs i).length := hvalid.pos
      have hsucc : (pcmp.samplesTo (i + 1)).length =
          (pcmp.samplesTo i).length + (pcmp.blockDiffs i).length := by
        rw [Precomp.samplesTo_succ, List.length_append, Precomp.blockSamples, length_sumFrom]
      rw [pcmp.decompLoop_valid hvalid hroom]
      by_cases hfits : (pcmp.samplesTo (i + 1)).length ≤ rate
      · rw [pcmp.storeSamples_entered (hsucc ▸ hfits)]
        rcases ih (show i + 1 + left = pcmp.blocks by omega) hfits with ⟨hall, hlast⟩ |
          ⟨-, hblocks, hlength, -⟩
        · refine Or.inl ⟨fun j hj hij => ?_, hlast⟩
          rcases hij.eq_or_lt with rfl | hij
          · exact hvalid
          · exact hall j hj hij
        · exact Or.inr ⟨hlt, hblocks, by omega, fun heq => absurd heq (by omega),
            fun hnot => absurd hvalid hnot⟩
      · obtain ⟨hblocks, hlength⟩ := storeSamples_full
          (show (pcmp.entered i).databuf.length ≤ rate from hle)
          (show rate < (pcmp.samplesTo i).length + (pcmp.blockDiffs i).length by omega)
        rw [decompLoop_full hlength.ge, hlength]
        exact Or.inr ⟨hlt, hblocks, hle, fun heq => absurd heq hroom.ne,
          fun hnot => absurd hvalid hnot⟩
    · rw [pcmp.decompLoop_unpacked hroom, if_pos ((hread i hlt).resolve_left hvalid)]
      exact Or.inr ⟨hlt, rfl, le_rfl, fun _ => hvalid, fun _ => rfl⟩

end Read

/-- Of a second that is found invalid no block is copied. -/
lemma processComp_invalid (hblocks : (decompressBlockette rate pcmp).blocks = 0) :
    processComp rate pcmp pcom =
      if (decompressBlockette rate pcmp).databuf = [] then some (pcom, []) else none := by
  rw [processComp, hblocks]
  cases hdata : (decompressBlockette rate pcmp).databuf with
  | nil => rfl
  | cons x xs =>
    rw [List.length_cons, buildLoop_succ, if_neg (Nat.succ_ne_zero _),
      if_neg (List.cons_ne_nil _ _), buildBlocks_eq]
    simp only [copyBlocks, decompressBlockette_place_zero, if_true, Option.bind_none]

/-- A second goes wrong exactly when it is found invalid behind a first block that is valid: then
`build_blocks` reads in front of the samples. When the first block is invalid, nothing is copied. -/
theorem processComp_eq_none_iff {last : Option (BitVec 32)} (h : Drained pcom last xs)
    (hfollows : ∀ value ∈ last, pcmp.prevSample = value)
    (hread : ∀ i < pcmp.blocks, ReadBlock (pcmp.code i) (pcmp.data i))
    (hplaces : ∀ i < pcmp.blocks, (pcmp.samplesTo i).length ≠ rate) :
    (processComp rate pcmp pcom = none ↔
      ¬ pcmp.Valid rate ∧ ValidBlock (pcmp.code 0) (pcmp.data 0)) ∧
    (¬ pcmp.Valid rate → ¬ ValidBlock (pcmp.code 0) (pcmp.data 0) →
      processComp rate pcmp pcom = some (pcom, [])) := by
  rcases pcmp.decompLoop_cases hread hplaces (Nat.zero_add pcmp.blocks) (Nat.zero_le rate) with
    ⟨hall, hlast⟩ | ⟨hlt, hblocks, -, hlength⟩
  · have hvalid : pcmp.Valid rate := ⟨fun i hi => hall i hi (Nat.zero_le i), hlast⟩
    obtain ⟨pcom', records, heq, -⟩ := h.processComp hvalid hfollows
    refine ⟨?_, fun hnot => absurd hvalid hnot⟩
    rw [heq]
    refine ⟨fun hnone => ?_, fun hboth => absurd hvalid hboth.1⟩
    cases hnone
  · have hinvalid : ¬ pcmp.Valid rate := by
      intro hvalid
      rw [hvalid.decompLoop (Nat.zero_add pcmp.blocks)] at hblocks
      exact hlt.ne' hblocks
    have hempty : (decompressBlockette rate pcmp).databuf = [] ↔
        ¬ ValidBlock (pcmp.code 0) (pcmp.data 0) := by
      rw [← hlength, ← List.length_eq_zero_iff, eq_comm]
      rfl
    rw [processComp_invalid hblocks]
    by_cases hfirst : ValidBlock (pcmp.code 0) (pcmp.data 0)
    · rw [if_neg (fun hnil => hempty.mp hnil hfirst)]
      exact ⟨⟨fun _ => ⟨hinvalid, hfirst⟩, fun _ => rfl⟩, fun _ hnot => absurd hfirst hnot⟩
    · rw [if_pos (hempty.mpr hfirst)]
      refine ⟨⟨fun hnone => ?_, fun hboth => absurd hboth.2 hfirst⟩, fun _ _ => rfl⟩
      cases hnone

/-- A second of four samples at a rate of three. -/
theorem processComp_eq_none_oneBlock : processComp 3 (oneBlock 0) (.init 7) = none := by
  refine (processComp_eq_none_iff (drained_init (show 0 < 7 by norm_num) le_rfl) (by simp)
    (fun i hi => ?_) (fun i hi => ?_)).1.mpr ⟨fun hvalid => ?_, by decide⟩
  · obtain rfl : i = 0 := Nat.lt_one_iff.mp hi
    exact Or.inl (by decide)
  · obtain rfl : i = 0 := Nat.lt_one_iff.mp hi
    decide
  · exact absurd hvalid.length_le (by decide)

end Lib330

end StationProcessor
