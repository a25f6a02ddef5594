import StationProcessor.Lib330.Compress

/-!
# Words of the digitizer's library

The scan of `compress_block` finds the most compact form that fits, wherever it starts. Its words,
and those that the digitizer makes, are read by the decoder of Steim 2.
-/

namespace StationProcessor

namespace Lib330

open BitField

/-! ### The scan -/

section Scan

variable {fits : ℕ → Bool} {ctabw ctablo ctabx rounds : ℕ}

/-- The first entry of the table that fits, from `lo` on; the last one if there is none. -/
structure IsFirstFit (fits : ℕ → Bool) (lo k : ℕ) : Prop where
  ge : lo ≤ k
  le : k ≤ 6
  fit : fits k = true ∨ k = 6
  first : ∀ j, lo ≤ j → j < k → fits j = false

lemma IsFirstFit.unique {lo k k' : ℕ} (h : IsFirstFit fits lo k) (h' : IsFirstFit fits lo k') :
    k = k' := by
  have hle : ∀ {k k'}, IsFirstFit fits lo k → IsFirstFit fits lo k' → k ≤ k' := by
    intro k k' h h'
    by_contra hlt
    have hfirst := h.first k' h'.ge (by omega)
    rcases h'.fit with hfit | rfl
    · rw [hfit] at hfirst
      exact absurd hfirst (by simp)
    · have := h.le
      omega
  exact le_antisymm (hle h h') (hle h' h)

/-- What fits in an entry fits in every entry behind it. -/
def Widening (fits : ℕ → Bool) : Prop := ∀ j k, j ≤ k → k ≤ 6 → fits j = true → fits k = true

/-- Nothing fits in front of an entry that does not fit. -/
lemma Widening.false_of_le (h : Widening fits) {j k : ℕ} (hjk : j ≤ k) (hk : k ≤ 6)
    (hfit : fits k = false) : fits j = false := by
  by_contra hne
  rw [h j k hjk hk (Bool.not_eq_false _ ▸ hne)] at hfit
  exact absurd hfit (by simp)

/-- Going down, the entry behind the current one fits. -/
lemma scanLoop_down (hwide : Widening fits) (hrounds : ctabx - ctablo < rounds)
    (hlo : ctablo ≤ ctabx) (hw : ctabx < ctabw) (hle : ctabx < 6) (hfit : fits (ctabx + 1) = true) :
    IsFirstFit fits ctablo (scanLoop fits ctabw ctablo rounds ctabx (some (ctabx + 1))) := by
  induction rounds generalizing ctabx with
  | zero => omega
  | succ rounds ih =>
    rw [scanLoop]
    split_ifs with hnot hgt hgt'
    · exact ⟨by omega, hle, Or.inl hfit, fun j _ hj => hwide.false_of_le (by omega) hle.le hnot⟩
    · omega
    · obtain ⟨k, rfl⟩ : ∃ k, ctabx = k + 1 := ⟨ctabx - 1, by omega⟩
      exact ih (by omega) (by omega) (by omega) (by omega) (by simpa using hnot)
    · exact ⟨hlo, hle.le, Or.inl (by simpa using hnot), fun j hj hj' => by omega⟩

/-- Going up, nothing has fitted yet. -/
lemma scanLoop_up (hwide : Widening fits) (hrounds : 6 - ctabx < rounds)
    (hrounds' : ctabx = ctabw → ctabw - ctablo < rounds) (hlo : ctablo ≤ ctabw)
    (hw : ctabw ≤ ctabx) (hle : ctabx ≤ 6) (hnone : ctabw < ctabx → fits (ctabx - 1) = false) :
    IsFirstFit fits ctablo (scanLoop fits ctabw ctablo rounds ctabx none) := by
  induction rounds generalizing ctabx with
  | zero => omega
  | succ rounds ih =>
    have hfirst : ctabw < ctabx → ∀ j, ctablo ≤ j → j < ctabx → fits j = false :=
      fun hlt j _ hj => hwide.false_of_le (by omega) (by omega) (hnone hlt)
    rw [scanLoop]
    split_ifs with hnot hend hgt hgt'
    · obtain rfl : ctabx = 6 := by omega
      exact ⟨by omega, le_rfl, Or.inr rfl, fun j _ hj => hwide.false_of_le hj.le le_rfl hnot⟩
    · exact ih (by omega) (by omega) (by omega) (by omega) fun _ => by simpa using hnot
    · exact ⟨by omega, hle, Or.inl (by simpa using hnot), hfirst hgt⟩
    · obtain ⟨k, rfl⟩ : ∃ k, ctabx = k + 1 := ⟨ctabx - 1, by omega⟩
      have hrounds' := hrounds' (by omega)
      exact scanLoop_down hwide (by omega) (by omega) (by omega) (by omega) (by simpa using hnot)
    · exact ⟨by omega, hle, Or.inl (by simpa using hnot), fun j hj hj' => by omega⟩

end Scan

/-! ### Packed differences -/

/-- The byte order of records. -/
abbrev bigEndian : Shake.Swapping := ⟨true, false⟩

lemma scan_compseq {k : ℕ} (hk : k ≤ 6) : (compseq k).scan = 7 - k := by
  interval_cases k <;> rfl

lemma disc_compseq_mono {j k : ℕ} (hjk : j ≤ k) (hk : k ≤ 6) :
    (compseq j).disc ≤ (compseq k).disc := by
  interval_cases k <;> interval_cases j <;> simp [compseq]

/-- Entries behind one that fits have fewer and larger places. -/
lemma widening_scanFits (diffs : ℕ → BitVec 32) : Widening (scanFits diffs) := by
  intro j k hjk hk hfit
  simp only [scanFits, List.all_eq_true, List.mem_range, decide_eq_true_eq] at hfit ⊢
  rw [scan_compseq (hjk.trans hk)] at hfit
  rw [scan_compseq hk]
  intro i hi
  exact (hfit i (by omega)).trans (disc_compseq_mono hjk hk)

/-- The entry that is taken, wherever the scan starts. -/
lemma ComPacket.isFirstFit_scan {pcom : ComPacket} (hctabx : pcom.ctabx ≤ 6)
    (hpos : 0 < pcom.peekTotal) :
    IsFirstFit (scanFits pcom.diffs) (7 - pcom.peekTotal) pcom.scan := by
  have hlo : (if pcom.peekTotal < 7 then 7 - pcom.peekTotal else 0) = 7 - pcom.peekTotal := by
    split_ifs <;> omega
  rw [ComPacket.scan]
  simp only [hlo]
  refine scanLoop_up (widening_scanFits _) ?_ ?_ ?_ le_rfl ?_ fun h => absurd h (lt_irrefl _)
  all_goals split_ifs <;> omega

/-- A difference that some entry of the table has room for. -/
def Compressible (d : BitVec 32) : Prop := -536870911 ≤ d.toInt ∧ d.toInt ≤ 536870911

instance (d : BitVec 32) : Decidable (Compressible d) := inferInstanceAs (Decidable (_ ∧ _))

lemma Compressible.toInt_abs {d : BitVec 32} (h : Compressible d) : d.abs.toInt = |d.toInt| := by
  have hne : d ≠ BitVec.intMin 32 := by
    rintro rfl
    exact absurd h (by decide)
  rw [BitVec.toInt_abs_eq_natAbs_of_ne_intMin hne, Int.abs_eq_natAbs]

/-- Whether compressible differences fit, by their sizes. -/
lemma scanFits_eq_true_iff {diffs : ℕ → BitVec 32} {k : ℕ} (hk : k ≤ 6)
    (hcomp : ∀ i < 7 - k, Compressible (diffs i)) :
    scanFits diffs k = true ↔ ∀ i < 7 - k, |(diffs i).toInt| ≤ (compseq k).disc := by
  simp only [scanFits, List.all_eq_true, List.mem_range, decide_eq_true_eq, scan_compseq hk]
  refine forall₂_congr fun i hi => ?_
  rw [(hcomp i hi).toInt_abs]

/-- Compressible differences always fit in the last entry. -/
lemma scanFits_six {diffs : ℕ → BitVec 32} (hcomp : Compressible (diffs 0)) :
    scanFits diffs 6 = true := by
  have hzero : ∀ i < 7 - 6, Compressible (diffs i) := by
    intro i hi
    obtain rfl : i = 0 := by omega
    exact hcomp
  exact (scanFits_eq_true_iff le_rfl hzero).mpr fun i hi => abs_le.mpr (hzero i hi)

/-- The lowest byte of a word is its last one. -/
lemma ofWord_packFields (diffs : ℕ → BitVec 32) :
    WordBytes.ofWord true (packFields 8 4 255#32 diffs) = Shake.byteWord diffs := by
  funext j
  have hj := j.isLt
  apply BitVec.eq_of_getLsbD_eq
  intro i hi
  have hdiv : (8 * (3 - j.val) + i) / 8 = 3 - j := by omega
  have hmod : (8 * (3 - j.val) + i) % 8 = i := by omega
  have hfield : 4 - 1 - (3 - j.val) = j := by omega
  have hlt : 8 * (3 - j.val) + i < 32 := by omega
  have hmask : IsMask 8 255#32 := isMask 8
  rw [WordBytes.ofWord, BitVec.getLsbD_extractLsb', if_pos rfl,
    getLsbD_packFields (by norm_num) hmask hlt, hdiv, hmod, hfield, Shake.byteWord,
    BitVec.getLsbD_setWidth]
  simp [hi, hlt]

lemma fits_of_abs_le {d : BitVec 32} {n : ℕ} {bound : ℤ} (h : |d.toInt| ≤ bound)
    (hbound : bound < 2 ^ (n - 1)) : Fits n d := by
  obtain ⟨hlo, hhi⟩ := abs_lt.mp (h.trans_lt hbound)
  exact ⟨hlo.le, hhi⟩

variable {diffs : ℕ → BitVec 32}

/-- A word of fields of equal size behind the bits of its code. -/
lemma wordSamples2_fields {bits n : ℕ} {mask cbits code : BitVec 32} (dnib : BitVec 32)
    (hcbits : cbits <<< (bits * n) = dnib <<< 30) (hbits : 0 < bits) (hmask : IsMask bits mask)
    (hle : bits * n ≤ 30) (hdnib : dnib &&& 3#32 = dnib)
    (hform : ∀ w, (Shake.bytesToInt w false).sshiftRight 30 &&& 3#32 = dnib →
      Shake.wordSamples2 false code w
        = Shake.shiftedSamples (Shake.bytesToInt w false) (32 - bits * n) n bits)
    (hd : ∀ i < n, Fits bits (diffs i)) :
    Shake.wordSamples2 false code
        (WordBytes.ofWord true (packFields bits n mask diffs ||| cbits <<< (bits * n))) =
      (List.range n).map diffs := by
  rw [hcbits]
  exact Shake.wordSamples2_pack bigEndian hbits hmask hle hdnib hform hd

/-- A word that `compress_block` packs holds its differences. -/
lemma wordSamples2_packDiffs {k : ℕ} (hk : k ≤ 6)
    (hfit : ∀ i < 7 - k, |(diffs i).toInt| ≤ (compseq k).disc) :
    Shake.wordSamples2 false (compseq k).bc
        (WordBytes.ofWord true (packDiffs (compseq k) diffs)) =
      (List.range (7 - k)).map diffs := by
  have hd : ∀ bits, (compseq k).disc < 2 ^ (bits - 1) → ∀ i < 7 - k, Fits bits (diffs i) :=
    fun bits hbits i hi => fits_of_abs_le (hfit i hi) hbits
  rw [packDiffs, foldl_fields]
  interval_cases k <;> simp only [compseq]
  · exact wordSamples2_fields 2 (by decide) (by norm_num) (isMask 4) (by norm_num) (by decide)
      (fun w hw => by simp [Shake.wordSamples2, hw]) (hd 4 (by decide))
  · exact wordSamples2_fields 1 (by decide) (by norm_num) (isMask 5) (by norm_num) (by decide)
      (fun w hw => by simp [Shake.wordSamples2, hw]) (hd 5 (by decide))
  · exact wordSamples2_fields 0 (by decide) (by norm_num) (isMask 6) (by norm_num) (by decide)
      (fun w hw => by simp [Shake.wordSamples2, hw]) (hd 6 (by decide))
  · have hbytes := Shake.byteSamples_byteWord (hd 8 (by decide))
    rw [← ofWord_packFields] at hbytes
    simpa [Shake.wordSamples2] using hbytes
  · exact wordSamples2_fields 3 (by decide) (by norm_num) (isMask 10) (by norm_num) (by decide)
      (fun w hw => by simp [Shake.wordSamples2, hw, Shake.shiftedSamples, List.range_succ])
      (hd 10 (by decide))
  · exact wordSamples2_fields 2 (by decide) (by norm_num) (isMask 15) (by norm_num) (by decide)
      (fun w hw => by simp [Shake.wordSamples2, hw, Shake.shiftedSamples, List.range_succ])
      (hd 15 (by decide))
  · exact wordSamples2_fields 1 (by decide) (by norm_num) (isMask 30) (by norm_num) (by decide)
      (fun w hw => by simp [Shake.wordSamples2, hw, Shake.shiftedSamples, List.range_succ])
      (hd 30 (by decide))

/-- The scan does not depend on where it starts. -/
lemma ComPacket.scan_eq {pcom pcom' : ComPacket} (hctabx : pcom.ctabx ≤ 6)
    (hctabx' : pcom'.ctabx ≤ 6) (hpos : 0 < pcom.peekTotal)
    (htotal : pcom'.peekTotal = pcom.peekTotal) (hdiffs : pcom'.diffs = pcom.diffs) :
    pcom'.scan = pcom.scan := by
  have hfirst := pcom'.isFirstFit_scan hctabx' (by omega)
  rw [htotal, hdiffs] at hfirst
  exact hfirst.unique (pcom.isFirstFit_scan hctabx hpos)

/-- The entry that is taken has room for the samples that it is taken for. -/
lemma ComPacket.scan_spec {pcom : ComPacket} (hctabx : pcom.ctabx ≤ 6) (hpos : 0 < pcom.peekTotal)
    (hcomp : ∀ i < pcom.peekTotal, Compressible (pcom.diffs i)) :
    pcom.scan ≤ 6 ∧ 7 - pcom.scan ≤ pcom.peekTotal ∧
      ∀ i < 7 - pcom.scan, |(pcom.diffs i).toInt| ≤ (compseq pcom.scan).disc := by
  have hfirst := pcom.isFirstFit_scan hctabx hpos
  have hge := hfirst.ge
  have hfit : scanFits pcom.diffs pcom.scan = true := by
    rcases hfirst.fit with hfit | hsix
    · exact hfit
    · rw [hsix]
      exact scanFits_six (hcomp 0 hpos)
  refine ⟨hfirst.le, by have := hfirst.le; omega, ?_⟩
  exact (scanFits_eq_true_iff hfirst.le fun i hi => hcomp i (by omega)).mp hfit

/-- Begin a record, if nothing is in it yet. -/
def ComPacket.beginRecord (pcom : ComPacket) (firstSample : BitVec 32) : ComPacket :=
  if pcom.frame = pcom.blocketteCount + 1 ∧ pcom.block ≤ 1 then
    { pcom.startFrame firstSample with flagWord := 0 }
  else pcom

/-- The packet with the word that is packed next. -/
def ComPacket.packWord (pcom : ComPacket) (k : ℕ) : ComPacket :=
  { (pcom.beginRecord (pcom.peek 0)).putWord (compseq k).bc (packDiffs (compseq k) pcom.diffs) with
    ctabx := k
    peekTotal := pcom.peekTotal - (compseq k).scan
    nextOut := (pcom.nextOut + (compseq k).scan) % 16
    lastSample := pcom.peek ((compseq k).scan - 1) }

/-- Store the frame when it is full. -/
def ComPacket.storeFull (pcom : ComPacket) : ComPacket :=
  if 16 ≤ pcom.block then pcom.storeFrame else pcom

/-- `compress_block` in three steps, with a scan that starts where it did before the record was
begun. -/
lemma compressBlock_eq {pcom : ComPacket} (hctabx : pcom.ctabx ≤ 6) (hpos : 0 < pcom.peekTotal) :
    compressBlock pcom = ((pcom.packWord pcom.scan).storeFull, (compseq pcom.scan).scan) := by
  by_cases hbegin : pcom.frame = pcom.blocketteCount + 1 ∧ pcom.block ≤ 1
  · have hscan : ({ pcom.startFrame (pcom.peek 0) with flagWord := 0, ctabx := 0 } : ComPacket).scan
        = pcom.scan := ComPacket.scan_eq hctabx (Nat.zero_le _) hpos rfl rfl
    simp only [compressBlock, if_pos hbegin, hscan, ComPacket.packWord, ComPacket.beginRecord,
      ComPacket.storeFull]
    rfl
  · simp only [compressBlock, if_neg hbegin, ComPacket.packWord, ComPacket.beginRecord,
      ComPacket.storeFull]

/-- A block that the digitizer makes: four bytes, or a form of Steim 2 that has differences. -/
def ValidBlock (code accum : BitVec 32) : Prop :=
  code = 1 ∨ (code = 2 ∧ accum.sshiftRight 30 &&& 3#32 ≠ 0) ∨
    (code = 3 ∧ accum.sshiftRight 30 &&& 3#32 ≠ 3)

instance (code accum : BitVec 32) : Decidable (ValidBlock code accum) :=
  inferInstanceAs (Decidable (_ ∨ _))

/-- The entry of the table for a block of fields of `n` bits. -/
structure DecompBit.Reads (dcp : DecompBit) (n : ℕ) : Prop where
  pos : 0 < n
  lt : n < 32
  le : n * dcp.samps ≤ 32
  mask : dcp.mask = BitVec.ofNat 32 (2 ^ n - 1)
  hibit : dcp.hibit = BitVec.twoPow 32 (n - 1)
  neg : dcp.neg = BitVec.twoPow 32 n
  postshift : 1 < dcp.samps → dcp.postshift = n

/-- Unpacking reads the fields from the lowest one on. -/
lemma DecompBit.Reads.unpack_eq {dcp : DecompBit} {n k : ℕ} (h : dcp.Reads n)
    (hk : k ≤ dcp.samps) (hshift : 1 < k → dcp.postshift = n) (accum : BitVec 32)
    (unpacked : List (BitVec 32)) :
    unpack dcp k accum unpacked =
      (List.range k).map (fun i => signedField accum (n * (k - 1 - i)) n) ++ unpacked := by
  induction k generalizing accum unpacked with
  | zero => rfl
  | succ k ih =>
    have hle : n * (k + 1) ≤ 32 := (Nat.mul_le_mul_left n hk).trans h.le
    rw [unpack, masked_eq_signedField h.pos h.lt h.mask h.hibit h.neg,
      ih (by omega) (fun hlt => hshift (by omega)), List.range_succ, List.map_append,
      List.append_assoc]
    congr 1
    · refine List.map_congr_left fun i hi => ?_
      have hi := List.mem_range.mp hi
      have hsplit : n * (k + 1 - 1 - i) = n + n * (k - 1 - i) := by
        rw [show k + 1 - 1 - i = k - 1 - i + 1 by omega, Nat.mul_succ, Nat.add_comm]
      have hbound : n * (k - i) + n ≤ n * (k + 1) := by
        rw [← Nat.mul_succ]
        exact Nat.mul_le_mul_left n (by omega)
      rw [hshift (by omega), hsplit, signedField_sshiftRight h.pos]
      rw [show k + 1 - 1 - i = k - i by omega] at hsplit
      omega
    · simp

lemma reads_decomptab : (decomptab 0).Reads 8 ∧ (decomptab 1).Reads 30 ∧ (decomptab 2).Reads 15 ∧
    (decomptab 3).Reads 10 ∧ (decomptab 4).Reads 6 ∧ (decomptab 5).Reads 5 ∧
    (decomptab 6).Reads 4 := by
  refine ⟨?_, ?_, ?_, ?_, ?_, ?_, ?_⟩ <;>
    exact ⟨by norm_num, by norm_num, by decide, by decide, by decide, by decide, by decide⟩

/-- Shifting a field to the top and back reads it. -/
lemma shiftedSamples_eq {n count : ℕ} (hn : 0 < n) (hle : n * count ≤ 32) (accum : BitVec 32) :
    Shake.shiftedSamples accum (32 - n * count) count n =
      (List.range count).map fun i => signedField accum (n * (count - 1 - i)) n := by
  refine List.map_congr_left fun i hi => ?_
  have hi := List.mem_range.mp hi
  have hsplit : n * count = n * (count - 1 - i) + n + n * i := by
    rw [← Nat.mul_succ, ← mul_add]
    congr 1
    omega
  have hlast : n * count = n * (count - 1) + n := by
    rw [← Nat.mul_succ]
    congr 1
    omega
  rw [mul_comm i, mul_comm (count - 1), show 32 - n * count + n * i =
      32 - n - n * (count - 1 - i) by omega,
    show n * (count - 1) + (32 - n * count) = 32 - n by omega]
  exact sshiftRight_shiftLeft hn (by omega) accum

lemma DecompBit.Reads.unpack_shifted {dcp : DecompBit} {n : ℕ} (h : dcp.Reads n)
    (accum : BitVec 32) : unpack dcp dcp.samps accum [] =
      Shake.shiftedSamples accum (32 - n * dcp.samps) dcp.samps n := by
  rw [h.unpack_eq le_rfl h.postshift, List.append_nil, shiftedSamples_eq h.pos h.le]

/-- The bytes of a word are its fields. -/
lemma byteSamples_ofWord (accum : BitVec 32) : Shake.byteSamples (WordBytes.ofWord true accum) =
    (List.range 4).map fun i => signedField accum (8 * (4 - 1 - i)) 8 := rfl

lemma and_three_cases (v : BitVec 32) :
    v &&& 3#32 = 0 ∨ v &&& 3#32 = 1 ∨ v &&& 3#32 = 2 ∨ v &&& 3#32 = 3 := by
  have hle : (v &&& 3#32).toNat ≤ 3 := by
    rw [BitVec.toNat_and]
    exact Nat.and_le_right
  have hcases : (v &&& 3#32).toNat = 0 ∨ (v &&& 3#32).toNat = 1 ∨ (v &&& 3#32).toNat = 2 ∨
      (v &&& 3#32).toNat = 3 := by omega
  simpa [← BitVec.toNat_inj] using hcases

/-- What `decompress_blockette` unpacks from a valid block is what the decoder reads. -/
lemma unpack_eq_wordSamples2 {code accum : BitVec 32} (h : ValidBlock code accum) :
    subcode code accum ≤ 6 ∧
      unpack (decomptab (subcode code accum)) (decomptab (subcode code accum)).samps accum [] =
        Shake.wordSamples2 false code (WordBytes.ofWord true accum) := by
  have hread : Shake.bytesToInt (WordBytes.ofWord true accum) false = accum :=
    Shake.bytesToInt_fw bigEndian accum
  obtain ⟨h0, h1, h2, h3, h4, h5, h6⟩ := reads_decomptab
  have hcases := and_three_cases (accum.sshiftRight 30)
  rcases h with rfl | ⟨rfl, hdnib⟩ | ⟨rfl, hdnib⟩
  · have hunpack := h0.unpack_eq le_rfl h0.postshift accum []
    rw [List.append_nil] at hunpack
    have hsub : subcode 1 accum = 0 := by simp [subcode]
    rw [hsub, hunpack]
    exact ⟨by norm_num, (byteSamples_ofWord accum).symm⟩
  · rcases hcases with hd | hd | hd | hd
    · exact absurd hd hdnib
    · have hsub : subcode 2 accum = 1 := by simp [subcode, hd]
      rw [hsub, h1.unpack_shifted]
      simp [Shake.wordSamples2, hread, hd, decomptab, Shake.shiftedSamples, List.range_succ]
    · have hsub : subcode 2 accum = 2 := by simp [subcode, hd]
      rw [hsub, h2.unpack_shifted]
      simp [Shake.wordSamples2, hread, hd, decomptab, Shake.shiftedSamples, List.range_succ]
    · have hsub : subcode 2 accum = 3 := by simp [subcode, hd]
      rw [hsub, h3.unpack_shifted]
      simp [Shake.wordSamples2, hread, hd, decomptab, Shake.shiftedSamples, List.range_succ]
  · rcases hcases with hd | hd | hd | hd
    · have hsub : subcode 3 accum = 4 := by simp [subcode, hd]
      rw [hsub, h4.unpack_shifted]
      simp [Shake.wordSamples2, hread, hd, decomptab]
    · have hsub : subcode 3 accum = 5 := by simp [subcode, hd]
      rw [hsub, h5.unpack_shifted]
      simp [Shake.wordSamples2, hread, hd, decomptab]
    · have hsub : subcode 3 accum = 6 := by simp [subcode, hd]
      rw [hsub, h6.unpack_shifted]
      simp [Shake.wordSamples2, hread, hd, decomptab]
    · exact absurd hd hdnib

end Lib330

end StationProcessor
