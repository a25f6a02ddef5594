import StationProcessor.Shake.Steim

/-!
# Words of compressed differences

Each form in which the next differences are packed into a word is one that the decoder gives back,
difference for difference.
-/

namespace StationProcessor

namespace Shake

open BitField

variable {sw : Swapping} {diff : ℕ → BitVec 32} {minbits : ℕ → ℕ} {pointsRemaining : ℕ}

/-! ### Byte orders -/

lemma Swapping.fw_eq (sw : Swapping) (v : BitVec 32) :
    sw.fw v = WordBytes.ofWord (sw.bigHost ^^ sw.swapflag) v := by
  rcases sw with ⟨bigHost, swapflag⟩
  cases swapflag
  · simp [Swapping.fw, Swapping.gswap4]
  · simp [Swapping.fw, Swapping.gswap4, WordBytes.ofWord_reverse]

lemma bytesToInt_ofWord (big : Bool) (v : BitVec 32) :
    bytesToInt (WordBytes.ofWord big v) (!big) = v := by
  cases big with
  | true => exact WordBytes.toWord_extract v
  | false => exact WordBytes.toWord_extract v

/-- A word that is stored is read back. -/
@[simp] lemma bytesToInt_fw (sw : Swapping) (v : BitVec 32) :
    bytesToInt (sw.fw v) sw.swapBytes = v := by
  rw [sw.fw_eq]
  exact bytesToInt_ofWord _ v

/-- The two bytes of a number of 16 bits, with its sign. -/
lemma signExtend_halves (s : BitVec 16) :
    ((s.extractLsb' 8 8).signExtend 32 <<< 8) + (s.extractLsb' 0 8).setWidth 32
      = s.signExtend 32 := by
  have hand : ((s.extractLsb' 8 8).signExtend 32 <<< 8) &&& (s.extractLsb' 0 8).setWidth 32
      = 0#32 := by
    apply BitVec.eq_of_getLsbD_eq
    intro i hi
    by_cases hlt : i < 8
    · simp [hlt]
    · simp [hlt]
  rw [BitVec.add_eq_or_of_and_eq_zero _ _ hand]
  apply BitVec.eq_of_getLsbD_eq
  intro i hi
  have hmsb : (s.extractLsb' 8 8).msb = s.msb := by
    rw [BitVec.msb_eq_getLsbD_last, BitVec.getLsbD_extractLsb', BitVec.msb_eq_getLsbD_last]
    simp
  rw [BitVec.getLsbD_or, BitVec.getLsbD_shiftLeft, BitVec.getLsbD_signExtend,
    BitVec.getLsbD_signExtend, BitVec.getLsbD_setWidth, BitVec.getLsbD_extractLsb',
    BitVec.getLsbD_extractLsb', hmsb]
  by_cases hlow : i < 8
  · have hhalf : i < 16 := by omega
    simp [hlow, hhalf, hi]
  · by_cases hhalf : i < 16
    · have hhigh : i - 8 < 8 := by omega
      have hsum : 8 + (i - 8) = i := by omega
      simp [hlow, hhalf, hhigh, hsum, hi]
      omega
    · have hhigh : ¬ i - 8 < 8 := by omega
      simp [hlow, hhalf, hhigh, hi]
      omega

/-- Half words that are stored are read back. -/
lemma bytesToInt16_hw (sw : Swapping) {d₀ d₁ : BitVec 32} (h₀ : Fits 16 d₀) (h₁ : Fits 16 d₁) :
    bytesToInt16 (sw.hw d₀ d₁ 0) (sw.hw d₀ d₁ 1) sw.swapBytes = d₀ ∧
      bytesToInt16 (sw.hw d₀ d₁ 2) (sw.hw d₀ d₁ 3) sw.swapBytes = d₁ := by
  have hhalf : ∀ s : BitVec 16, WordBytes.ofHalf sw.bigHost
      (if sw.swapflag then WordBytes.reverseHalf s else s)
        = WordBytes.ofHalf (sw.bigHost ^^ sw.swapflag) s := by
    intro s
    cases sw.swapflag
    · simp
    · simp [WordBytes.ofHalf_reverseHalf]
  have hread : ∀ d : BitVec 32, Fits 16 d → bytesToInt16
      (WordBytes.ofHalf sw.bigHost
        (if sw.swapflag then WordBytes.reverseHalf (d.setWidth 16) else d.setWidth 16) 0)
      (WordBytes.ofHalf sw.bigHost
        (if sw.swapflag then WordBytes.reverseHalf (d.setWidth 16) else d.setWidth 16) 1)
      sw.swapBytes = d := by
    intro d hd
    have hsign := signExtend_halves (d.setWidth 16)
    rw [hd.signExtend_setWidth (by norm_num) (by norm_num)] at hsign
    rw [hhalf, Swapping.swapBytes]
    cases sw.bigHost ^^ sw.swapflag with
    | true => exact hsign
    | false =>
      rw [BitVec.add_comm] at hsign
      exact hsign
  exact ⟨hread d₀ h₀, hread d₁ h₁⟩

/-! ### Sizes -/

/-- A difference fits in the number of bits that `MINBITS` finds. -/
lemma fits_minbitsOf (d : BitVec 32) : Fits (minbitsOf d) d := by
  have hlo := d.le_toInt
  have hhi := d.toInt_lt
  unfold minbitsOf
  split_ifs <;> simp only [Fits] <;> norm_num at hlo hhi ⊢ <;> omega

lemma minbitsOf_le_of_fits {d : BitVec 32} (h : Fits 30 d) : minbitsOf d ≤ 30 := by
  have hlo := h.1
  have hhi := h.2
  norm_num at hlo hhi
  unfold minbitsOf
  split_ifs <;> omega

lemma canPack_iff {bits n : ℕ} : canPack bits n minbits pointsRemaining = true ↔
    n ≤ pointsRemaining ∧ ∀ i < n, minbits i ≤ bits := by
  simp [canPack]

/-- The `minbits` buffer belongs to the differences that are left. -/
def MinbitsHold (width pointsRemaining : ℕ) (diff : ℕ → BitVec 32) (minbits : ℕ → ℕ) : Prop :=
  ∀ i < width, i < pointsRemaining → minbits i = minbitsOf (diff i)

lemma MinbitsHold.fits {width bits n : ℕ} (h : MinbitsHold width pointsRemaining diff minbits)
    (hn : n ≤ width) (hpack : canPack bits n minbits pointsRemaining = true) :
    ∀ i < n, Fits bits (diff i) := by
  intro i hi
  obtain ⟨hle, hmin⟩ := canPack_iff.mp hpack
  have hfits := fits_minbitsOf (diff i)
  rw [← h i (by omega) (by omega)] at hfits
  exact hfits.mono (hmin i hi)

/-! ### Packed words -/

/-- A packed word that the decoder gives the next differences back from. -/
structure Gives (dec : SteimDecoder) (sw : Swapping) (diff : ℕ → BitVec 32)
    (pointsRemaining : ℕ) (p : PackedWord) : Prop where
  pos : 0 < p.pointsPacked
  le : p.pointsPacked ≤ pointsRemaining
  mask_ne : p.mask ≠ 0
  mask_eq : p.mask &&& 3#32 = p.mask
  samples : dec.wordSamples sw.swapBytes p.mask p.w = (List.range p.pointsPacked).map diff

lemma Gives.of_mask {dec : SteimDecoder} {mask : BitVec 32} {w : UDiff} {n : ℕ} (hn : 0 < n)
    (hle : n ≤ pointsRemaining) (hmask : mask = 1 ∨ mask = 2 ∨ mask = 3)
    (hsamples : dec.wordSamples sw.swapBytes mask w = (List.range n).map diff) :
    Gives dec sw diff pointsRemaining ⟨mask, w, n⟩ := by
  have hne : mask ≠ 0 := by rcases hmask with rfl | rfl | rfl <;> decide
  have hand : mask &&& 3#32 = mask := by rcases hmask with rfl | rfl | rfl <;> decide
  exact ⟨hn, hle, hne, hand, hsamples⟩

lemma byteSamples_byteWord (h : ∀ i < 4, Fits 8 (diff i)) :
    byteSamples (byteWord diff) = (List.range 4).map diff := by
  have hread : ∀ i < 4, ((diff i).setWidth 8).signExtend 32 = diff i :=
    fun i hi => (h i hi).signExtend_setWidth (by norm_num) (by norm_num)
  have h0 := hread 0 (by norm_num)
  have h1 := hread 1 (by norm_num)
  have h2 := hread 2 (by norm_num)
  have h3 := hread 3 (by norm_num)
  simp [byteSamples, byteWord, List.range_succ, h0, h1, h2, h3]

section Fields

variable {bits n : ℕ} {m1 m2 : BitVec 32}

/-- Fields that are shifted to the top and back are the differences. -/
lemma shiftedSamples_pack (hbits : 0 < bits) (hm1 : IsMask bits m1) (hle : bits * n ≤ 30)
    (hd : ∀ i < n, Fits bits (diff i)) :
    shiftedSamples (pack bits n m1 m2 diff) (32 - bits * n) n bits = (List.range n).map diff := by
  refine List.map_congr_left fun j hj => ?_
  have hj := List.mem_range.mp hj
  have hfield := sshiftRight_packFields hbits hm1 hle hj (hd j hj) m2
  have hsplit : bits * n = bits * (n - j) + bits * j := by
    rw [← mul_add, Nat.sub_add_cancel hj.le]
  have hlast : bits * n = bits * (n - 1) + bits := by
    rw [← Nat.mul_succ]
    congr 1
    omega
  rw [pack, show 32 - bits * n + j * bits = 32 - bits * (n - j) by rw [mul_comm j]; omega,
    show (n - 1) * bits + (32 - bits * n) = 32 - bits by rw [mul_comm (n - 1)]; omega]
  exact hfield

variable (diff) in
lemma dnib_pack (hbits : 0 < bits) (hm1 : IsMask bits m1) (hle : bits * n ≤ 30)
    (hm2 : m2 &&& 3#32 = m2) : (pack bits n m1 m2 diff).sshiftRight 30 &&& 3#32 = m2 :=
  (top_packFields hbits hm1 hle m2).trans hm2

variable (sw) in
/-- A form of Steim 2 with fields of equal size, which the decoder recognises by the mask and the
two bits at the top, is read as its differences. -/
lemma wordSamples2_pack {mask : BitVec 32} (hbits : 0 < bits) (hm1 : IsMask bits m1)
    (hle : bits * n ≤ 30) (hm2 : m2 &&& 3#32 = m2)
    (hform : ∀ w, (bytesToInt w sw.swapBytes).sshiftRight 30 &&& 3#32 = m2 →
      wordSamples2 sw.swapBytes mask w
        = shiftedSamples (bytesToInt w sw.swapBytes) (32 - bits * n) n bits)
    (hd : ∀ i < n, Fits bits (diff i)) :
    wordSamples2 sw.swapBytes mask (sw.fw (pack bits n m1 m2 diff)) =
      (List.range n).map diff := by
  have hdnib := dnib_pack diff hbits hm1 hle hm2
  rw [← bytesToInt_fw sw (pack bits n m1 m2 diff)] at hdnib
  rw [hform _ hdnib, bytesToInt_fw]
  exact shiftedSamples_pack hbits hm1 hle hd

lemma gives_pack {mask : BitVec 32} (hbits : 0 < bits) (hn : 0 < n) (hm1 : IsMask bits m1)
    (hle : bits * n ≤ 30) (hm2 : m2 &&& 3#32 = m2) (hmask : mask = 1 ∨ mask = 2 ∨ mask = 3)
    (hform : ∀ w, (bytesToInt w sw.swapBytes).sshiftRight 30 &&& 3#32 = m2 →
      wordSamples2 sw.swapBytes mask w
        = shiftedSamples (bytesToInt w sw.swapBytes) (32 - bits * n) n bits)
    (hmin : MinbitsHold 7 pointsRemaining diff minbits) (hn' : n ≤ 7)
    (hcan : canPack bits n minbits pointsRemaining = true) :
    Gives decoder2 sw diff pointsRemaining ⟨mask, sw.fw (pack bits n m1 m2 diff), n⟩ :=
  .of_mask hn (canPack_iff.mp hcan).1 hmask
    (wordSamples2_pack sw hbits hm1 hle hm2 hform (hmin.fits hn' hcan))

end Fields

/-- What Steim 2 packs next is given back. -/
lemma gives_packWord2 {p : PackedWord} (hmin : MinbitsHold 7 pointsRemaining diff minbits)
    (h : packWord2 sw diff minbits pointsRemaining = some p) :
    Gives decoder2 sw diff pointsRemaining p := by
  unfold packWord2 at h
  split_ifs at h with h4 h5 h6 h8 h10 h15 h30 <;> obtain rfl := Option.some.inj h
  · exact gives_pack (by norm_num) (by norm_num) (isMask 4) (by norm_num) (by decide) (by simp)
      (fun w hw => by simp [wordSamples2, hw]) hmin (by norm_num) h4
  · exact gives_pack (by norm_num) (by norm_num) (isMask 5) (by norm_num) (by decide) (by simp)
      (fun w hw => by simp [wordSamples2, hw]) hmin (by norm_num) h5
  · exact gives_pack (by norm_num) (by norm_num) (isMask 6) (by norm_num) (by decide) (by simp)
      (fun w hw => by simp [wordSamples2, hw]) hmin (by norm_num) h6
  · exact .of_mask (by norm_num) (canPack_iff.mp h8).1 (by simp)
      (byteSamples_byteWord (hmin.fits (by norm_num) h8))
  · exact gives_pack (by norm_num) (by norm_num) (isMask 10) (by norm_num) (by decide) (by simp)
      (fun w hw => by simp [wordSamples2, hw, shiftedSamples, List.range_succ]) hmin (by norm_num)
      h10
  · exact gives_pack (by norm_num) (by norm_num) (isMask 15) (by norm_num) (by decide) (by simp)
      (fun w hw => by simp [wordSamples2, hw, shiftedSamples, List.range_succ]) hmin (by norm_num)
      h15
  · exact gives_pack (by norm_num) (by norm_num) (isMask 30) (by norm_num) (by decide) (by simp)
      (fun w hw => by simp [wordSamples2, hw, shiftedSamples, List.range_succ]) hmin (by norm_num)
      h30

/-- Steim 2 has a form for the next difference exactly when it needs at most 30 bits. -/
lemma packWord2_eq_none_iff (hmin : MinbitsHold 7 pointsRemaining diff minbits)
    (hpos : 0 < pointsRemaining) :
    packWord2 sw diff minbits pointsRemaining = none ↔ ¬ Fits 30 (diff 0) := by
  have hzero := hmin 0 (by norm_num) hpos
  constructor
  · intro h hfits
    have h30 : canPack 30 1 minbits pointsRemaining = true := by
      refine canPack_iff.mpr ⟨hpos, fun i hi => ?_⟩
      obtain rfl : i = 0 := by omega
      rw [hzero]
      exact minbitsOf_le_of_fits hfits
    simp [packWord2, h30] at h
    split_ifs at h
  · intro hfits
    cases h : packWord2 sw diff minbits pointsRemaining with
    | none => rfl
    | some p =>
      exfalso
      apply hfits
      -- whatever form was taken, the first difference is one of those in it
      have hsize : ∃ bits n, 0 < n ∧ n ≤ 7 ∧ bits ≤ 30 ∧
          canPack bits n minbits pointsRemaining = true := by
        unfold packWord2 at h
        split_ifs at h with h4 h5 h6 h8 h10 h15 h30
        · exact ⟨4, 7, by norm_num, by norm_num, by norm_num, h4⟩
        · exact ⟨5, 6, by norm_num, by norm_num, by norm_num, h5⟩
        · exact ⟨6, 5, by norm_num, by norm_num, by norm_num, h6⟩
        · exact ⟨8, 4, by norm_num, by norm_num, by norm_num, h8⟩
        · exact ⟨10, 3, by norm_num, by norm_num, by norm_num, h10⟩
        · exact ⟨15, 2, by norm_num, by norm_num, by norm_num, h15⟩
        · exact ⟨30, 1, by norm_num, by norm_num, by norm_num, h30⟩
      obtain ⟨bits, n, hn, hn', hbits, hpack⟩ := hsize
      exact (hmin.fits hn' hpack 0 hn).mono hbits

variable (sw) in
/-- What Steim 1 packs next is given back; it always packs something. -/
lemma gives_packWord1 (hmin : MinbitsHold 4 pointsRemaining diff minbits)
    (hpos : 0 < pointsRemaining) :
    ∃ p, packWord1 sw diff minbits pointsRemaining = some p ∧
      Gives decoder1 sw diff pointsRemaining p := by
  unfold packWord1
  split_ifs with h8 h16
  · exact ⟨_, rfl, .of_mask (by norm_num) (canPack_iff.mp h8).1 (by simp)
      (byteSamples_byteWord (hmin.fits (by norm_num) h8))⟩
  · have hd := hmin.fits (by norm_num) h16
    obtain ⟨hread, hread'⟩ := bytesToInt16_hw sw (hd 0 (by norm_num)) (hd 1 (by norm_num))
    refine ⟨_, rfl, .of_mask (by norm_num) (canPack_iff.mp h16).1 (by simp) ?_⟩
    simp [decoder1, wordSamples1, hread, hread', List.range_succ]
  · refine ⟨_, rfl, .of_mask (by norm_num) hpos (by simp) ?_⟩
    simp [decoder1, wordSamples1, List.range_succ]

end Shake

end StationProcessor
