import StationProcessor.Shake.SteimDecode

/-!
# What is packed is decoded

The two compressions are given back by their decoders, on either host and in either byte order. The
first one packs anything, the second one whatever has no difference of more than 30 bits.
-/

namespace StationProcessor

namespace Shake

open BitField

/-! ### The two packers -/

section Packers

variable {sw : Swapping} {diff : ℕ → BitVec 32} {minbits : ℕ → ℕ} {pointsRemaining : ℕ}
  {p : PackedWord}

lemma pointsPacked_packWord2 (h : packWord2 sw diff minbits pointsRemaining = some p) :
    p.pointsPacked ≤ 7 := by
  unfold packWord2 at h
  split_ifs at h <;> obtain rfl := Option.some.inj h <;> simp

lemma pointsPacked_packWord1 (h : packWord1 sw diff minbits pointsRemaining = some p) :
    p.pointsPacked ≤ 4 := by
  unfold packWord1 at h
  split_ifs at h <;> obtain rfl := Option.some.inj h <;> simp

lemma faithful_steim2 (sw : Swapping) : Faithful sw (steim2 sw) decoder2 where
  width_pos := by simp [steim2]
  gives _ _ _ _ _ hmin hpack := ⟨gives_packWord2 hmin hpack, pointsPacked_packWord2 hpack⟩

lemma faithful_steim1 (sw : Swapping) : Faithful sw (steim1 sw) decoder1 where
  width_pos := by simp [steim1]
  gives _ _ _ p hpos hmin hpack := by
    obtain ⟨q, heq, hgives⟩ := gives_packWord1 sw hmin hpos
    obtain rfl := Option.some.inj (heq.symm.trans hpack)
    exact ⟨hgives, pointsPacked_packWord1 hpack⟩

/-- Steim 2 gets stuck on a difference that needs more than 30 bits. -/
lemma Stuck.not_fits {d : BitVec 32} (h : Stuck (steim2 sw) d) : ¬ Fits 30 d := by
  obtain ⟨diff, minbits, pointsRemaining, hpos, hmin, rfl, hnone⟩ := h
  exact (packWord2_eq_none_iff hmin hpos).mp hnone

/-- Steim 1 never gets stuck. -/
lemma not_stuck_steim1 (d : BitVec 32) : ¬ Stuck (steim1 sw) d := by
  rintro ⟨diff, minbits, pointsRemaining, hpos, hmin, -, hnone⟩
  obtain ⟨p, heq, -⟩ := gives_packWord1 sw hmin hpos
  exact absurd (heq.symm.trans hnone) (by simp)

end Packers

/-! ### Sizes of what is decoded -/

/-- A word that was shifted back with its sign has lost so many bits. -/
lemma fits_sshiftRight (v : BitVec 32) : Fits 30 (v.sshiftRight 2) := by
  have hlo := v.le_toInt
  have hhi := v.toInt_lt
  norm_num at hlo hhi
  simp only [Fits, BitVec.toInt_sshiftRight, Int.shiftRight_eq_div_pow]
  norm_num
  omega

lemma fits_sshiftRight_of_le (v : BitVec 32) {k : ℕ} (hk : 2 ≤ k) : Fits 30 (v.sshiftRight k) := by
  obtain ⟨m, rfl⟩ : ∃ m, k = m + 2 := ⟨k - 2, by omega⟩
  rw [BitVec.sshiftRight_add]
  exact fits_sshiftRight _

lemma fits_signExtend (b : BitVec 8) : Fits 30 (b.signExtend 32) := by
  have hlo := b.le_toInt
  have hhi := b.toInt_lt
  rw [Fits, BitVec.toInt_signExtend_of_le (by norm_num)]
  norm_num at hlo hhi ⊢
  omega

/-- No difference that the decoder of Steim 2 finds needs more than 30 bits. -/
lemma fits_wordSamples2 {swapBytes : Bool} {currNibble : BitVec 32} {w : UDiff} {d : BitVec 32}
    (h : d ∈ wordSamples2 swapBytes currNibble w) : Fits 30 d := by
  have hshifted : ∀ {tempInt headerSize diffCount bitSize}, 2 ≤ headerSize →
      d ∈ shiftedSamples tempInt headerSize diffCount bitSize → Fits 30 d := by
    intro tempInt headerSize diffCount bitSize hsize hd
    obtain ⟨j, -, rfl⟩ := List.mem_map.mp hd
    exact fits_sshiftRight_of_le _ (by omega)
  simp only [wordSamples2] at h
  split_ifs at h
  · simp only [byteSamples, List.mem_cons, List.not_mem_nil, or_false] at h
    rcases h with rfl | rfl | rfl | rfl <;> exact fits_signExtend _
  · rw [List.mem_singleton.mp h]
    exact fits_sshiftRight _
  · simp only [List.mem_cons, List.not_mem_nil, or_false] at h
    rcases h with rfl | rfl <;> exact fits_sshiftRight_of_le _ (by norm_num)
  · simp only [List.mem_cons, List.not_mem_nil, or_false] at h
    rcases h with rfl | rfl | rfl <;> exact fits_sshiftRight_of_le _ (by norm_num)
  · exact absurd h List.not_mem_nil
  · exact hshifted (by norm_num) h
  · exact hshifted (by norm_num) h
  · exact hshifted (by norm_num) h
  · exact absurd h List.not_mem_nil

section Blocks

variable {sw : Swapping} {dec : SteimDecoder} {data : ℕ → BitVec 32} {d0 : BitVec 32}
  {ws : List PackedWord} {dframes : ℕ → Frame} {n N : ℕ}

lemma Block.fits (h : Block sw decoder2 data d0 ws dframes n N) :
    ∀ i < N, Fits 30 (difference data d0 i) := by
  intro i hi
  have hmem : difference data d0 i ∈ (List.range N).map (difference data d0) :=
    List.mem_map_of_mem (List.mem_range.mpr hi)
  rw [← h.samples] at hmem
  obtain ⟨p, -, hp⟩ := List.mem_flatMap.mp hmem
  exact fits_wordSamples2 hp

/-- Every word holds a sample, and no more than there is room for. -/
lemma Block.length_le_count {most : ℕ} (h : Block sw dec data d0 ws dframes n N)
    (hroomy : dec.Roomy most) : ws.length ≤ N ∧ N ≤ most * ws.length := by
  have hlength := congrArg List.length h.samples
  rw [List.length_flatMap, List.length_map, List.length_range] at hlength
  rw [← hlength]
  have hgood := h.good
  clear h hlength
  induction ws with
  | nil => simp
  | cons p ws ih =>
    obtain ⟨hle, hge⟩ := ih fun q hq => hgood q (by simp [hq])
    have hpos := List.length_pos_iff.mpr (hgood p (by simp)).samples_ne
    have hmost := hroomy.words sw.swapBytes p.mask p.w
    rw [List.map_cons, List.sum_cons, List.length_cons, Nat.mul_succ]
    omega

end Blocks

/-! ### Round trips -/

section RoundTrip

variable (sw : Swapping) (dframes : ℕ → Frame) (data : ℕ → BitVec 32) (d0 : BitVec 32) {ns nf : ℕ}

/-- A block in which so many samples are packed: all of them, unless the block is full. -/
structure Packed (ns nf most : ℕ) (pad : Bool) (n N : ℕ) : Prop where
  pos : 0 < N
  le : N ≤ ns
  frames_le : n ≤ nf
  padded : pad = true → n = nf
  full : N < ns → 15 * nf - 2 ≤ N
  room : N ≤ most * (15 * n - 2)

lemma packed_of_block {dec : SteimDecoder} {ws : List PackedWord} {dframes' : ℕ → Frame}
    {n N most : ℕ} {pad : Bool} (h : Block sw dec data d0 ws dframes' n N)
    (hroomy : dec.Roomy most) (hpos : 0 < N) (hle : N ≤ ns) (hframes : n ≤ nf)
    (hpad : pad = true → n = nf) (hfull : N = ns ∨ ws.length + 2 = valsPerFrame * nf) :
    Packed ns nf most pad n N := by
  obtain ⟨hwords, hmost⟩ := h.length_le_count hroomy
  have hlength := h.length_le
  rw [valsPerFrame_eq] at hlength hfull
  refine ⟨hpos, hle, hframes, hpad, fun hlt => by omega, hmost.trans ?_⟩
  exact Nat.mul_le_mul_left _ (by omega)

/-- Packing in Steim 2 fails only for a difference of more than 30 bits; a block that it makes
decodes to the samples in it, also when the decoder is given the sample before them. -/
theorem decode2_msrPackSteim (hns : 0 < ns) (hnf : 0 < nf) (hnf' : nf ≤ 63) (pad : Bool) :
    (∃ i < ns, msrPackSteim sw (steim2 sw) dframes data d0 ns nf pad = none ∧
      ¬ Fits 30 (difference data d0 i)) ∨
    ∃ dframes' n N,
      msrPackSteim sw (steim2 sw) dframes data d0 ns nf pad = some (dframes', n, N) ∧
      Packed ns nf 7 pad n N ∧ (∀ i < N, Fits 30 (difference data d0 i)) ∧
      ∀ strictRIC bias, bias = 0 ∨ bias = data 0 - d0 →
        decode2 strictRIC (frameByte sw dframes') (n * 64) N sw.swapBytes bias =
          some ⟨(List.range N).map data, false, false⟩ := by
  rcases msrPackSteim_spec (faithful_steim2 sw) dframes data d0 hnf hns pad with
    ⟨ws, dframes', n, N, heq, hblock, hpos, hle, hframes, hpad, hfull⟩ | ⟨heq, i, hi, hstuck⟩
  · have hpacked := packed_of_block sw data d0 hblock roomy_decoder2 hpos hle hframes hpad hfull
    refine Or.inr ⟨dframes', n, N, heq, hpacked, hblock.fits, fun strictRIC bias hbias => ?_⟩
    exact hblock.decode2_eq (hframes.trans hnf') hpos hbias strictRIC
  · exact Or.inl ⟨i, hi, heq, hstuck.not_fits⟩

/-- Frames with nothing in them. -/
def blankFrames : ℕ → Frame := fun _ => ⟨0, fun _ _ => 0⟩

/-- Three samples on a little-endian host, packed in big-endian order. -/
theorem decode2_msrPackSteim_three : ∃ dframes',
    msrPackSteim ⟨false, true⟩ (steim2 ⟨false, true⟩) blankFrames (BitVec.ofNat 32) 0 3 1 true =
      some (dframes', 1, 3) ∧
    decode2 true (frameByte ⟨false, true⟩ dframes') 64 3 false 0 =
      some ⟨[0, 1, 2], false, false⟩ := by
  rcases decode2_msrPackSteim ⟨false, true⟩ blankFrames (BitVec.ofNat 32) 0 (show 0 < 3 by norm_num)
    (show 0 < 1 by norm_num) (by norm_num) true with
    ⟨i, hi, -, hfits⟩ | ⟨dframes', n, N, heq, hpacked, -, hdecode⟩
  · have hall : ∀ i < 3, Fits 30 (difference (BitVec.ofNat 32) 0 i) := by decide
    exact absurd (hall i hi) hfits
  · obtain rfl : n = 1 := hpacked.padded rfl
    obtain rfl : N = 3 := by
      have hle := hpacked.le
      have hfull := hpacked.full
      omega
    exact ⟨dframes', heq, hdecode true 0 (Or.inl rfl)⟩

/-- Packing in Steim 1 never fails, and its blocks decode to the samples in them. -/
theorem decode1_msrPackSteim (hns : 0 < ns) (hnf : 0 < nf) (pad : Bool) :
    ∃ dframes' n N,
      msrPackSteim sw (steim1 sw) dframes data d0 ns nf pad = some (dframes', n, N) ∧
      Packed ns nf 4 pad n N ∧
      ∀ bias, bias = 0 ∨ bias = data 0 - d0 →
        decode1 (frameByte sw dframes') (n * 64) N sw.swapBytes bias =
          some ((List.range N).map data) := by
  rcases msrPackSteim_spec (faithful_steim1 sw) dframes data d0 hnf hns pad with
    ⟨ws, dframes', n, N, heq, hblock, hpos, hle, hframes, hpad, hfull⟩ | ⟨-, i, -, hstuck⟩
  · have hpacked := packed_of_block sw data d0 hblock roomy_decoder1 hpos hle hframes hpad hfull
    exact ⟨dframes', n, N, heq, hpacked, fun bias hbias => hblock.decode1_eq hpos hbias⟩
  · exact absurd hstuck (not_stuck_steim1 _)

/-- A step over the whole range. -/
theorem decode1_msrPackSteim_step : ∃ dframes',
    msrPackSteim ⟨true, false⟩ (steim1 ⟨true, false⟩) blankFrames
      (fun i => if i = 0 then 0 else 2 ^ 31) 0 2 1 true = some (dframes', 1, 2) ∧
    decode1 (frameByte ⟨true, false⟩ dframes') 64 2 false 0 = some [0, 2 ^ 31] := by
  obtain ⟨dframes', n, N, heq, hpacked, hdecode⟩ := decode1_msrPackSteim ⟨true, false⟩ blankFrames
    (fun i => if i = 0 then 0 else 2 ^ 31) 0 (show 0 < 2 by norm_num) (show 0 < 1 by norm_num) true
  obtain rfl : n = 1 := hpacked.padded rfl
  obtain rfl : N = 2 := by
    have hle := hpacked.le
    have hfull := hpacked.full
    omega
  exact ⟨dframes', heq, hdecode 0 (Or.inl rfl)⟩

end RoundTrip

end Shake

end StationProcessor
