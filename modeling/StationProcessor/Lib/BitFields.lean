import Mathlib.Data.BitVec
import Mathlib.Tactic

/-!
# Signed numbers in bit fields

Several signed numbers of few bits stand in one word of 32 bits, the first one highest. A field is
read by shifting it to the top and back down with its sign, which gives the number back when it
fits. Words themselves are bytes in one of two orders.
-/

namespace BitField

/-- A number that needs at most `n` bits with its sign. -/
def Fits (n : ℕ) (d : BitVec 32) : Prop := -2 ^ (n - 1) ≤ d.toInt ∧ d.toInt < 2 ^ (n - 1)

instance (n : ℕ) (d : BitVec 32) : Decidable (Fits n d) := inferInstanceAs (Decidable (_ ∧ _))

/-- From its sign bit on, all bits of a number that fits are equal. -/
lemma Fits.getLsbD {n i : ℕ} {d : BitVec 32} (h : Fits n d) (hi : n - 1 ≤ i) (hi' : i < 32) :
    d.getLsbD i = d.msb := by
  have hpow : 2 ^ (n - 1) ≤ 2 ^ i := Nat.pow_le_pow_right (by norm_num) hi
  obtain ⟨hlo, hhi⟩ := h
  cases hmsb : d.msb with
  | false =>
    rw [BitVec.toInt_eq_toNat_of_msb hmsb] at hhi
    have hlt : d.toNat < 2 ^ (n - 1) := by exact_mod_cast hhi
    exact Nat.testBit_lt_two_pow (hlt.trans_le hpow)
  | true =>
    have hcompl : (~~~d).toNat < 2 ^ (n - 1) := by
      have hint := BitVec.toInt_eq_msb_cond d
      rw [hmsb, if_pos rfl] at hint
      rw [hint] at hlo
      rw [BitVec.toNat_not]
      have hlt := d.isLt
      zify
      rw [Nat.cast_sub (by omega), Nat.cast_sub (by omega)]
      push_cast at hlo ⊢
      omega
    have hbit : (~~~d).getLsbD i = false := Nat.testBit_lt_two_pow (hcompl.trans_le hpow)
    simpa [hi'] using hbit

lemma Fits.mono {m n : ℕ} {d : BitVec 32} (h : Fits m d) (hmn : m ≤ n) : Fits n d := by
  have hpow : (2 : ℤ) ^ (m - 1) ≤ 2 ^ (n - 1) := pow_le_pow_right₀ (by norm_num) (by omega)
  exact ⟨(neg_le_neg hpow).trans h.1, h.2.trans_le hpow⟩

/-- A number that fits is its low bits with their sign. -/
lemma Fits.signExtend_setWidth {n : ℕ} {d : BitVec 32} (h : Fits n d) (hn : 0 < n)
    (hn' : n ≤ 32) : (d.setWidth n).signExtend 32 = d := by
  apply BitVec.eq_of_getLsbD_eq
  intro i hi
  have hmsb : (d.setWidth n).msb = d.msb := by
    rw [BitVec.msb_eq_getLsbD_last, BitVec.getLsbD_setWidth, h.getLsbD le_rfl (by omega)]
    simp
    omega
  rw [BitVec.getLsbD_signExtend, hmsb, BitVec.getLsbD_setWidth]
  by_cases hin : i < n
  · simp [hi, hin]
  · rw [if_neg hin, h.getLsbD (by omega : n - 1 ≤ i) hi]
    simp [hi]

/-! ### Packing -/

/-- Append `k` fields of `n` bits to a word, one after another. -/
def packFields (n k : ℕ) (mask : BitVec 32) (d : ℕ → BitVec 32) : BitVec 32 :=
  (List.range k).foldl (fun val i => (val <<< n) ||| (d i &&& mask)) 0#32

/-- The mask of the low `n` bits. -/
def IsMask (n : ℕ) (mask : BitVec 32) : Prop :=
  ∀ i < 32, mask.getLsbD i = decide (i < n)

lemma isMask (n : ℕ) : IsMask n (BitVec.ofNat 32 (2 ^ n - 1)) := by
  intro i hi
  rw [BitVec.getLsbD_ofNat, Nat.testBit_two_pow_sub_one]
  simp [hi]

variable {n k : ℕ} {mask : BitVec 32} {d : ℕ → BitVec 32}

@[simp] lemma packFields_zero : packFields n 0 mask d = 0#32 := rfl

lemma packFields_succ : packFields n (k + 1) mask d =
    (packFields n k mask d <<< n) ||| (d k &&& mask) := by
  simp [packFields, List.range_succ]

lemma packFields_congr {d' : ℕ → BitVec 32} (h : ∀ i < k, d i = d' i) :
    packFields n k mask d = packFields n k mask d' := by
  induction k with
  | zero => rfl
  | succ k ih =>
    rw [packFields_succ, packFields_succ, ih fun i hi => h i (by omega), h k (by omega)]

/-- Bit `i` of a packed word is a bit of the field it is in. -/
lemma getLsbD_packFields (hn : 0 < n) (hmask : IsMask n mask) {i : ℕ} (hi : i < 32) :
    (packFields n k mask d).getLsbD i =
      (decide (i < n * k) && (d (k - 1 - i / n)).getLsbD (i % n)) := by
  induction k generalizing i with
  | zero => simp [packFields]
  | succ k ih =>
    have hlt : i < n * (k + 1) ↔ i < n ∨ i - n < n * k := by
      rw [mul_add]
      omega
    rw [packFields_succ, BitVec.getLsbD_or, BitVec.getLsbD_shiftLeft, BitVec.getLsbD_and,
      hmask i hi]
    by_cases hin : i < n
    · simp [hin, hlt, Nat.div_eq_of_lt hin, Nat.mod_eq_of_lt hin]
    · have hdiv : i / n = (i - n) / n + 1 := by
        rw [← Nat.add_div_right _ hn, Nat.sub_add_cancel (by omega)]
      have hmod : i % n = (i - n) % n := by
        rw [← Nat.mod_eq_sub_mod (by omega)]
      have hfield : k + 1 - 1 - i / n = k - 1 - (i - n) / n := by omega
      rw [ih (by omega), hfield, hmod]
      simp [hin, hlt, hi]

/-- Reading field `j` from the top gives the number that was packed there, whatever stands above
the fields. -/
lemma sshiftRight_packFields (hn : 0 < n) (hmask : IsMask n mask) (hnk : n * k ≤ 30) {j : ℕ}
    (hj : j < k) (hd : Fits n (d j)) (top : BitVec 32) :
    ((packFields n k mask d ||| (top <<< 30)) <<< (32 - n * (k - j))).sshiftRight (32 - n) =
      d j := by
  have hsplit : n * (k - j) = n * (k - 1 - j) + n := by
    rw [show k - j = k - 1 - j + 1 by omega, mul_add, mul_one]
  have hle : n * (k - j) ≤ n * k := Nat.mul_le_mul_left n (by omega)
  -- a bit of the field, moved to the top
  have hbit : ∀ i, i < n → ((packFields n k mask d ||| (top <<< 30)) <<<
      (32 - n * (k - j))).getLsbD (32 - n + i) = (d j).getLsbD i := by
    intro i hi
    have hpos : 32 - n + i - (32 - n * (k - j)) = n * (k - 1 - j) + i := by omega
    have hin : n * (k - 1 - j) + i < n * k := by omega
    have hdiv : (n * (k - 1 - j) + i) / n = k - 1 - j := by
      rw [Nat.mul_add_div hn, Nat.div_eq_of_lt hi, add_zero]
    have hmod : (n * (k - 1 - j) + i) % n = i := by
      rw [Nat.mul_add_mod, Nat.mod_eq_of_lt hi]
    have hlow : n * (k - 1 - j) + i < 30 := by omega
    rw [BitVec.getLsbD_shiftLeft, hpos, BitVec.getLsbD_or, BitVec.getLsbD_shiftLeft,
      getLsbD_packFields hn hmask (by omega), hdiv, hmod,
      show k - 1 - (k - 1 - j) = j by omega]
    have hshift : ¬ 32 - n + i < 32 - n * (k - j) := by omega
    simp [hin, hlow, hshift]
    omega
  apply BitVec.eq_of_getLsbD_eq
  intro i hi
  rw [BitVec.getLsbD_sshiftRight]
  by_cases hin : i < n
  · rw [if_pos (by omega), hbit i hin]
    simp [hi]
  · rw [if_neg (by omega), BitVec.msb_eq_getLsbD_last,
      show 32 - 1 = 32 - n + (n - 1) by omega, hbit (n - 1) (by omega),
      hd.getLsbD le_rfl (by omega), hd.getLsbD (by omega : n - 1 ≤ i) hi]
    simp [hi]

/-- Reading field `j` without its sign. -/
lemma and_mask_packFields (hn : 0 < n) (hmask : IsMask n mask) (hnk : n * k ≤ 31) {j : ℕ}
    (hj : j < k) : (packFields n k mask d).sshiftRight (n * (k - 1 - j)) &&& mask =
      d j &&& mask := by
  have hsplit : n * k = n * (k - 1 - j) + n + n * j := by
    rw [← Nat.mul_succ, ← mul_add]
    congr 1
    omega
  apply BitVec.eq_of_getLsbD_eq
  intro i hi
  rw [BitVec.getLsbD_and, BitVec.getLsbD_and, hmask i hi]
  by_cases hin : i < n
  · have hdiv : (n * (k - 1 - j) + i) / n = k - 1 - j := by
      rw [Nat.mul_add_div hn, Nat.div_eq_of_lt hin, add_zero]
    have hmod : (n * (k - 1 - j) + i) % n = i := by
      rw [Nat.mul_add_mod, Nat.mod_eq_of_lt hin]
    have hlt : n * (k - 1 - j) + i < n * k := by omega
    have hbound : ¬ 32 ≤ i := by omega
    rw [BitVec.getLsbD_sshiftRight, if_pos (by omega), getLsbD_packFields hn hmask (by omega),
      hdiv, hmod, show k - 1 - (k - 1 - j) = j by omega]
    simp [hlt, hbound]
  · simp [hin]

/-- The two bits above the fields. -/
lemma top_packFields (hn : 0 < n) (hmask : IsMask n mask) (hnk : n * k ≤ 30) (top : BitVec 32) :
    (packFields n k mask d ||| (top <<< 30)).sshiftRight 30 &&& 3#32 = top &&& 3#32 := by
  apply BitVec.eq_of_getLsbD_eq
  intro i hi
  rw [BitVec.getLsbD_and, BitVec.getLsbD_and]
  by_cases hi2 : i < 2
  · rw [BitVec.getLsbD_sshiftRight, if_pos (by omega), BitVec.getLsbD_or,
      BitVec.getLsbD_shiftLeft, getLsbD_packFields hn hmask (by omega)]
    have hout : ¬ 30 + i < n * k := by omega
    have hbound : ¬ 32 ≤ i := by omega
    have hlt : 30 + i < 32 := by omega
    simp [hout, hbound, hlt]
  · have hthree : (3#32).getLsbD i = false := by
      refine Nat.testBit_lt_two_pow (lt_of_lt_of_le (by decide : (3#32).toNat < 2 ^ 2) ?_)
      exact Nat.pow_le_pow_right (by norm_num) (by omega)
    simp [hthree]

/-- Nothing stands above the fields. -/
lemma above_packFields (hn : 0 < n) (hmask : IsMask n mask) (hnk : n * k ≤ 30) :
    (packFields n k mask d).sshiftRight 30 &&& 3#32 = 0#32 := by
  have htop := top_packFields hn hmask hnk (d := d) 0#32
  simpa using htop

variable (d) in
/-- Fields that are packed behind other bits. -/
lemma foldl_fields (n k : ℕ) (mask top : BitVec 32) :
    (List.range k).foldl (fun (val : BitVec 32) i => (val <<< n) ||| (mask &&& d i)) top =
      packFields n k mask d ||| (top <<< (n * k)) := by
  induction k with
  | zero => simp
  | succ k ih =>
    rw [List.range_succ, List.foldl_append, ih, List.foldl_cons, List.foldl_nil, packFields_succ,
      BitVec.shiftLeft_or_distrib, ← BitVec.shiftLeft_add, Nat.mul_succ, BitVec.and_comm mask,
      BitVec.or_assoc, BitVec.or_assoc, BitVec.or_comm (top <<< _)]

/-! ### Signed fields -/

/-- The field of `n` bits at bit `j`, with its sign. -/
def signedField (v : BitVec 32) (j n : ℕ) : BitVec 32 := (v.extractLsb' j n).signExtend 32

lemma getLsbD_signedField {v : BitVec 32} {j i : ℕ} (hn : 0 < n) (hi : i < 32) :
    (signedField v j n).getLsbD i = v.getLsbD (if i < n then j + i else j + (n - 1)) := by
  have hmsb : (v.extractLsb' j n).msb = v.getLsbD (j + (n - 1)) := by
    rw [BitVec.msb_eq_getLsbD_last, BitVec.getLsbD_extractLsb']
    simp [hn]
  rw [signedField, BitVec.getLsbD_signExtend, hmsb, BitVec.getLsbD_extractLsb']
  split_ifs with hin
  · simp [hi, hin]
  · simp [hi]

/-- A field is read by shifting it to the top and back. -/
lemma sshiftRight_shiftLeft (hn : 0 < n) {j : ℕ} (hj : j + n ≤ 32) (v : BitVec 32) :
    (v <<< (32 - n - j)).sshiftRight (32 - n) = signedField v j n := by
  apply BitVec.eq_of_getLsbD_eq
  intro i hi
  rw [getLsbD_signedField hn hi, BitVec.getLsbD_sshiftRight]
  by_cases hin : i < n
  · have hbit : 32 - n + i - (32 - n - j) = j + i := by omega
    have hbound : ¬ 32 ≤ i := by omega
    rw [if_pos (by omega), if_pos hin, BitVec.getLsbD_shiftLeft, hbit]
    simp [hbound]
    omega
  · have hbit : 32 - 1 - (32 - n - j) = j + (n - 1) := by omega
    have hbound : ¬ 32 ≤ i := by omega
    rw [if_neg (by omega), if_neg hin, BitVec.msb_eq_getLsbD_last, BitVec.getLsbD_shiftLeft, hbit]
    simp [hbound]
    omega

lemma signedField_sshiftRight (hn : 0 < n) {s j : ℕ} (hj : s + j + n ≤ 32) (v : BitVec 32) :
    signedField (v.sshiftRight s) j n = signedField v (s + j) n := by
  apply BitVec.eq_of_getLsbD_eq
  intro i hi
  rw [getLsbD_signedField hn hi, getLsbD_signedField hn hi, BitVec.getLsbD_sshiftRight]
  by_cases hin : i < n
  · rw [if_pos hin, if_pos hin, if_pos (by omega), Nat.add_assoc]
    simp
    omega
  · rw [if_neg hin, if_neg hin, if_pos (by omega), Nat.add_assoc]
    simp
    omega

/-- A field is read by its mask, and its sign by the highest bit of it. -/
lemma masked_eq_signedField (hn : 0 < n) (hn' : n < 32) {hibit neg : BitVec 32}
    (hmask : mask = BitVec.ofNat 32 (2 ^ n - 1)) (hhibit : hibit = BitVec.twoPow 32 (n - 1))
    (hneg : neg = BitVec.twoPow 32 n) (v : BitVec 32) :
    (if v &&& mask &&& hibit ≠ 0 then (v &&& mask) - neg else v &&& mask) =
      signedField v 0 n := by
  subst hmask hhibit hneg
  have hpow : 2 ^ n < 2 ^ 32 := Nat.pow_lt_pow_right (by norm_num) hn'
  have hpos : 0 < 2 ^ n := Nat.two_pow_pos n
  have hmod : v.toNat % 2 ^ n < 2 ^ n := Nat.mod_lt _ hpos
  have hand : (v &&& BitVec.ofNat 32 (2 ^ n - 1)).toNat = v.toNat % 2 ^ n := by
    rw [BitVec.toNat_and, BitVec.toNat_ofNat, Nat.mod_eq_of_lt (by omega),
      Nat.and_two_pow_sub_one_eq_mod]
  have hsign : (v &&& BitVec.ofNat 32 (2 ^ n - 1) &&& BitVec.twoPow 32 (n - 1) ≠ 0) ↔
      (v.extractLsb' 0 n).msb = true := by
    have hbit : (v &&& BitVec.ofNat 32 (2 ^ n - 1)).getLsbD (n - 1) = v.getLsbD (n - 1) := by
      rw [BitVec.getLsbD_and, isMask n (n - 1) (by omega)]
      simp [hn]
    have hne : BitVec.twoPow 32 (n - 1) ≠ 0#32 := by
      intro hzero
      have htwo := congrArg (fun w => w.getLsbD (n - 1)) hzero
      simp at htwo
      omega
    rw [BitVec.and_twoPow, hbit, BitVec.msb_eq_getLsbD_last, BitVec.getLsbD_extractLsb']
    cases hv : v.getLsbD (n - 1) with
    | false => simp [hv]
    | true => simp [hv, hn, hne]
  have hfield : (v.extractLsb' 0 n).toNat = v.toNat % 2 ^ n := by
    simp [BitVec.extractLsb'_toNat]
  apply BitVec.eq_of_toNat_eq
  rw [signedField, BitVec.toNat_signExtend, BitVec.toNat_setWidth, hfield,
    Nat.mod_eq_of_lt (hmod.trans hpow)]
  by_cases hmsb : (v.extractLsb' 0 n).msb = true
  · rw [if_pos (hsign.mpr hmsb), if_pos hmsb, BitVec.toNat_sub, hand, BitVec.toNat_twoPow,
      Nat.mod_eq_of_lt hpow]
    rw [Nat.mod_eq_of_lt (by omega)]
    omega
  · rw [if_neg (fun h => hmsb (hsign.mp h)), if_neg hmsb, hand, Nat.add_zero]

end BitField

/-! ### Words of four bytes -/

namespace WordBytes

/-- The bytes of a word in memory, highest first or lowest first. -/
def ofWord (big : Bool) (v : BitVec 32) (k : Fin 4) : BitVec 8 :=
  v.extractLsb' (8 * (if big then 3 - k.val else k.val)) 8

/-- The word of four bytes given highest first. -/
def toWord (a b c d : BitVec 8) : BitVec 32 :=
  (a.setWidth 32 <<< 24) + (b.setWidth 32 <<< 16) + (c.setWidth 32 <<< 8) + d.setWidth 32

/-- A word with its bytes reversed. -/
def reverse (v : BitVec 32) : BitVec 32 :=
  toWord (v.extractLsb' 0 8) (v.extractLsb' 8 8) (v.extractLsb' 16 8) (v.extractLsb' 24 8)

lemma toNat_toWord (a b c d : BitVec 8) : (toWord a b c d).toNat =
    a.toNat * 2 ^ 24 + b.toNat * 2 ^ 16 + c.toNat * 2 ^ 8 + d.toNat := by
  have ha := a.isLt
  have hb := b.isLt
  have hc := c.isLt
  have hd := d.isLt
  simp only [toWord, BitVec.toNat_add, BitVec.toNat_shiftLeft, BitVec.toNat_setWidth,
    Nat.shiftLeft_eq]
  omega

/-- The bytes of a word put together are the word. -/
lemma toWord_extract (v : BitVec 32) :
    toWord (v.extractLsb' 24 8) (v.extractLsb' 16 8) (v.extractLsb' 8 8) (v.extractLsb' 0 8)
      = v := by
  apply BitVec.eq_of_toNat_eq
  have hlt := v.isLt
  simp only [toNat_toWord, BitVec.extractLsb'_toNat, Nat.shiftRight_eq_div_pow]
  omega

/-- The bytes of a word that was put together. -/
lemma ofWord_toWord (a b c d : BitVec 8) (k : Fin 4) :
    ofWord true (toWord a b c d) k = ![a, b, c, d] k ∧
      ofWord false (toWord a b c d) k = ![d, c, b, a] k := by
  have ha := a.isLt
  have hb := b.isLt
  have hc := c.isLt
  have hd := d.isLt
  constructor <;>
  · apply BitVec.eq_of_toNat_eq
    rw [ofWord, BitVec.extractLsb'_toNat, toNat_toWord, Nat.shiftRight_eq_div_pow]
    fin_cases k <;> simp <;> omega

/-- Reversing the bytes of a word is storing it in the other order. -/
lemma ofWord_reverse (big : Bool) (v : BitVec 32) : ofWord big (reverse v) = ofWord (!big) v := by
  funext k
  cases big with
  | true =>
    rw [reverse, (ofWord_toWord _ _ _ _ k).1]
    fin_cases k <;> rfl
  | false =>
    rw [reverse, (ofWord_toWord _ _ _ _ k).2]
    fin_cases k <;> rfl

/-- The bytes of a half word in memory. -/
def ofHalf (big : Bool) (s : BitVec 16) (k : Fin 2) : BitVec 8 :=
  s.extractLsb' (8 * (if big then 1 - k.val else k.val)) 8

/-- A half word with its bytes reversed. -/
def reverseHalf (s : BitVec 16) : BitVec 16 :=
  ((s.extractLsb' 0 8).setWidth 16 <<< 8) + (s.extractLsb' 8 8).setWidth 16

lemma toNat_reverseHalf (s : BitVec 16) :
    (reverseHalf s).toNat = 256 * (s.toNat % 256) + s.toNat / 256 := by
  have hlt := s.isLt
  simp only [reverseHalf, BitVec.toNat_add, BitVec.toNat_shiftLeft, BitVec.toNat_setWidth,
    BitVec.extractLsb'_toNat, Nat.shiftLeft_eq, Nat.shiftRight_eq_div_pow, pow_zero, Nat.div_one]
  have hlow : s.toNat % 256 < 256 := Nat.mod_lt _ (by norm_num)
  have hhigh : s.toNat / 256 < 256 := by omega
  norm_num
  generalize s.toNat % 256 = low at *
  generalize s.toNat / 256 = high at *
  omega

lemma ofHalf_reverseHalf (big : Bool) (s : BitVec 16) :
    ofHalf big (reverseHalf s) = ofHalf (!big) s := by
  have hlt := s.isLt
  have hhigh : (256 * (s.toNat % 256) + s.toNat / 256) / 256 = s.toNat % 256 := by
    rw [Nat.mul_add_div (by norm_num), Nat.div_eq_of_lt (by omega), add_zero]
  have hlow : (256 * (s.toNat % 256) + s.toNat / 256) % 256 = s.toNat / 256 := by
    rw [Nat.mul_add_mod, Nat.mod_eq_of_lt (by omega)]
  funext k
  apply BitVec.eq_of_toNat_eq
  simp only [ofHalf, BitVec.extractLsb'_toNat, toNat_reverseHalf, Nat.shiftRight_eq_div_pow]
  fin_cases k <;> cases big <;> simp [hhigh, hlow] <;> omega

end WordBytes
