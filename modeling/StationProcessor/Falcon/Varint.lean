import StationProcessor.SeedHeader

/-!
# Variable-length integers

The varints of `falcon/falcon_structures.c`: a 32-bit integer in one to five bytes, the least
significant bits first. Every byte but the last has its high bit set, the first byte has two bits
left for the user, and the last byte carries the sign.
-/

namespace StationProcessor

/-! ### Varints -/

/-- `int32_to_varint`: the bytes in use. -/
def int32ToVarint (integer : Int32) : Bytes :=
  let u := integer.toUInt32
  if integer < 16 ∧ integer > -17 then [((u &&& 0x1f) <<< 2).toUInt8]
  else if integer < 2048 ∧ integer > -2049 then
    [(((u &&& 0x1f) <<< 2) ||| 0x80).toUInt8, ((u >>> 5) &&& 0x7f).toUInt8]
  else if integer < 262144 ∧ integer > -262145 then
    [(((u &&& 0x1f) <<< 2) ||| 0x80).toUInt8, (((u >>> 5) &&& 0x7f) ||| 0x80).toUInt8,
      ((u >>> 12) &&& 0x7f).toUInt8]
  else if integer < 33554432 ∧ integer > -33554432 then
    [(((u &&& 0x1f) <<< 2) ||| 0x80).toUInt8, (((u >>> 5) &&& 0x7f) ||| 0x80).toUInt8,
      (((u >>> 12) &&& 0x7f) ||| 0x80).toUInt8, ((u >>> 19) &&& 0x7f).toUInt8]
  else
    [(((u &&& 0x1f) <<< 2) ||| 0x80).toUInt8, (((u >>> 5) &&& 0x7f) ||| 0x80).toUInt8,
      (((u >>> 12) &&& 0x7f) ||| 0x80).toUInt8, (((u >>> 19) &&& 0x7f) ||| 0x80).toUInt8,
      ((u >>> 26) &&& 0x3f).toUInt8]

/-- The result of `varint_to_int32` at its last byte, which carries the sign unless it is the
fifth one. -/
def signExtend (p : UInt8) (result mask : UInt32) : Int32 :=
  (if p &&& 0x40 ≠ 0 then result ||| mask else result).toInt32

/-- `varint_to_int32`: the integer and the number of bytes read, `none` where the buffer ends
before. -/
def varintToInt32 : Bytes → Option (Int32 × ℕ)
  | [] => none
  | p0 :: rest =>
    let r0 := ((p0 >>> 2) &&& 0x1f).toUInt32
    if p0 &&& 0x80 = 0 then some (signExtend p0 r0 0xffffffe0, 1)
    else match rest with
      | [] => none
      | p1 :: rest =>
        let r1 := r0 ||| ((p1 &&& 0x7f).toUInt32 <<< 5)
        if p1 &&& 0x80 = 0 then some (signExtend p1 r1 0xfffff000, 2)
        else match rest with
          | [] => none
          | p2 :: rest =>
            let r2 := r1 ||| ((p2 &&& 0x7f).toUInt32 <<< 12)
            if p2 &&& 0x80 = 0 then some (signExtend p2 r2 0xfff80000, 3)
            else match rest with
              | [] => none
              | p3 :: rest =>
                let r3 := r2 ||| ((p3 &&& 0x7f).toUInt32 <<< 19)
                if p3 &&& 0x80 = 0 then some (signExtend p3 r3 0xfc000000, 4)
                else match rest with
                  | [] => none
                  | p4 :: _ => some ((r3 ||| ((p4 &&& 0x3f).toUInt32 <<< 26)).toInt32, 5)

/-- `num[0] = (num[0] & 0xfc) | type`: the user's two bits of the first byte. -/
def setType (type : UInt8) : Bytes → Bytes
  | [] => []
  | b :: bs => ((b &&& 0xfc) ||| type) :: bs

/-! ### The bits of a varint -/

/-- The bits of a byte on top of the lower ones. -/
lemma toNat_or_shiftLeft {r : UInt32} {p : UInt8} {low high : ℕ} (k : UInt32) (bound : ℕ)
    (hk : k.toNat < 32) (hbound : 2 ^ k.toNat = bound) (hr : r.toNat = low) (hp : p.toNat = high)
    (hlow : low < bound) (hhigh : high * bound < 4294967296) :
    (r ||| (p.toUInt32 <<< k)).toNat = low + high * bound := by
  subst hbound
  rw [UInt32.toNat_or, UInt32.toNat_shiftLeft, UInt8.toNat_toUInt32, hr, hp, Nat.mod_eq_of_lt hk,
    Nat.shiftLeft_eq, Nat.mod_eq_of_lt hhigh, Nat.or_comm, Nat.mul_comm,
    ← Nat.two_pow_add_eq_or_of_lt hlow, Nat.add_comm]

/-- Five bits in the first byte of a longer varint and in the only byte of a short one. -/
lemma first_bits {w : ℕ} (hw : w < 32) (type : Fin 4) :
    let long := (((UInt32.ofNat w <<< 2) ||| 0x80).toUInt8 &&& 0xfc) ||| UInt8.ofNat type
    let short := ((UInt32.ofNat w <<< 2).toUInt8 &&& 0xfc) ||| UInt8.ofNat type
    ((long >>> 2) &&& 0x1f).toNat = w ∧ long &&& 0x80 ≠ 0 ∧ long &&& 0x3 = UInt8.ofNat type ∧
      ((short >>> 2) &&& 0x1f).toNat = w ∧ short &&& 0x80 = 0 ∧
      short &&& 0x3 = UInt8.ofNat type ∧ (short &&& 0x40 ≠ 0 ↔ 16 ≤ w) := by
  lift w to Fin 32 using hw
  revert w type
  decide +kernel

/-- Seven bits in an inner byte and in the last one. -/
lemma later_bits {m : ℕ} (hm : m < 128) :
    let inner := (UInt32.ofNat m ||| 0x80).toUInt8
    let last := (UInt32.ofNat m).toUInt8
    (inner &&& 0x7f).toNat = m ∧ inner &&& 0x80 ≠ 0 ∧
      (last &&& 0x7f).toNat = m ∧ last &&& 0x80 = 0 ∧ (last &&& 0x40 ≠ 0 ↔ 64 ≤ m) := by
  lift m to Fin 128 using hm
  revert m
  decide +kernel

/-- Six bits in a fifth byte. -/
lemma fifth_bits {m : ℕ} (hm : m < 64) : ((UInt32.ofNat m).toUInt8 &&& 0x3f).toNat = m := by
  lift m to Fin 64 using hm
  revert m
  decide +kernel

/-- The value of an integer from its bits. -/
lemma toInt_eq_of_bits (x : Int32) :
    x.toInt = if x.toUInt32.toNat < 2147483648 then (x.toUInt32.toNat : ℤ)
      else x.toUInt32.toNat - 4294967296 := by
  have hcond := BitVec.toInt_eq_toNat_cond x.toBitVec
  have hbits : x.toUInt32.toNat = x.toBitVec.toNat := rfl
  have hint : x.toInt = x.toBitVec.toInt := rfl
  rw [hint, hcond, hbits]
  split_ifs
  · rfl
  · omega
  · omega
  · norm_num

/-- Reading the bits back. -/
lemma toInt32_eq_of_toNat {r : UInt32} {x : Int32} (h : r.toNat = x.toUInt32.toNat) :
    r.toInt32 = x := by
  rw [UInt32.toNat_inj.mp h]
  simp

/-- The last byte extends the sign of the bits read before. -/
lemma signExtend_eq {p : UInt8} {r mask : UInt32} {x : Int32} {low : ℕ} {negative : Prop}
    [Decidable negative] (k bound : ℕ) (hbound : 2 ^ k = bound) (hr : r.toNat = low)
    (hlow : low < bound) (hmask : bound ∣ mask.toNat) (hsign : p &&& 0x40 ≠ 0 ↔ negative)
    (hx : x.toUInt32.toNat = if negative then low + mask.toNat else low) :
    signExtend p r mask = x := by
  subst hbound
  apply toInt32_eq_of_toNat
  rw [hx]
  by_cases hneg : negative
  · obtain ⟨q, hq⟩ := hmask
    rw [if_pos (hsign.mpr hneg), if_pos hneg, UInt32.toNat_or, hr, hq, Nat.or_comm,
      ← Nat.two_pow_add_eq_or_of_lt hlow, Nat.add_comm]
  · rw [if_neg (fun h => hneg (hsign.mp h)), if_neg hneg, hr]

/-! ### Decoding an encoded integer -/

/-- The low bits of a number. -/
lemma and_mask (v : UInt32) {mask : UInt32} (k : ℕ) (hmask : mask.toNat = 2 ^ k - 1) :
    v &&& mask = UInt32.ofNat (v.toNat % 2 ^ k) := by
  have hlt : v.toNat % 2 ^ k < 2 ^ 32 := (Nat.mod_le _ _).trans_lt v.toNat_lt
  apply UInt32.toNat_inj.mp
  rw [UInt32.toNat_and, hmask, UInt32.toNat_ofNat_of_lt' hlt]
  exact Nat.and_two_pow_sub_one_eq_mod v.toNat k

lemma toNat_shift (u : UInt32) {k : UInt32} (hk : k.toNat < 32) :
    (u >>> k).toNat = u.toNat / 2 ^ k.toNat := by
  rw [UInt32.toNat_shiftRight, Nat.mod_eq_of_lt hk, Nat.shiftRight_eq_div_pow]

section Bytes

variable {p0 p1 p2 p3 p4 : UInt8} {x : Int32} {w a b c d : ℕ}

lemma varintToInt32_one (hw : ((p0 >>> 2) &&& 0x1f).toNat = w) (hw32 : w < 32)
    (hlast : p0 &&& 0x80 = 0) (hsign : p0 &&& 0x40 ≠ 0 ↔ 16 ≤ w)
    (hx : x.toUInt32.toNat = if 16 ≤ w then w + 4294967264 else w) (rest : Bytes) :
    varintToInt32 (p0 :: rest) = some (x, 1) := by
  have hr0 : ((p0 >>> 2) &&& 0x1f).toUInt32.toNat = w := (UInt8.toNat_toUInt32 _).trans hw
  have hsigned : signExtend p0 ((p0 >>> 2) &&& 0x1f).toUInt32 0xffffffe0 = x :=
    signExtend_eq 5 32 rfl hr0 hw32 ⟨134217727, rfl⟩ hsign hx
  simp only [varintToInt32, if_pos hlast, hsigned]

lemma varintToInt32_two (hw : ((p0 >>> 2) &&& 0x1f).toNat = w) (hw32 : w < 32)
    (h0 : p0 &&& 0x80 ≠ 0) (ha : (p1 &&& 0x7f).toNat = a) (ha128 : a < 128)
    (hlast : p1 &&& 0x80 = 0) (hsign : p1 &&& 0x40 ≠ 0 ↔ 64 ≤ a)
    (hx : x.toUInt32.toNat = if 64 ≤ a then w + a * 32 + 4294963200 else w + a * 32)
    (rest : Bytes) : varintToInt32 (p0 :: p1 :: rest) = some (x, 2) := by
  have hr0 : ((p0 >>> 2) &&& 0x1f).toUInt32.toNat = w := (UInt8.toNat_toUInt32 _).trans hw
  have hr1 := toNat_or_shiftLeft 5 32 (by decide) rfl hr0 ha hw32 (by omega)
  have hsigned : signExtend p1 _ 0xfffff000 = x :=
    signExtend_eq 12 4096 rfl hr1 (by omega) ⟨1048575, rfl⟩ hsign hx
  simp only [varintToInt32, if_neg h0, if_pos hlast, hsigned]

lemma varintToInt32_three (hw : ((p0 >>> 2) &&& 0x1f).toNat = w) (hw32 : w < 32)
    (h0 : p0 &&& 0x80 ≠ 0) (ha : (p1 &&& 0x7f).toNat = a) (ha128 : a < 128)
    (h1 : p1 &&& 0x80 ≠ 0) (hb : (p2 &&& 0x7f).toNat = b) (hb128 : b < 128)
    (hlast : p2 &&& 0x80 = 0) (hsign : p2 &&& 0x40 ≠ 0 ↔ 64 ≤ b)
    (hx : x.toUInt32.toNat = if 64 ≤ b then w + a * 32 + b * 4096 + 4294443008
      else w + a * 32 + b * 4096) (rest : Bytes) :
    varintToInt32 (p0 :: p1 :: p2 :: rest) = some (x, 3) := by
  have hr0 : ((p0 >>> 2) &&& 0x1f).toUInt32.toNat = w := (UInt8.toNat_toUInt32 _).trans hw
  have hr1 := toNat_or_shiftLeft 5 32 (by decide) rfl hr0 ha hw32 (by omega)
  have hr2 := toNat_or_shiftLeft 12 4096 (by decide) rfl hr1 hb (by omega) (by omega)
  have hsigned : signExtend p2 _ 0xfff80000 = x :=
    signExtend_eq 19 524288 rfl hr2 (by omega) ⟨8191, rfl⟩ hsign hx
  simp only [varintToInt32, if_neg h0, if_neg h1, if_pos hlast, hsigned]

lemma varintToInt32_four (hw : ((p0 >>> 2) &&& 0x1f).toNat = w) (hw32 : w < 32)
    (h0 : p0 &&& 0x80 ≠ 0) (ha : (p1 &&& 0x7f).toNat = a) (ha128 : a < 128)
    (h1 : p1 &&& 0x80 ≠ 0) (hb : (p2 &&& 0x7f).toNat = b) (hb128 : b < 128)
    (h2 : p2 &&& 0x80 ≠ 0) (hc : (p3 &&& 0x7f).toNat = c) (hc128 : c < 128)
    (hlast : p3 &&& 0x80 = 0) (hsign : p3 &&& 0x40 ≠ 0 ↔ 64 ≤ c)
    (hx : x.toUInt32.toNat = if 64 ≤ c then w + a * 32 + b * 4096 + c * 524288 + 4227858432
      else w + a * 32 + b * 4096 + c * 524288) (rest : Bytes) :
    varintToInt32 (p0 :: p1 :: p2 :: p3 :: rest) = some (x, 4) := by
  have hr0 : ((p0 >>> 2) &&& 0x1f).toUInt32.toNat = w := (UInt8.toNat_toUInt32 _).trans hw
  have hr1 := toNat_or_shiftLeft 5 32 (by decide) rfl hr0 ha hw32 (by omega)
  have hr2 := toNat_or_shiftLeft 12 4096 (by decide) rfl hr1 hb (by omega) (by omega)
  have hr3 := toNat_or_shiftLeft 19 524288 (by decide) rfl hr2 hc (by omega) (by omega)
  have hsigned : signExtend p3 _ 0xfc000000 = x :=
    signExtend_eq 26 67108864 rfl hr3 (by omega) ⟨63, rfl⟩ hsign hx
  simp only [varintToInt32, if_neg h0, if_neg h1, if_neg h2, if_pos hlast, hsigned]

lemma varintToInt32_five (hw : ((p0 >>> 2) &&& 0x1f).toNat = w) (hw32 : w < 32)
    (h0 : p0 &&& 0x80 ≠ 0) (ha : (p1 &&& 0x7f).toNat = a) (ha128 : a < 128)
    (h1 : p1 &&& 0x80 ≠ 0) (hb : (p2 &&& 0x7f).toNat = b) (hb128 : b < 128)
    (h2 : p2 &&& 0x80 ≠ 0) (hc : (p3 &&& 0x7f).toNat = c) (hc128 : c < 128)
    (h3 : p3 &&& 0x80 ≠ 0) (hd : (p4 &&& 0x3f).toNat = d) (hd64 : d < 64)
    (hx : x.toUInt32.toNat = w + a * 32 + b * 4096 + c * 524288 + d * 67108864) (rest : Bytes) :
    varintToInt32 (p0 :: p1 :: p2 :: p3 :: p4 :: rest) = some (x, 5) := by
  have hr0 : ((p0 >>> 2) &&& 0x1f).toUInt32.toNat = w := (UInt8.toNat_toUInt32 _).trans hw
  have hr1 := toNat_or_shiftLeft 5 32 (by decide) rfl hr0 ha hw32 (by omega)
  have hr2 := toNat_or_shiftLeft 12 4096 (by decide) rfl hr1 hb (by omega) (by omega)
  have hr3 := toNat_or_shiftLeft 19 524288 (by decide) rfl hr2 hc (by omega) (by omega)
  have hr4 := toNat_or_shiftLeft 26 67108864 (by decide) rfl hr3 hd (by omega) (by omega)
  have hresult := toInt32_eq_of_toNat (hr4.trans hx.symm)
  simp only [varintToInt32, if_neg h0, if_neg h1, if_neg h2, if_neg h3, hresult]

end Bytes

/-- `varint_to_int32` reads back what `int32_to_varint` writes, whatever the user's bits. -/
lemma varintToInt32_setType (x : Int32) (type : Fin 4) (rest : Bytes) :
    varintToInt32 (setType (UInt8.ofNat type) (int32ToVarint x) ++ rest)
      = some (x, (int32ToVarint x).length) := by
  have hx := toInt_eq_of_bits x
  have hlt := x.toUInt32.toNat_lt
  have e0 : x.toUInt32 &&& 0x1f = UInt32.ofNat (x.toUInt32.toNat % 32) := and_mask _ 5 rfl
  have e1 : (x.toUInt32 >>> 5) &&& 0x7f = UInt32.ofNat (x.toUInt32.toNat / 32 % 128) := by
    rw [and_mask _ 7 rfl, toNat_shift _ (by decide)]
    rfl
  have e2 : (x.toUInt32 >>> 12) &&& 0x7f = UInt32.ofNat (x.toUInt32.toNat / 4096 % 128) := by
    rw [and_mask _ 7 rfl, toNat_shift _ (by decide)]
    rfl
  have e3 : (x.toUInt32 >>> 19) &&& 0x7f = UInt32.ofNat (x.toUInt32.toNat / 524288 % 128) := by
    rw [and_mask _ 7 rfl, toNat_shift _ (by decide)]
    rfl
  have e4 : (x.toUInt32 >>> 26) &&& 0x3f = UInt32.ofNat (x.toUInt32.toNat / 67108864 % 64) := by
    rw [and_mask _ 6 rfl, toNat_shift _ (by decide)]
    rfl
  have hw32 : x.toUInt32.toNat % 32 < 32 := Nat.mod_lt _ (by norm_num)
  have ha128 : x.toUInt32.toNat / 32 % 128 < 128 := Nat.mod_lt _ (by norm_num)
  have hb128 : x.toUInt32.toNat / 4096 % 128 < 128 := Nat.mod_lt _ (by norm_num)
  have hc128 : x.toUInt32.toNat / 524288 % 128 < 128 := Nat.mod_lt _ (by norm_num)
  have hd64 : x.toUInt32.toNat / 67108864 % 64 < 64 := Nat.mod_lt _ (by norm_num)
  obtain ⟨hw, hwlong, -, hw', hwshort, -, hwsign⟩ := first_bits hw32 type
  obtain ⟨ha, halong, ha', hashort, hasign⟩ := later_bits ha128
  obtain ⟨hb, hblong, hb', hbshort, hbsign⟩ := later_bits hb128
  obtain ⟨hc, hclong, hc', hcshort, hcsign⟩ := later_bits hc128
  have hd := fifth_bits hd64
  have hints : Int32.toInt 16 = 16 ∧ Int32.toInt (-17) = -17 ∧ Int32.toInt 2048 = 2048 ∧
      Int32.toInt (-2049) = -2049 ∧ Int32.toInt 262144 = 262144 ∧
      Int32.toInt (-262145) = -262145 ∧ Int32.toInt 33554432 = 33554432 ∧
      Int32.toInt (-33554432) = -33554432 := by decide
  obtain ⟨i1, i2, i3, i4, i5, i6, i7, i8⟩ := hints
  simp only [int32ToVarint, e0, e1, e2, e3, e4, Int32.lt_iff_toInt_lt, gt_iff_lt, i1, i2, i3, i4,
    i5, i6, i7, i8]
  split_ifs with h1 h2 h3 h4
  · exact varintToInt32_one hw' hw32 hwshort hwsign (by split_ifs at hx ⊢ <;> omega) rest
  · exact varintToInt32_two hw hw32 hwlong ha' ha128 hashort hasign
      (by split_ifs at hx ⊢ <;> omega) rest
  · exact varintToInt32_three hw hw32 hwlong ha ha128 halong hb' hb128 hbshort hbsign
      (by split_ifs at hx ⊢ <;> omega) rest
  · exact varintToInt32_four hw hw32 hwlong ha ha128 halong hb hb128 hblong hc' hc128 hcshort
      hcsign (by split_ifs at hx ⊢ <;> omega) rest
  · exact varintToInt32_five hw hw32 hwlong ha ha128 halong hb hb128 hblong hc hc128 hclong hd hd64
      (by omega) rest

/-- The user's bits are what `*p & 0x3` sees. -/
lemma setType_int32ToVarint (x : Int32) (type : Fin 4) :
    ∃ b bs, setType (UInt8.ofNat type) (int32ToVarint x) = b :: bs ∧
      b &&& 0x3 = UInt8.ofNat type := by
  have e0 : x.toUInt32 &&& 0x1f = UInt32.ofNat (x.toUInt32.toNat % 32) := and_mask _ 5 rfl
  have hw32 : x.toUInt32.toNat % 32 < 32 := Nat.mod_lt _ (by norm_num)
  obtain ⟨-, -, hlong, -, -, hshort, -⟩ := first_bits hw32 type
  simp only [int32ToVarint, e0]
  split_ifs
  · exact ⟨_, _, rfl, hshort⟩
  · exact ⟨_, _, rfl, hlong⟩
  · exact ⟨_, _, rfl, hlong⟩
  · exact ⟨_, _, rfl, hlong⟩
  · exact ⟨_, _, rfl, hlong⟩

/-! ### Varints one after the other -/

/-- A varint with the user's two bits. -/
def taggedVarint (x : Int32 × Fin 4) : Bytes := setType (UInt8.ofNat x.2) (int32ToVarint x.1)

lemma toNat_and_three_lt (b : UInt8) : (b &&& 0x3).toNat < 4 := by
  have hle : (b &&& 0x3).toNat ≤ 3 := by
    rw [UInt8.toNat_and]
    exact Nat.and_le_right
  omega

/-- The user's two bits of a byte. -/
def userBits (b : UInt8) : Fin 4 := ⟨(b &&& 0x3).toNat, toNat_and_three_lt b⟩

/-- The integer at the front of the bytes with the user's two bits, and what follows it. -/
def readTagged : Bytes → Option ((Int32 × Fin 4) × Bytes)
  | [] => none
  | p0 :: rest => (varintToInt32 (p0 :: rest)).map fun (integer, bytes) =>
      ((integer, userBits p0), (p0 :: rest).drop bytes)

/-- A number of varints one after the other, and what follows them. -/
def readTaggedList : ℕ → Bytes → Option (List (Int32 × Fin 4) × Bytes)
  | 0, p => some ([], p)
  | k + 1, p => do
    let (x, p) ← readTagged p
    let (xs, p) ← readTaggedList k p
    return (x :: xs, p)

lemma length_taggedVarint (x : Int32 × Fin 4) :
    (taggedVarint x).length = (int32ToVarint x.1).length := by
  unfold taggedVarint
  cases int32ToVarint x.1 with
  | nil => rfl
  | cons b bs => rfl

lemma readTagged_taggedVarint (x : Int32 × Fin 4) (rest : Bytes) :
    readTagged (taggedVarint x ++ rest) = some (x, rest) := by
  obtain ⟨integer, type⟩ := x
  have hread := varintToInt32_setType integer type rest
  have hlength : (taggedVarint (integer, type)).length = (int32ToVarint integer).length :=
    length_taggedVarint _
  obtain ⟨b, bs, hbytes, htype⟩ := setType_int32ToVarint integer type
  rw [taggedVarint, hbytes] at hlength
  rw [hbytes] at hread
  have htag : userBits b = type := by
    apply Fin.ext
    show (b &&& 0x3).toNat = type
    rw [htype]
    exact (by decide : ∀ type : Fin 4, (UInt8.ofNat type).toNat = type) type
  rw [taggedVarint, hbytes, List.cons_append, readTagged, ← List.cons_append, hread, htag,
    Option.map_some, ← hlength]
  simp only [List.drop_left]

lemma readTaggedList_flatMap (xs : List (Int32 × Fin 4)) (rest : Bytes) :
    readTaggedList xs.length (xs.flatMap taggedVarint ++ rest) = some (xs, rest) := by
  induction xs with
  | nil => rfl
  | cons x xs ih =>
    rw [List.flatMap_cons, List.append_assoc, List.length_cons, readTaggedList,
      readTagged_taggedVarint]
    simp [ih]

/-- A varint is read back with the user's bits and with as many bytes as it was written in, and so
are varints one after the other, whatever follows them. -/
theorem varints_round_trip :
    (∀ (x : Int32) (type : Fin 4) (rest : Bytes),
      varintToInt32 (setType (UInt8.ofNat type) (int32ToVarint x) ++ rest)
          = some (x, (int32ToVarint x).length) ∧
        readTagged (setType (UInt8.ofNat type) (int32ToVarint x) ++ rest)
          = some ((x, type), rest)) ∧
      ∀ (xs : List (Int32 × Fin 4)) (rest : Bytes),
        readTaggedList xs.length (xs.flatMap taggedVarint ++ rest) = some (xs, rest) := by
  refine ⟨fun x type rest => ⟨?_, ?_⟩, readTaggedList_flatMap⟩
  · exact varintToInt32_setType x type rest
  · exact readTagged_taggedVarint (x, type) rest

end StationProcessor
