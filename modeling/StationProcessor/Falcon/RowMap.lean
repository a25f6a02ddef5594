import StationProcessor.SeedHeader

/-!
# Row maps

The maps of `falcon/falcon_structures.c` with a 3-bit value at every index, eight values in three
bytes.
-/

namespace StationProcessor

/-- `map_3_set`: store the three low bits of a value. -/
def map3Set (map : Bytes) (index : ℕ) (value : UInt8) : Bytes :=
  let pos := index / 8 * 3
  match index % 8 with
  | 0 => map.modify pos fun b => (b &&& (0xf8 : UInt8)) ||| (value &&& 0x07)
  | 1 => map.modify pos fun b => (b &&& (0xc7 : UInt8)) ||| ((value &&& 0x07) <<< 3)
  | 2 => (map.modify pos fun b => (b &&& (0x3f : UInt8)) ||| ((value &&& 0x03) <<< 6)).modify
      (pos + 1) fun b => (b &&& (0xfe : UInt8)) ||| ((value &&& 0x04) >>> 2)
  | 3 => map.modify (pos + 1) fun b => (b &&& (0xf1 : UInt8)) ||| ((value &&& 0x07) <<< 1)
  | 4 => map.modify (pos + 1) fun b => (b &&& (0x8f : UInt8)) ||| ((value &&& 0x07) <<< 4)
  | 5 => (map.modify (pos + 1) fun b => (b &&& (0x7f : UInt8)) ||| ((value &&& 0x01) <<< 7)).modify
      (pos + 2) fun b => (b &&& (0xfc : UInt8)) ||| ((value &&& 0x06) >>> 1)
  | 6 => map.modify (pos + 2) fun b => (b &&& (0xe3 : UInt8)) ||| ((value &&& 0x07) <<< 2)
  | 7 => map.modify (pos + 2) fun b => (b &&& (0x1f : UInt8)) ||| ((value &&& 0x07) <<< 5)
  | _ => map

/-- `map_3_get`. -/
def map3Get (map : Bytes) (index : ℕ) : UInt8 :=
  let pos := index / 8 * 3
  let b0 := map.getD pos 0
  let b1 := map.getD (pos + 1) 0
  let b2 := map.getD (pos + 2) 0
  match index % 8 with
  | 0 => b0 &&& 0x07
  | 1 => (b0 >>> 3) &&& 0x07
  | 2 => ((b0 >>> 6) &&& (0x03 : UInt8)) ||| ((b1 <<< 2) &&& 0x04)
  | 3 => (b1 >>> 1) &&& 0x07
  | 4 => (b1 >>> 4) &&& 0x07
  | 5 => ((b1 >>> 7) &&& (0x01 : UInt8)) ||| ((b2 <<< 1) &&& 0x06)
  | 6 => (b2 >>> 2) &&& 0x07
  | 7 => (b2 >>> 5) &&& 0x07
  | _ => 0

lemma getD_modify (map : Bytes) (f : UInt8 → UInt8) {i : ℕ} (hi : i < map.length) (j : ℕ) :
    (map.modify i f).getD j 0 = if i = j then f (map.getD j 0) else map.getD j 0 := by
  rw [List.getD_eq_getElem?_getD, List.getElem?_modify, List.getD_eq_getElem?_getD]
  by_cases hij : i = j
  · subst hij
    simp [hi]
  · simp [hij]

@[simp] lemma length_map3Set (map : Bytes) (index : ℕ) (value : UInt8) :
    (map3Set map index value).length = map.length := by
  simp only [map3Set]
  split <;> simp

/-! ### Reading what was set -/

/-- Bit `k` of the bytes from `pos` on. -/
def bitAt (map : Bytes) (pos k : ℕ) : Bool :=
  (map.getD (pos + k / 8) 0).toBitVec.getLsbD (k % 8)

/-- Setting a value sets three of the bits of its group. -/
lemma bitAt_map3Set {map : Bytes} {i : ℕ} (hi : 3 * i + 2 < 8 * map.length) (v : UInt8) {k : ℕ}
    (hk : k < 24) :
    bitAt (map3Set map i v) (i / 8 * 3) k
      = if k / 3 = i % 8 then v.toBitVec.getLsbD (k % 3) else bitAt map (i / 8 * 3) k := by
  have hr : i % 8 < 8 := Nat.mod_lt _ (by norm_num)
  -- the bytes of the value are there, the others of its group may not be
  have h0 : i / 8 * 3 < map.length := by omega
  have h1 : 2 ≤ i % 8 → i / 8 * 3 + 1 < map.length := by omega
  have h2 : 5 ≤ i % 8 → i / 8 * 3 + 2 < map.length := by omega
  simp only [map3Set]
  generalize i % 8 = r at hr h1 h2 ⊢
  generalize i / 8 * 3 = pos at h0 h1 h2 ⊢
  interval_cases r
  all_goals
    simp only [Nat.reduceLeDiff, forall_const] at h1 h2
    simp only [bitAt, getD_modify, List.length_modify, h0, h1, h2]
    interval_cases k <;> simp

/-- A value is made of three bits of its group. -/
lemma getLsbD_map3Get (map : Bytes) (i : ℕ) {m : ℕ} (hm : m < 8) :
    (map3Get map i).toBitVec.getLsbD m
      = if m < 3 then bitAt map (i / 8 * 3) (3 * (i % 8) + m) else false := by
  have hr : i % 8 < 8 := Nat.mod_lt _ (by norm_num)
  simp only [map3Get]
  generalize i % 8 = r at hr ⊢
  generalize i / 8 * 3 = pos
  interval_cases r
  all_goals
    simp only [bitAt]
    interval_cases m <;> simp

/-- Bytes are equal if their bits are. -/
lemma eq_of_getLsbD {a b : UInt8}
    (h : ∀ m < 8, a.toBitVec.getLsbD m = b.toBitVec.getLsbD m) : a = b := by
  apply UInt8.toBitVec_inj.mp
  ext m hm
  exact h m hm

/-- A value is read back at its index. -/
lemma map3Get_map3Set_self {map : Bytes} {i : ℕ} (hi : 3 * i + 2 < 8 * map.length) (v : UInt8) :
    map3Get (map3Set map i v) i = v &&& 0x07 := by
  have hr : i % 8 < 8 := Nat.mod_lt _ (by norm_num)
  apply eq_of_getLsbD
  intro m hm
  rw [getLsbD_map3Get _ i hm]
  by_cases hlow : m < 3
  · have hk : (3 * (i % 8) + m) / 3 = i % 8 := by omega
    have hm3 : (3 * (i % 8) + m) % 3 = m := by omega
    rw [if_pos hlow, bitAt_map3Set hi v (by omega), if_pos hk, hm3]
    interval_cases m <;> simp
  · have hhigh : 3 ≤ m := not_lt.mp hlow
    rw [if_neg hlow]
    clear hlow
    interval_cases m <;> simp

/-- Two indices of one group share bytes, but no bits. -/
lemma map3Get_map3Set_of_group {map : Bytes} {i j : ℕ} (hi : 3 * i + 2 < 8 * map.length)
    (v : UInt8) (hij : i % 8 ≠ j % 8) (hgroup : i / 8 = j / 8) :
    map3Get (map3Set map i v) j = map3Get map j := by
  have hs : j % 8 < 8 := Nat.mod_lt _ (by norm_num)
  apply eq_of_getLsbD
  intro m hm
  rw [getLsbD_map3Get _ j hm, getLsbD_map3Get _ j hm]
  by_cases hlow : m < 3
  · have hk : (3 * (j % 8) + m) / 3 ≠ i % 8 := by omega
    rw [if_pos hlow, if_pos hlow, ← hgroup, bitAt_map3Set hi v (by omega), if_neg hk]
  · rw [if_neg hlow, if_neg hlow]

lemma getD_modify_of_ne (map : Bytes) (f : UInt8 → UInt8) {i j : ℕ} (h : i ≠ j) :
    (map.modify i f).getD j 0 = map.getD j 0 := by
  rw [List.getD_eq_getElem?_getD, List.getElem?_modify, List.getD_eq_getElem?_getD]
  simp [h]

/-- Setting a value touches the three bytes of its group only. -/
lemma getD_map3Set_of_ne (map : Bytes) {i p : ℕ} (v : UInt8) (hp : p / 3 ≠ i / 8) :
    (map3Set map i v).getD p 0 = map.getD p 0 := by
  have h0 : i / 8 * 3 ≠ p := by omega
  have h1 : i / 8 * 3 + 1 ≠ p := by omega
  have h2 : i / 8 * 3 + 2 ≠ p := by omega
  simp only [map3Set]
  split <;> simp only [getD_modify_of_ne, h0, h1, h2, ne_eq, not_false_eq_true]

/-- The other values stay. -/
lemma map3Get_map3Set_of_ne {map : Bytes} {i j : ℕ} (hi : 3 * i + 2 < 8 * map.length) (v : UInt8)
    (hij : i ≠ j) : map3Get (map3Set map i v) j = map3Get map j := by
  by_cases hgroup : i / 8 = j / 8
  · exact map3Get_map3Set_of_group hi v (by omega) hgroup
  · have h0 := getD_map3Set_of_ne map (i := i) (p := j / 8 * 3) v (by omega)
    have h1 := getD_map3Set_of_ne map (i := i) (p := j / 8 * 3 + 1) v (by omega)
    have h2 := getD_map3Set_of_ne map (i := i) (p := j / 8 * 3 + 2) v (by omega)
    simp only [map3Get, h0, h1, h2]

lemma modify_append {map : Bytes} {i : ℕ} (hi : i < map.length) (tail : Bytes)
    (f : UInt8 → UInt8) : (map ++ tail).modify i f = map.modify i f ++ tail := by
  induction map generalizing i with
  | nil => simp at hi
  | cons b map ih =>
    cases i with
    | zero => rfl
    | succ i => simp [ih (Nat.lt_of_succ_lt_succ hi)]

/-- What follows the row map is not touched. -/
lemma map3Set_append {map : Bytes} {i : ℕ} (hi : i / 8 * 3 + 2 < map.length) (tail : Bytes)
    (v : UInt8) : map3Set (map ++ tail) i v = map3Set map i v ++ tail := by
  have h0 : i / 8 * 3 < map.length := by omega
  have h1 : i / 8 * 3 + 1 < map.length := by omega
  simp only [map3Set]
  split <;> simp only [modify_append, List.length_modify, h0, h1, hi]

lemma map3Get_append {map : Bytes} {i : ℕ} (hi : i / 8 * 3 + 2 < map.length) (tail : Bytes) :
    map3Get (map ++ tail) i = map3Get map i := by
  have h0 : i / 8 * 3 < map.length := by omega
  have h1 : i / 8 * 3 + 1 < map.length := by omega
  simp only [map3Get, List.getD_eq_getElem?_getD, List.getElem?_append_left, h0, h1, hi]

end StationProcessor
