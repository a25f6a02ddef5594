import StationProcessor.Falcon.RowMap

/-!
# Maps of packed values

The maps of `falcon/falcon_structures.c` with 3 or 4 bits at every index: what is read after a value
is set, at its index and at the others. `map_4_get` reads one bit of four.
-/

namespace StationProcessor

/-! ### Maps of 4-bit values -/

/-- `map_4_set`: store the four low bits of a value. -/
def map4Set (map : Bytes) (index : ℕ) (value : UInt8) : Bytes :=
  map.modify (index / 2) fun b =>
    if index % 2 ≠ 0 then (b &&& (0x0f : UInt8)) ||| ((value &&& (0x0f : UInt8)) <<< 4)
    else (b &&& (0xf0 : UInt8)) ||| (value &&& (0x0f : UInt8))

/-- `map_4_get`, with the mask `0x08`. -/
def map4Get (map : Bytes) (index : ℕ) : UInt8 :=
  let b := map.getD (index / 2) 0
  if index % 2 ≠ 0 then (b >>> 4) &&& 0x08 else b &&& 0x08

/-- What is read of a byte after one of its halves is set. -/
lemma half_bits (b v : UInt8) :
    let high := (b &&& (0x0f : UInt8)) ||| ((v &&& (0x0f : UInt8)) <<< 4)
    let low := (b &&& (0xf0 : UInt8)) ||| (v &&& (0x0f : UInt8))
    ((high >>> 4) &&& (0x08 : UInt8) = v &&& (0x08 : UInt8) ∧
      high &&& (0x08 : UInt8) = b &&& (0x08 : UInt8)) ∧
    (low &&& (0x08 : UInt8) = v &&& (0x08 : UInt8) ∧
      (low >>> 4) &&& (0x08 : UInt8) = (b >>> 4) &&& (0x08 : UInt8)) := by
  refine ⟨⟨?_, ?_⟩, ?_, ?_⟩
  all_goals
    apply eq_of_getLsbD
    intro m hm
    interval_cases m <;> simp

/-- Of a value, one bit is read back at its index. -/
lemma map4Get_map4Set_self {map : Bytes} {i : ℕ} (hi : i / 2 < map.length) (v : UInt8) :
    map4Get (map4Set map i v) i = v &&& 0x08 := by
  simp only [map4Get, map4Set, getD_modify map _ hi, if_true]
  split_ifs
  · exact (half_bits _ v).1.1
  · exact (half_bits _ v).2.1

/-- The other values stay. -/
lemma map4Get_map4Set_of_ne {map : Bytes} {i j : ℕ} (hi : i / 2 < map.length) (v : UInt8)
    (hij : i ≠ j) : map4Get (map4Set map i v) j = map4Get map j := by
  by_cases hbyte : i / 2 = j / 2
  · have hhalf : i % 2 ≠ 0 ↔ ¬ j % 2 ≠ 0 := by omega
    simp only [map4Get, map4Set, getD_modify map _ hi, if_pos hbyte, hhalf]
    by_cases hj : j % 2 ≠ 0
    · simp only [if_pos hj, if_neg (not_not_intro hj)]
      exact (half_bits _ v).2.2
    · simp only [if_neg hj, if_pos hj]
      exact (half_bits _ v).1.2
  · simp only [map4Get, map4Set, getD_modify_of_ne _ _ hbyte]

/-! ### What a map promises -/

/-- The maps by the bits of a value. -/
inductive MapWidth
  | three
  | four
deriving DecidableEq

namespace MapWidth

def bits : MapWidth → ℕ
  | three => 3
  | four => 4

def set : MapWidth → Bytes → ℕ → UInt8 → Bytes
  | three => map3Set
  | four => map4Set

def get : MapWidth → Bytes → ℕ → UInt8
  | three => map3Get
  | four => map4Get

/-- The value of an index is within a map. -/
def Holds (w : MapWidth) (map : Bytes) (index : ℕ) : Prop :=
  w.bits * index + w.bits ≤ 8 * map.length

instance (w : MapWidth) (map : Bytes) (index : ℕ) : Decidable (w.Holds map index) :=
  inferInstanceAs (Decidable (_ ≤ _))

/-- A value that is set is read at its index, and the values at the other indices stay. -/
structure GetSet (w : MapWidth) (map : Bytes) (i : ℕ) (v : UInt8) : Prop where
  self : w.get (w.set map i v) i = v
  other : ∀ j, j ≠ i → w.Holds map j → w.get (w.set map i v) j = w.get map j

variable {map : Bytes} {i : ℕ} {v : UInt8}

lemma getSet_three (hi : three.Holds map i) (hv : v.toNat < 8) : three.GetSet map i v := by
  have hlast : 3 * i + 2 < 8 * map.length := hi
  constructor
  · have hself : map3Get (map3Set map i v) i = v &&& 0x07 := map3Get_map3Set_self hlast v
    refine hself.trans (UInt8.toNat_inj.mp ?_)
    rw [UInt8.toNat_and]
    exact (Nat.and_two_pow_sub_one_eq_mod v.toNat 3).trans (Nat.mod_eq_of_lt hv)
  · intro j hj _
    exact map3Get_map3Set_of_ne hlast v hj.symm

lemma and_eight_eq_iff (hv : v.toNat < 16) : v &&& 0x08 = v ↔ v = 0 ∨ v = 8 := by
  have hall : ∀ n : Fin 16, UInt8.ofNat n &&& 0x08 = UInt8.ofNat n ↔
      UInt8.ofNat n = 0 ∨ UInt8.ofNat n = 8 := by decide
  have hof : UInt8.ofNat v.toNat = v := UInt8.ofNat_toNat
  have hn := hall ⟨v.toNat, hv⟩
  rwa [hof] at hn

lemma getSet_four_iff (hi : four.Holds map i) (hv : v.toNat < 16) :
    four.GetSet map i v ↔ v = 0 ∨ v = 8 := by
  have hbyte : i / 2 < map.length := by
    have hlast : 4 * i + 4 ≤ 8 * map.length := hi
    omega
  have hself : four.get (four.set map i v) i = v &&& 0x08 := map4Get_map4Set_self hbyte v
  rw [← and_eight_eq_iff hv]
  constructor
  · intro h
    exact hself.symm.trans h.self
  · intro h
    exact ⟨hself.trans h, fun j hj _ => map4Get_map4Set_of_ne hbyte v hj.symm⟩

/-- A map of 3-bit values keeps what it promises, and one of 4-bit values where no other bit than
the highest one is set. -/
theorem getSet_iff {w : MapWidth} (hi : w.Holds map i) (hv : v.toNat < 2 ^ w.bits) :
    w.GetSet map i v ↔ (w = four → v = 0 ∨ v = 8) := by
  cases w with
  | three => exact iff_of_true (getSet_three hi hv) (fun h => by cases h)
  | four => exact (getSet_four_iff hi hv).trans ⟨fun h _ => h, fun h => h rfl⟩

theorem getSet_iff_first :
    three.GetSet [0] 0 1 ↔ (three = four → (1 : UInt8) = 0 ∨ (1 : UInt8) = 8) :=
  getSet_iff (by decide) (by decide)

/-- A 1 in a map of 4-bit values is read as 0. -/
theorem not_getSet : ¬ ∀ (w : MapWidth) (map : Bytes) (i : ℕ) (v : UInt8), w.Holds map i →
    v.toNat < 2 ^ w.bits → w.GetSet map i v := by
  intro hall
  have hself := (hall four [0] 0 1 (by decide) (by decide)).self
  exact absurd hself (by decide)

end MapWidth

end StationProcessor
