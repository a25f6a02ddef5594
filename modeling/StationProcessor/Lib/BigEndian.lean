import Mathlib.Data.UInt
import Mathlib.Tactic

/-!
# Numbers in network order

A number as a fixed count of bytes, the most significant one first, and the number a list of
bytes stands for. Encoding keeps the number up to what the bytes hold.
-/

namespace BigEndian

/-- The low `k` bytes of a number. -/
def encode : ℕ → ℕ → List UInt8
  | 0, _ => []
  | k + 1, v => (v / 256 ^ k).toUInt8 :: encode k v

/-- The number in a list of bytes. -/
def decode : List UInt8 → ℕ
  | [] => 0
  | b :: bs => b.toNat * 256 ^ bs.length + decode bs

@[simp] lemma encode_zero (v : ℕ) : encode 0 v = [] := rfl

@[simp] lemma encode_succ (k v : ℕ) : encode (k + 1) v = (v / 256 ^ k).toUInt8 :: encode k v := rfl

@[simp] lemma length_encode (k v : ℕ) : (encode k v).length = k := by
  induction k with
  | zero => rfl
  | succ k ih => simp [ih]

/-- A number that fits the bytes is read back. -/
@[simp] lemma decode_encode (k v : ℕ) : decode (encode k v) = v % 256 ^ k := by
  induction k with
  | zero => simp [decode, Nat.mod_one]
  | succ k ih =>
    rw [encode_succ, decode, ih, length_encode, pow_succ, Nat.mod_mul]
    simp only [Nat.toUInt8_eq, UInt8.toNat_ofNat']
    ring

lemma decode_encode_of_lt {k v : ℕ} (h : v < 256 ^ k) : decode (encode k v) = v := by
  rw [decode_encode, Nat.mod_eq_of_lt h]

end BigEndian
