import Mathlib.Data.List.TakeWhile
import StationProcessor.Lib.Decimal

/-!
# Numbers in any base

`strtol` of the C library for a base from 2 to 36, and the text of `%0*x`. Scanning the printed text
in base 16 gives the number back, as far as the type of the result goes.
-/

namespace Strtol

open Decimal

/-- The value of a digit, `36` for all other characters. -/
def digitValue (b : UInt8) : ℕ :=
  if 48 ≤ b && b ≤ 57 then b.toNat - 48
  else if 97 ≤ b && b ≤ 122 then b.toNat - 87
  else if 65 ≤ b && b ≤ 90 then b.toNat - 55
  else 36

/-- The number that digits spell. -/
def ofDigits (base : ℕ) (ds : List UInt8) : ℕ := ds.foldl (fun m b => base * m + digitValue b) 0

/-- Without the `0x` that may stand in front of a number in base 16. -/
def dropPrefix : List UInt8 → List UInt8
  | 48 :: x :: d :: s =>
    if (x = 120 ∨ x = 88) ∧ digitValue d < 16 then d :: s else 48 :: x :: d :: s
  | s => s

/-- The sign in front of a number, and what is behind it. -/
def takeSign : List UInt8 → ℤ × List UInt8
  | 45 :: s => (-1, s)
  | 43 :: s => (1, s)
  | s => (1, s)

/-- `strtol`, with a result of so many bits. -/
def strtol (bits base : ℕ) (s : List UInt8) : ℤ :=
  let (sign, s) := takeSign (s.dropWhile isSpace)
  let s := if base = 16 then dropPrefix s else s
  let m := sign * ofDigits base (s.takeWhile (digitValue · < base))
  max (-2 ^ (bits - 1)) (min (2 ^ (bits - 1) - 1) m)

def hexDigit (m : ℕ) : UInt8 := (if m < 10 then 48 + m else 87 + m).toUInt8

/-- The text of `%0*x`, for a number that fits the width. -/
def hexText : ℕ → ℕ → List UInt8
  | 0, _ => []
  | width + 1, m => hexText width (m / 16) ++ [hexDigit (m % 16)]

/-! ### Digits -/

lemma digitValue_hexDigit {m : ℕ} (h : m < 16) : digitValue (hexDigit m) = m := by
  interval_cases m <;> rfl

lemma ofDigits_append (base : ℕ) (ds es : List UInt8) :
    ofDigits base (ds ++ es) = ofDigits base ds * base ^ es.length + ofDigits base es := by
  induction es using List.reverseRecOn with
  | nil => simp [ofDigits]
  | append_singleton es e ih =>
    have hlast : ∀ xs, ofDigits base (xs ++ [e]) = base * ofDigits base xs + digitValue e := by
      simp [ofDigits]
    rw [← List.append_assoc, hlast, hlast, ih, List.length_append, List.length_singleton, pow_succ]
    ring

@[simp] lemma length_hexText (width m : ℕ) : (hexText width m).length = width := by
  induction width generalizing m with
  | zero => rfl
  | succ width ih => simp [hexText, ih]

lemma ofDigits_hexText (width m : ℕ) : ofDigits 16 (hexText width m) = m % 16 ^ width := by
  induction width generalizing m with
  | zero => simp [hexText, ofDigits, Nat.mod_one]
  | succ width ih =>
    have hdigit : ofDigits 16 [hexDigit (m % 16)] = m % 16 := by
      simp [ofDigits, digitValue_hexDigit (Nat.mod_lt m (by norm_num))]
    rw [hexText, ofDigits_append, ih, hdigit, List.length_singleton, pow_one, pow_succ',
      Nat.mod_mul]
    ring

lemma digitValue_of_mem_hexText {width m : ℕ} {b : UInt8} (h : b ∈ hexText width m) :
    digitValue b < 16 := by
  induction width generalizing m with
  | zero => cases h
  | succ width ih =>
    rcases List.mem_append.mp h with h | h
    · exact ih h
    · rw [List.mem_singleton.mp h, digitValue_hexDigit (Nat.mod_lt m (by norm_num))]
      exact Nat.mod_lt m (by norm_num)

/-! ### Scanning digits -/

/-- A digit is neither white space nor a sign nor the mark of a prefix. -/
lemma isSpace_of_digit {b : UInt8} (h : digitValue b < 16) :
    isSpace b = false ∧ b ≠ 45 ∧ b ≠ 43 ∧ b ≠ 120 ∧ b ≠ 88 := by
  have hall : ∀ b : Fin 256, digitValue (UInt8.ofFin b) < 16 →
      isSpace (UInt8.ofFin b) = false ∧ UInt8.ofFin b ≠ 45 ∧ UInt8.ofFin b ≠ 43 ∧
        UInt8.ofFin b ≠ 120 ∧ UInt8.ofFin b ≠ 88 := by
    decide +kernel
  exact hall b.toFin h

lemma dropPrefix_of_digits {s : List UInt8} (h : ∀ b ∈ s, digitValue b < 16) :
    dropPrefix s = s := by
  unfold dropPrefix
  split
  · next x d s =>
    obtain ⟨-, -, -, hx, hX⟩ := isSpace_of_digit (h x (by simp))
    rw [if_neg fun hmark => hmark.1.elim hx hX]
  · rfl

lemma takeSign_of_digits {s : List UInt8} (h : ∀ b ∈ s, digitValue b < 16) :
    takeSign s = (1, s) := by
  unfold takeSign
  split
  · exact absurd rfl (isSpace_of_digit (h 45 (by simp))).2.1
  · exact absurd rfl (isSpace_of_digit (h 43 (by simp))).2.2.1
  · rfl

/-- Digits in base 16 are scanned up to the limit of the type. -/
lemma strtol_of_digits (bits : ℕ) {ds : List UInt8} (h : ∀ b ∈ ds, digitValue b < 16) :
    strtol bits 16 ds = min (2 ^ (bits - 1) - 1) (ofDigits 16 ds : ℤ) := by
  have hspace : ds.dropWhile isSpace = ds := by
    cases ds with
    | nil => rfl
    | cons b ds => rw [List.dropWhile_cons_of_neg (by simp [isSpace_of_digit (h b (by simp))])]
  have hdigits : ds.takeWhile (digitValue · < 16) = ds :=
    List.takeWhile_eq_self_iff.mpr fun b hb => decide_eq_true (h b hb)
  have hlow : -2 ^ (bits - 1) ≤ min (2 ^ (bits - 1) - 1 : ℤ) (ofDigits 16 ds) := by
    have hpow : (1 : ℤ) ≤ 2 ^ (bits - 1) := one_le_pow₀ (by norm_num)
    exact le_min (by linarith) (by linarith [Int.natCast_nonneg (ofDigits 16 ds)])
  simp only [strtol, hspace, takeSign_of_digits h, if_true, dropPrefix_of_digits h, hdigits,
    one_mul]
  exact max_eq_right hlow

end Strtol
