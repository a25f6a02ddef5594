import Mathlib.Data.Nat.Digits.Lemmas
import Mathlib.Tactic

/-!
# Decimal numbers in text

Printing an integer and scanning it back, as `printf` and `scanf` do with `%d`, on lists of
bytes. `Decimal.scanInt_printInt` is the round trip; it needs that no digit follows.
-/

namespace Decimal

def isDigit (b : UInt8) : Bool := 48 ≤ b && b ≤ 57

def isSpace (b : UInt8) : Bool := b == 32 || (9 ≤ b && b ≤ 13)

/-- The number written in decimal digits. -/
def ofDecimal (ds : List UInt8) : ℤ := ds.foldl (fun n d => n * 10 + (d.toNat - 48 : ℤ)) 0

/-- One `%d` of a scan: the value and the text after it. -/
def scanInt (s : List UInt8) : Option (ℤ × List UInt8) :=
  let s := s.dropWhile isSpace
  let (sign, s) : ℤ × List UInt8 := match s with
    | 45 :: t => (-1, t)
    | 43 :: t => (1, t)
    | _ => (1, s)
  let ds := s.takeWhile isDigit
  if ds.isEmpty then none else some (sign * ofDecimal ds, s.dropWhile isDigit)

/-- The decimal digits of a number, most significant first. -/
def natToDecimal (n : ℕ) : List UInt8 :=
  if n = 0 then [48] else ((Nat.digits 10 n).map fun d => (48 + d).toUInt8).reverse

/-- The text of `%d`. -/
def printInt (n : ℤ) : List UInt8 :=
  if n < 0 then 45 :: natToDecimal n.natAbs else natToDecimal n.natAbs

/-! ### Digits -/

lemma toNat_digit {d : ℕ} (h : d < 10) : ((48 + d).toUInt8).toNat = 48 + d := by
  rw [Nat.toUInt8, UInt8.toNat_ofNat']
  omega

lemma isDigit_iff (b : UInt8) : isDigit b = true ↔ 48 ≤ b.toNat ∧ b.toNat ≤ 57 := by
  simp only [isDigit, Bool.and_eq_true, decide_eq_true_eq, UInt8.le_iff_toNat_le]
  rfl

lemma isDigit_of_mem_natToDecimal {n : ℕ} {b : UInt8} (h : b ∈ natToDecimal n) :
    isDigit b = true := by
  unfold natToDecimal at h
  split_ifs at h with h0
  · rw [List.mem_singleton.mp h]
    decide
  · rw [List.mem_reverse, List.mem_map] at h
    obtain ⟨d, hd, rfl⟩ := h
    have hlt : d < 10 := Nat.digits_lt_base (by norm_num) hd
    rw [isDigit_iff, toNat_digit hlt]
    omega

lemma natToDecimal_ne_nil (n : ℕ) : natToDecimal n ≠ [] := by
  unfold natToDecimal
  split_ifs with h0
  · simp
  · simpa using Nat.digits_ne_nil_iff_ne_zero.mpr h0

/-- Reading the digits of a number gives the number. -/
lemma ofDecimal_natToDecimal (n : ℕ) : ofDecimal (natToDecimal n) = n := by
  unfold natToDecimal
  split_ifs with h0
  · rw [h0]
    rfl
  · have hfold : ∀ ds : List ℕ, (∀ d ∈ ds, d < 10) →
        (ds.map fun d => (48 + d).toUInt8).foldr (fun b m => m * 10 + (b.toNat - 48 : ℤ)) 0
          = (Nat.ofDigits 10 ds : ℕ) := by
      intro ds
      induction ds with
      | nil => intro _; rfl
      | cons d ds ih =>
        intro hds
        rw [List.map_cons, List.foldr_cons, ih fun x hx => hds x (List.mem_cons_of_mem _ hx),
          toNat_digit (hds d List.mem_cons_self), Nat.ofDigits_cons]
        push_cast
        ring
    rw [ofDecimal, List.foldl_reverse,
      hfold _ fun d hd => Nat.digits_lt_base (by norm_num) hd, Nat.ofDigits_digits]

/-- A number below `10 ^ k` has at most `k` digits. -/
lemma length_natToDecimal_le {n k : ℕ} (hk : 0 < k) (h : n < 10 ^ k) :
    (natToDecimal n).length ≤ k := by
  unfold natToDecimal
  split_ifs with h0
  · exact hk
  · rw [List.length_reverse, List.length_map]
    exact (Nat.digits_length_le_iff (by norm_num) n).mpr h

/-! ### The round trip -/

/-- The text does not start with a digit. -/
def NoDigit (s : List UInt8) : Prop := ∀ b ∈ s.head?, isDigit b = false

lemma takeWhile_digits {ds rest : List UInt8} (hds : ∀ b ∈ ds, isDigit b = true)
    (hrest : NoDigit rest) :
    (ds ++ rest).takeWhile isDigit = ds ∧ (ds ++ rest).dropWhile isDigit = rest := by
  have hstop : rest.takeWhile isDigit = [] ∧ rest.dropWhile isDigit = rest := by
    cases rest with
    | nil => exact ⟨rfl, rfl⟩
    | cons b t =>
      have hb := hrest b (by simp)
      simp [hb]
  rw [List.takeWhile_append_of_pos hds, List.dropWhile_append_of_pos hds, hstop.1, hstop.2,
    List.append_nil]
  exact ⟨rfl, rfl⟩

lemma isSpace_of_isDigit {b : UInt8} (h : isDigit b = true) : isSpace b = false := by
  rw [isDigit_iff] at h
  have h32 : (32 : UInt8).toNat = 32 := rfl
  have h13 : (13 : UInt8).toNat = 13 := rfl
  simp only [isSpace, Bool.or_eq_false_iff, beq_eq_false_iff_ne, ne_eq,
    ← UInt8.toNat_inj, Bool.and_eq_false_imp, decide_eq_true_eq, decide_eq_false_iff_not,
    UInt8.le_iff_toNat_le]
  omega

lemma ne_sign_of_isDigit {b : UInt8} (h : isDigit b = true) : b ≠ 45 ∧ b ≠ 43 := by
  rw [isDigit_iff] at h
  have h45 : (45 : UInt8).toNat = 45 := rfl
  have h43 : (43 : UInt8).toNat = 43 := rfl
  simp only [ne_eq, ← UInt8.toNat_inj]
  omega

section Scan

variable {ws ds rest : List UInt8} (hws : ∀ b ∈ ws, isSpace b = true) (hne : ds ≠ [])
  (hds : ∀ b ∈ ds, isDigit b = true) (hrest : NoDigit rest)

include hws hne hds hrest

/-- Scanning digits after white space. -/
lemma scanInt_digits : scanInt (ws ++ ds ++ rest) = some (ofDecimal ds, rest) := by
  obtain ⟨htake, hdrop⟩ := takeWhile_digits hds hrest
  obtain ⟨d, ds, rfl⟩ := List.exists_cons_of_ne_nil hne
  have hd := hds d List.mem_cons_self
  obtain ⟨h45, h43⟩ := ne_sign_of_isDigit hd
  have hmatch : (match d :: ds ++ rest with
      | 45 :: t => ((-1 : ℤ), t)
      | 43 :: t => (1, t)
      | _ => (1, d :: ds ++ rest)) = (1, d :: ds ++ rest) := by
    rw [List.cons_append]
    split
    · next h => exact absurd (List.cons.inj h).1 h45
    · next h => exact absurd (List.cons.inj h).1 h43
    · rfl
  unfold scanInt
  rw [List.append_assoc, List.dropWhile_append_of_pos hws, List.cons_append,
    List.dropWhile_cons_of_neg (by simp [isSpace_of_isDigit hd]), ← List.cons_append]
  simp only [hmatch, htake, hdrop, List.isEmpty_cons, Bool.false_eq_true, if_false, one_mul]

/-- Scanning digits with a sign. -/
lemma scanInt_neg : scanInt (ws ++ 45 :: ds ++ rest) = some (-ofDecimal ds, rest) := by
  obtain ⟨htake, hdrop⟩ := takeWhile_digits hds hrest
  have hempty : ds.isEmpty = false := by simpa using hne
  unfold scanInt
  rw [List.append_assoc, List.dropWhile_append_of_pos hws, List.cons_append,
    List.dropWhile_cons_of_neg (by decide)]
  simp only [htake, hdrop, hempty, Bool.false_eq_true, if_false, neg_one_mul]

end Scan

/-- The number a text spells: digits, with or without a sign. -/
def readInt : List UInt8 → Option ℤ
  | 45 :: ds => if ds ≠ [] ∧ ds.all isDigit = true then some (-ofDecimal ds) else none
  | ds => if ds ≠ [] ∧ ds.all isDigit = true then some (ofDecimal ds) else none

lemma readInt_digits {ds : List UInt8} (hne : ds ≠ []) (hds : ∀ b ∈ ds, isDigit b = true) :
    readInt ds = some (ofDecimal ds) := by
  unfold readInt
  split
  · exact absurd rfl (ne_sign_of_isDigit (hds 45 List.mem_cons_self)).1
  · rw [if_pos ⟨hne, List.all_eq_true.mpr hds⟩]

lemma readInt_neg {ds : List UInt8} (hne : ds ≠ []) (hds : ∀ b ∈ ds, isDigit b = true) :
    readInt (45 :: ds) = some (-ofDecimal ds) :=
  if_pos ⟨hne, List.all_eq_true.mpr hds⟩

lemma readInt_printInt (n : ℤ) : readInt (printInt n) = some n := by
  have hds : ∀ b ∈ natToDecimal n.natAbs, isDigit b = true :=
    fun b hb => isDigit_of_mem_natToDecimal hb
  unfold printInt
  split_ifs with hneg
  · rw [readInt_neg (natToDecimal_ne_nil _) hds, ofDecimal_natToDecimal,
      show -(n.natAbs : ℤ) = n by omega]
  · rw [readInt_digits (natToDecimal_ne_nil _) hds, ofDecimal_natToDecimal,
      show (n.natAbs : ℤ) = n by omega]

/-- A text that spells a number is scanned where no digit follows. -/
theorem scanInt_of_readInt {ws t rest : List UInt8} {n : ℤ} (h : readInt t = some n)
    (hws : ∀ b ∈ ws, isSpace b = true) (hrest : NoDigit rest) :
    scanInt (ws ++ t ++ rest) = some (n, rest) := by
  unfold readInt at h
  split at h
  · obtain ⟨⟨hne, hds⟩, heq⟩ := Option.ite_none_right_eq_some.mp h
    rw [scanInt_neg hws hne (List.all_eq_true.mp hds) hrest, Option.some.inj heq]
  · obtain ⟨⟨hne, hds⟩, heq⟩ := Option.ite_none_right_eq_some.mp h
    rw [scanInt_digits hws hne (List.all_eq_true.mp hds) hrest, Option.some.inj heq]

/-- A printed number, after any white space, is scanned back. -/
theorem scanInt_printInt (ws rest : List UInt8) (hws : ∀ b ∈ ws, isSpace b = true)
    (hrest : NoDigit rest) (n : ℤ) : scanInt (ws ++ printInt n ++ rest) = some (n, rest) :=
  scanInt_of_readInt (readInt_printInt n) hws hrest

/-! ### Leading zeros -/

/-- The text of `%0<width>d`: the sign, then zeros up to the width, then the digits. -/
def printPadded (width : ℕ) (n : ℤ) : List UInt8 :=
  if n < 0 then 45 :: (natToDecimal n.natAbs).leftpad (width - 1) 48
  else (natToDecimal n.natAbs).leftpad width 48

/-- Zeros in front do not change a number. -/
lemma ofDecimal_leftpad (width : ℕ) (ds : List UInt8) :
    ofDecimal (ds.leftpad width 48) = ofDecimal ds := by
  have hzeros : ∀ k : ℕ, ofDecimal (List.replicate k 48 ++ ds) = ofDecimal ds := by
    intro k
    induction k with
    | zero => rfl
    | succ k ih => simpa [ofDecimal, List.replicate_succ] using ih
  exact hzeros _

lemma isDigit_of_mem_leftpad {width : ℕ} {ds : List UInt8} (h : ∀ b ∈ ds, isDigit b = true)
    {b : UInt8} (hb : b ∈ ds.leftpad width 48) : isDigit b = true := by
  rcases List.mem_append.mp hb with hzero | hdigit
  · rw [List.eq_of_mem_replicate hzero]
    decide
  · exact h b hdigit

lemma readInt_printPadded (width : ℕ) (n : ℤ) : readInt (printPadded width n) = some n := by
  have hds : ∀ width : ℕ, ∀ b ∈ (natToDecimal n.natAbs).leftpad width 48, isDigit b = true :=
    fun width b hb => isDigit_of_mem_leftpad (fun _ h => isDigit_of_mem_natToDecimal h) hb
  have hne : ∀ width : ℕ, (natToDecimal n.natAbs).leftpad width 48 ≠ [] :=
    fun width h => natToDecimal_ne_nil n.natAbs (List.append_eq_nil_iff.mp h).2
  unfold printPadded
  split_ifs with hneg
  · rw [readInt_neg (hne _) (hds _), ofDecimal_leftpad, ofDecimal_natToDecimal,
      show -(n.natAbs : ℤ) = n by omega]
  · rw [readInt_digits (hne _) (hds _), ofDecimal_leftpad, ofDecimal_natToDecimal,
      show (n.natAbs : ℤ) = n by omega]

end Decimal
