import Mathlib.Data.Finset.Basic
import Mathlib.Data.Finset.Insert
import Mathlib.Tactic

/-!
# Sliding windows

A receiver of numbered items takes them in any order as long as they are not too far ahead, holds
those that came early and gives them on in order. `SlidingWindow` does this over unbounded
numbers. On the wire a number is known modulo `M`; `Serial.Within` is how the two ends of a
window that may wrap are compared, and it decides correctly for the numbers that are near.
-/

/-! ### Numbers modulo `M` -/

namespace Serial

/-- The serial number `seq` is one of the `W + 1` from `last` on. -/
def Within (M W last seq : ℕ) : Prop :=
  if last < (last + W) % M then last ≤ seq ∧ seq ≤ (last + W) % M
  else last ≤ seq ∨ seq ≤ (last + W) % M

variable {M W : ℕ}

/-- Numbers that share their quotient by `M`, or are one quotient apart. -/
lemma div_near {next n : ℕ} (hM : 0 < M) (h : next < n + M) (h' : n < next + M) :
    n / M = next / M ∨ n / M = next / M + 1 ∨ n / M + 1 = next / M := by
  have hle : n / M ≤ next / M + 1 := by
    rw [← Nat.add_div_right _ hM]
    exact Nat.div_le_div_right h'.le
  have hle' : next / M ≤ n / M + 1 := by
    rw [← Nat.add_div_right _ hM]
    exact Nat.div_le_div_right h.le
  omega

/-- The comparison of serial numbers is right for a number that is not a whole cycle away. -/
lemma within_iff {next n : ℕ} (hW : 0 < W) (hWM : W < M) (h : next + W < n + M)
    (h' : n < next + M) : Within M W (next % M) (n % M) ↔ next ≤ n ∧ n ≤ next + W := by
  have hM : 0 < M := by omega
  have hnext := Nat.div_add_mod next M
  have hn := Nat.div_add_mod n M
  have ha := Nat.mod_lt next hM
  have hb := Nat.mod_lt n hM
  have hwrap : (next % M + W) % M = if next % M + W < M then next % M + W
      else next % M + W - M := by
    split_ifs with hlt
    · exact Nat.mod_eq_of_lt hlt
    · rw [Nat.mod_eq_sub_mod (by omega), Nat.mod_eq_of_lt (by omega)]
  rw [Within, hwrap]
  rcases div_near hM (by omega) h' with hq | hq | hq
  · rw [hq] at hn
    split_ifs <;> omega
  · rw [hq, mul_add, mul_one] at hn
    split_ifs <;> omega
  · rw [← hq, mul_add, mul_one] at hnext
    split_ifs <;> omega

/-- Numbers of one window that agree modulo a number of slots not smaller than it are equal. -/
lemma eq_of_mod_eq {S next m n : ℕ} (hm : next ≤ m) (hm' : m < next + S) (hn : next ≤ n)
    (hn' : n < next + S) (h : m % S = n % S) : m = n := by
  rcases Nat.le_total m n with hle | hle
  · have := (Nat.modEq_iff_dvd' hle).mp h
    have := Nat.eq_zero_of_dvd_of_lt this (by omega)
    omega
  · have := (Nat.modEq_iff_dvd' hle).mp h.symm
    have := Nat.eq_zero_of_dvd_of_lt this (by omega)
    omega

end Serial

/-! ### Windows -/

/-- The number to give on next and the numbers that are held for later. -/
structure SlidingWindow (size : ℕ) where
  next : ℕ
  held : Finset ℕ
  held_window : ∀ n ∈ held, next ≤ n ∧ n < next + size

namespace SlidingWindow

variable {size : ℕ} (w : SlidingWindow size) {m n : ℕ}

/-- The empty window at a number. -/
def start (size first : ℕ) : SlidingWindow size where
  next := first
  held := ∅
  held_window := by simp

/-- The numbers the window takes. -/
def Accepts (n : ℕ) : Prop := w.next ≤ n ∧ n < w.next + size

/-- The numbers that were given on or are held. -/
def Has (n : ℕ) : Prop := n < w.next ∨ n ∈ w.held

/-- Hold a number. -/
def hold (n : ℕ) (h : w.Accepts n) : SlidingWindow size where
  next := w.next
  held := insert n w.held
  held_window := by
    intro m hm
    rcases Finset.mem_insert.mp hm with rfl | hm
    · exact h
    · exact w.held_window m hm

/-- Give on the next number. -/
def release : SlidingWindow size where
  next := w.next + 1
  held := w.held.erase w.next
  held_window := by
    intro m hm
    obtain ⟨hne, hm⟩ := Finset.mem_erase.mp hm
    obtain ⟨hle, hlt⟩ := w.held_window m hm
    omega

@[simp] lemma next_hold (h : w.Accepts n) : (w.hold n h).next = w.next := rfl

@[simp] lemma next_release : w.release.next = w.next + 1 := rfl

lemma mem_held_hold (h : w.Accepts n) : m ∈ (w.hold n h).held ↔ m = n ∨ m ∈ w.held := by
  simp [hold]

lemma mem_held_release : m ∈ w.release.held ↔ m ≠ w.next ∧ m ∈ w.held := by
  simp [release]

/-- Holding a number adds exactly this number. -/
lemma has_hold (h : w.Accepts n) : (w.hold n h).Has m ↔ m = n ∨ w.Has m := by
  simp only [Has, next_hold, mem_held_hold]
  tauto

/-- Giving on the next number when it is held loses none and adds none. -/
lemma has_release (h : w.next ∈ w.held) : w.release.Has m ↔ w.Has m := by
  simp only [Has, next_release, mem_held_release]
  rcases eq_or_ne m w.next with rfl | hne
  · simp [h]
  · simp only [hne, ne_eq, not_false_eq_true, true_and]
    have : m < w.next + 1 ↔ m < w.next := by omega
    rw [this]

end SlidingWindow
