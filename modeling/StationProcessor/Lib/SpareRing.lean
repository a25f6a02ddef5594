import Mathlib.Data.List.Nodup
import Mathlib.Data.List.Range
import Mathlib.Data.Nat.ModEq
import Mathlib.Tactic.Linarith

/-!
# Rings with a spare slot

A ring of `n` slots in which the oldest used slot and the next free one are kept, and nothing
else. One slot stays free, so that a full ring is not taken for an empty one.
-/

namespace SpareRing

/-- The used slots, from the oldest one on. -/
def slots (n oldest count : ℕ) : List ℕ := (List.range count).map fun k => (oldest + k) % n

variable {n oldest count : ℕ}

@[simp] lemma slots_zero : slots n oldest 0 = [] := rfl

/-- Using the next slot. -/
lemma slots_push : slots n oldest (count + 1) = slots n oldest count ++ [(oldest + count) % n] := by
  simp [slots, List.range_succ]

/-- Freeing the oldest slot. -/
lemma slots_pop (ho : oldest < n) :
    slots n oldest (count + 1) = oldest :: slots n ((oldest + 1) % n) count := by
  simp only [slots, List.range_succ_eq_map, List.map_cons, List.map_map, Nat.add_zero,
    Nat.mod_eq_of_lt ho]
  congr 1
  apply List.map_congr_left
  intro k _
  simp only [Function.comp_apply, Nat.mod_add_mod]
  congr 1
  omega

lemma offset_inj {k k' : ℕ} (hk : k < n) (hk' : k' < n)
    (h : (oldest + k) % n = (oldest + k') % n) : k = k' :=
  (Nat.ModEq.add_left_cancel' oldest h).eq_of_lt_of_lt hk hk'

/-- A ring uses no slot twice. -/
lemma slots_nodup (hc : count ≤ n) : (slots n oldest count).Nodup := by
  refine List.Nodup.map_on ?_ List.nodup_range
  intro k hk k' hk' h
  rw [List.mem_range] at hk hk'
  exact offset_inj (hk.trans_le hc) (hk'.trans_le hc) h

/-- The next slot is free. -/
lemma next_notMem (hc : count < n) : (oldest + count) % n ∉ slots n oldest count := by
  intro hmem
  obtain ⟨k, hk, heq⟩ := List.mem_map.mp hmem
  rw [List.mem_range] at hk
  exact hk.ne (offset_inj (hk.trans hc) hc heq)

/-- The positions meet exactly in an empty ring. -/
lemma next_eq_oldest_iff (hc : count < n) (ho : oldest < n) :
    (oldest + count) % n = oldest ↔ count = 0 := by
  constructor
  · intro h
    have hsame : (oldest + count) % n = (oldest + 0) % n := by
      rw [h, Nat.add_zero, Nat.mod_eq_of_lt ho]
    exact offset_inj hc (ho.trans_le' (Nat.zero_le _)) hsame
  · rintro rfl
    exact Nat.mod_eq_of_lt ho

/-- The position after the next one is the oldest exactly in a full ring. -/
lemma next_succ_eq_oldest_iff (hc : count < n) (ho : oldest < n) :
    ((oldest + count) % n + 1) % n = oldest ↔ count + 1 = n := by
  rw [Nat.mod_add_mod, Nat.add_assoc]
  constructor
  · intro h
    by_contra hne
    have hlt : count + 1 < n := lt_of_le_of_ne hc hne
    exact absurd ((next_eq_oldest_iff hlt ho).mp h) (Nat.succ_ne_zero _)
  · intro h
    rw [h, Nat.add_mod_right, Nat.mod_eq_of_lt ho]

end SpareRing
