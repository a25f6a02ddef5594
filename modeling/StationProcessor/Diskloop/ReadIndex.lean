import StationProcessor.Diskloop.Open

/-!
# Indices that would have to wrap

`ReadIndex` is meant to wrap an index to a slot. `adl_read` takes every negative index for the
newest record and rejects the indices beyond the loop, so a walk back from the newest record ends
at the first slot, and then returns the newest record again and again.
-/

namespace StationProcessor

variable {n : ℕ} {cfg : Config n} {ctx : DiskloopContext n} {slots : List (Record n)}

/-- An open loop that has records: the complete ones in its file, of which it uses what fits its
capacity, and the newest one among these. -/
structure OpenLoop (ctx : DiskloopContext n) (slots : List (Record n)) : Prop where
  holds : Blocks.Holds ctx.loopFp.data slots
  size : ctx.size = min (slots.length : ℤ) ctx.capacity
  index : 0 ≤ ctx.index ∧ ctx.index < ctx.size

/-- A loop that tracks a ring is one of them. -/
lemma Tracks.openLoop {c : ℕ} {ring : SlotRing (Record n) c} (h : Tracks cfg ctx ring)
    (hn : 0 < n) :
    OpenLoop ctx ring.slots where
  holds := by
    rw [h.data]
    exact Blocks.holds_layout hn ring.slots
  size := by
    rw [h.size, h.capacity]
    exact (min_eq_left (Int.ofNat_le.mpr ring.length_le)).symm
  index := by
    rw [h.index, h.size]
    exact ⟨Int.natCast_nonneg _, Int.ofNat_lt.mpr ring.newest_lt⟩

namespace OpenLoop

variable (h : OpenLoop ctx slots)

include h

lemma size_pos : 0 < ctx.size := h.index.1.trans_lt h.index.2

lemma size_le : ctx.size ≤ slots.length ∧ ctx.size ≤ ctx.capacity := by
  rw [h.size]
  exact ⟨min_le_left _ _, min_le_right _ _⟩

end OpenLoop

end StationProcessor
