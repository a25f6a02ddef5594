import StationProcessor.Diskloop.Open

/-!
# The newest and the oldest record of a loop

`adl_newest_index` and `adl_oldest_index` search for the sentinel times of `max_time` and
`min_time`. Both fail on a loop of exactly two records, where the search looks at the second
slot only; on longer loops the newest record is found by its start time, and the oldest one by
the smallest end time around the place where the search for `min_time` ends.
-/

namespace StationProcessor

variable {n c : ℕ} {cfg : Config n} {ctx : DiskloopContext n} {slots : List (Record n)}

/-- One record starts before another. -/
def StartsEarlier (cfg : Config n) (r r' : Record n) : Prop := startOf cfg r < startOf cfg r'

instance (cfg : Config n) : DecidableRel (StartsEarlier (n := n) cfg) :=
  fun _ _ => inferInstanceAs (Decidable (_ < _))

/-- Starts that increase from the oldest record on increase with the age of the slots. -/
lemma increasing_of_pairwise {b L : ℕ} (hL : slots.length = L + 1) (hb : b ≤ L)
    (h : (slots.rotate (b + 1)).Pairwise (StartsEarlier cfg)) :
    Rotated.Increasing (startAt cfg slots) L b := by
  intro i j hi hj ho
  rw [startAt_eq (by omega), startAt_eq (by omega)]
  exact Rotated.of_pairwise_rotate (by omega) h (by omega) (by omega) ho

/-- The search for a time before every start ends next to the oldest slot. -/
lemma mem_examined_oldest {b L : ℕ} {s : ℕ → ℤ} {t : ℤ} (hL : 2 ≤ L) (hb : b ≤ L)
    (ht : t < s ((b + 1) % (L + 1))) :
    ∃ κ, Rotated.Position s L b t κ ∧
      (b + 1) % (L + 1) ∈ examined L (Bisect.lastProbe L κ) := by
  rcases hb.eq_or_lt with rfl | hbL
  · rw [Nat.mod_self] at ht ⊢
    refine ⟨_, .below rfl ht, ?_⟩
    have hnear := Bisect.lastProbe_near (κ := -1) hL
    have hinside := Bisect.lastProbe_inside (-1) hL
    rw [mem_examined_iff hL]
    omega
  · rw [Nat.mod_eq_of_lt (by omega)] at ht ⊢
    refine ⟨_, .older hbL ht, ?_⟩
    have hnear := Bisect.lastProbe_near (κ := 2 * b + 1) hL
    have hinside := Bisect.lastProbe_inside (2 * b + 1) hL
    rw [mem_examined_iff hL]
    omega

/-- When both searches find their record and so the record read by `ReadLast` is the newest:
there is one record, or there are three or more, the newest one does not start after `max_time`,
and around the place of `min_time` the oldest record, in slot `b + 1` wrapped, is the first of
the smallest end time. -/
def EndsFound (cfg : Config n) (slots : List (Record n)) (b : ℕ) : Prop :=
  slots.length = 1 ∨
    (3 ≤ slots.length ∧ startAt cfg slots b ≤ maxTime.instant ∧
      ∃ κ, Rotated.Position (startAt cfg slots) (slots.length - 1) b minTime.instant κ ∧
        Bisect.IsFirstBest (Qualifies cfg slots minTime.instant .afterInclusive)
          (searchKey cfg slots .afterInclusive)
          (examined (slots.length - 1) (Bisect.lastProbe (slots.length - 1) κ))
          ((b + 1) % slots.length))

/-- In a loop of three or more records whose ends also increase, and whose times lie between the
sentinels, both ends are found. -/
lemma endsFound_of_increasing {b : ℕ} (hb : b < slots.length) (h3 : 3 ≤ slots.length)
    (hincr : (slots.rotate (b + 1)).Pairwise (StartsEarlier cfg))
    (hends : (slots.rotate (b + 1)).Pairwise fun r r' => endOf cfg r < endOf cfg r')
    (hmin : minTime.instant < startAt cfg slots ((b + 1) % slots.length))
    (hend : minTime.instant ≤ endAt cfg slots ((b + 1) % slots.length))
    (hmax : startAt cfg slots b ≤ maxTime.instant) : EndsFound cfg slots b := by
  obtain ⟨L, hL⟩ : ∃ L, slots.length = L + 1 := ⟨slots.length - 1, by omega⟩
  have hinc := increasing_of_pairwise hL (by omega) hincr
  refine Or.inr ⟨h3, hmax, ?_⟩
  rw [hL, Nat.add_sub_cancel]
  rw [hL] at hmin hend
  obtain ⟨κ, hκ, hnear⟩ := mem_examined_oldest (show 2 ≤ L by omega) (by omega) hmin
  refine ⟨κ, hκ, hnear, hend, fun x hx _ => ?_⟩
  have hxL := lt_of_mem_examined hL (by omega) hx
  have holdest : (b + 1) % (L + 1) < slots.length := hL ▸ Nat.mod_lt _ (by omega)
  rcases Rotated.older_trichotomy (b := b) ((b + 1) % (L + 1)) x with ho | rfl | ho
  · refine Or.inl (neg_lt_neg ?_)
    rw [endAt_eq holdest, endAt_eq hxL]
    exact Rotated.of_pairwise_rotate hb hends holdest hxL ho
  · exact Or.inr ⟨rfl, le_rfl⟩
  · exact absurd ho (Rotated.not_older_oldest (by omega) (by omega))

/-! ### Loops written by appends -/

end StationProcessor
