import Mathlib.Data.List.Rotate
import StationProcessor.Lib.Bisect

/-!
# Bisection of a rotated increasing sequence

The positions `0 .. L` of a ring hold increasing keys from the oldest position to the newest
one, `b`. `Rotated.dir` decides from the keys at the two ends of the range on which side of a
position a sought key is. For keys in the ring, and beyond its newest and oldest key, this
points to where the key belongs; for a key between the last and the first position it points
to the seam between newest and oldest.
-/

namespace Rotated

/-- In a ring whose newest position is `b`, position `i` is older than `j`. -/
def Older (b i j : ℕ) : Prop := (b < i ∧ j ≤ b) ∨ ((i ≤ b ↔ j ≤ b) ∧ i < j)

instance (b i j : ℕ) : Decidable (Older b i j) := inferInstanceAs (Decidable (_ ∨ _))

variable {α : Type*} [LinearOrder α]

/-- The keys of the positions `0 .. L` increase from the oldest to the newest. -/
def Increasing (s : ℕ → α) (L b : ℕ) : Prop :=
  ∀ i j, i ≤ L → j ≤ L → Older b i j → s i < s j

/-- On which side of position `x` the key `t` is: `lt` after it, `gt` before it. -/
def dir (s : ℕ → α) (L : ℕ) (t : α) (x : ℕ) : Ordering :=
  if s x < t then
    if s x < s 0 ∧ s L < t then .gt else .lt
  else if t < s x then
    if s L < s x ∧ t < s 0 then .lt else .gt
  else .eq

/-- Where a key lies, as a position of a bisection. -/
inductive Position (s : ℕ → α) (L b : ℕ) (t : α) : ℤ → Prop
  /-- on a key of the ring -/
  | hit (i : ℕ) (hi : i ≤ L) (h : s i = t) : Position s L b t (2 * i)
  /-- between two neighbours that are not the newest and the oldest -/
  | gap (m : ℕ) (hm : m < L) (hb : m ≠ b) (h : s m < t) (h' : t < s (m + 1)) :
    Position s L b t (2 * m + 1)
  /-- after the newest key -/
  | newer (h : s b < t) : Position s L b t (2 * b + 1)
  /-- before the oldest key of a ring that starts inside the range -/
  | older (hb : b < L) (h : t < s (b + 1)) : Position s L b t (2 * b + 1)
  /-- between the last and the first position of such a ring -/
  | seam (hb : b < L) (h : s L < t) (h' : t < s 0) : Position s L b t (2 * b + 1)
  /-- before the oldest key of a ring that starts at position 0 -/
  | below (hb : b = L) (h : t < s 0) : Position s L b t (-1)

variable {s : ℕ → α} {L b : ℕ} {t : α}

/-- No position is older than the one behind the newest. -/
lemma not_older_oldest (hb : b ≤ L) {i : ℕ} (hi : i ≤ L) :
    ¬ Older b i ((b + 1) % (L + 1)) := by
  rcases hb.eq_or_lt with rfl | hbL
  · rw [Nat.mod_self, Older]
    omega
  · rw [Nat.mod_eq_of_lt (by omega), Older]
    omega

/-- Two positions are the same or one is older. -/
lemma older_trichotomy (i j : ℕ) : Older b i j ∨ i = j ∨ Older b j i := by
  unfold Older
  omega

lemma Increasing.injective (h : Increasing s L b) {i j : ℕ} (hi : i ≤ L) (hj : j ≤ L)
    (heq : s i = s j) : i = j := by
  rcases older_trichotomy (b := b) i j with ho | rfl | ho
  · exact absurd heq (h i j hi hj ho).ne
  · rfl
  · exact absurd heq (h j i hj hi ho).ne'

/-- The newest key is the largest. -/
lemma Increasing.le_newest (h : Increasing s L b) (hb : b ≤ L) {i : ℕ} (hi : i ≤ L) :
    s i ≤ s b := by
  rcases eq_or_ne i b with rfl | hne
  · exact le_rfl
  · exact (h i b hi hb (by unfold Older; omega)).le

/-! ### Reading a rotated list from its oldest position -/

/-- The place of position `x` in the list read from its oldest position. -/
def age (b len x : ℕ) : ℕ := if x ≤ b then x + (len - 1 - b) else x - (b + 1)

lemma age_lt {len x : ℕ} (hb : b < len) (hx : x < len) : age b len x < len := by
  unfold age
  split_ifs <;> omega

lemma older_iff_age_lt {len i j : ℕ} (hb : b < len) (hi : i < len) (hj : j < len) :
    Older b i j ↔ age b len i < age b len j := by
  unfold Older age
  split_ifs <;> omega

lemma getElem?_age {β : Type*} {l : List β} (hb : b < l.length) {x : ℕ} (hx : x < l.length) :
    (l.rotate (b + 1))[age b l.length x]? = some l[x] := by
  rw [List.getElem?_rotate (age_lt hb hx), ← List.getElem?_eq_getElem hx]
  congr 1
  unfold age
  split_ifs with hxb
  · rw [show x + (l.length - 1 - b) + (b + 1) = x + l.length by omega, Nat.add_mod_right,
      Nat.mod_eq_of_lt hx]
  · rw [show x - (b + 1) + (b + 1) = x by omega, Nat.mod_eq_of_lt hx]

/-- What holds of the pairs of a list read from its oldest position holds of its positions in
the order of age. -/
lemma of_pairwise_rotate {β : Type*} {R : β → β → Prop} {l : List β} (hb : b < l.length)
    (h : (l.rotate (b + 1)).Pairwise R) {i j : ℕ} (hi : i < l.length) (hj : j < l.length)
    (ho : Older b i j) : R l[i] l[j] := by
  obtain ⟨hki, hi'⟩ := List.getElem?_eq_some_iff.mp (getElem?_age hb hi)
  obtain ⟨hkj, hj'⟩ := List.getElem?_eq_some_iff.mp (getElem?_age hb hj)
  rw [← hi', ← hj']
  exact List.pairwise_iff_getElem.mp h _ _ hki hkj ((older_iff_age_lt hb hi hj).mp ho)

/-! ### The direction test -/

/-- The keys increase up to the newest position and behind it, and the second range is the
older one. -/
lemma Increasing.strictMonoOn_left (h : Increasing s L b) (hb : b ≤ L) :
    StrictMonoOn s (Set.Iic b) :=
  fun i hi j hj hij => h i j (le_trans hi hb) (le_trans hj hb) (Or.inr ⟨iff_of_true hi hj, hij⟩)

lemma Increasing.strictMonoOn_right (h : Increasing s L b) : StrictMonoOn s (Set.Ioc b L) :=
  fun i hi j hj hij =>
    h i j hi.2 hj.2 (Or.inr ⟨iff_of_false hi.1.not_ge hj.1.not_ge, hij⟩)

lemma Increasing.right_lt_left (h : Increasing s L b) (hb : b ≤ L) {i j : ℕ} (hbi : b < i)
    (hi : i ≤ L) (hj : j ≤ b) : s i < s j :=
  h i j hi (hj.trans hb) (Or.inl ⟨hbi, hj⟩)

/-- Up to the newest position only a key below the first one is sought across the seam. -/
lemma dir_left (h : Increasing s L b) (hb : b ≤ L) {x : ℕ} (hx : 0 < x) (hxb : x ≤ b)
    (hxL : x < L) : dir s L t x = if b < L ∧ t < s 0 then .lt else compare (s x) t := by
  have hfirst : s 0 < s x := h.strictMonoOn_left hb (Nat.zero_le b) hxb hx
  have hlast : s L < s x ↔ b < L := by
    refine ⟨fun hlt => lt_of_not_ge fun hLb => ?_, fun hbL => h.right_lt_left hb hbL le_rfl hxb⟩
    exact hlt.asymm (h.strictMonoOn_left hb hxb hLb hxL)
  unfold dir
  rcases lt_trichotomy (s x) t with hlt | heq | hgt
  · rw [if_pos hlt, if_neg fun hend => hend.1.asymm hfirst,
      if_neg fun hseam => (hfirst.trans hlt).asymm hseam.2, compare_lt_iff_lt.mpr hlt]
  · subst heq
    rw [if_neg (lt_irrefl _), if_neg (lt_irrefl _), if_neg fun hseam => hfirst.asymm hseam.2,
      compare_eq_iff_eq.mpr rfl]
  · rw [if_neg hgt.asymm, if_pos hgt, compare_gt_iff_gt.mpr hgt]
    simp only [hlast]

/-- Behind the newest position only a key above the last one is sought across the seam. -/
lemma dir_right (h : Increasing s L b) (hb : b ≤ L) {x : ℕ} (hbx : b < x) (hxL : x < L) :
    dir s L t x = if s L < t then .gt else compare (s x) t := by
  have hlast : s x < s L := h.strictMonoOn_right ⟨hbx, hxL.le⟩ ⟨by omega, le_rfl⟩ hxL
  have hfirst : s x < s 0 := h.right_lt_left hb hbx hxL.le (Nat.zero_le b)
  unfold dir
  rcases lt_trichotomy (s x) t with hlt | heq | hgt
  · rw [if_pos hlt, compare_lt_iff_lt.mpr hlt]
    simp only [hfirst, true_and]
  · subst heq
    rw [if_neg (lt_irrefl _), if_neg (lt_irrefl _), if_neg hlast.asymm,
      compare_eq_iff_eq.mpr rfl]
  · rw [if_neg hgt.asymm, if_pos hgt, if_neg fun hend => hend.1.asymm hlast,
      if_neg (hgt.trans hlast).asymm, compare_gt_iff_gt.mpr hgt]

/-- Where the keys increase they compare as their positions do. -/
lemma compare_hit {S : Set ℕ} (hs : StrictMonoOn s S) {x i : ℕ} (hx : x ∈ S) (hi : i ∈ S) :
    compare (s x) (s i) = compare (2 * x : ℤ) (2 * i) := by
  have hdouble : StrictMono fun k : ℕ => (2 * k : ℤ) := fun i j hij => by dsimp only; omega
  rw [← cmp_eq_compare, hs.cmp_map_eq hx hi, ← hdouble.cmp_map_eq, cmp_eq_compare]

/-- Where the keys increase they compare with a key between two neighbours as their positions
do with the gap. -/
lemma compare_gap {S : Set ℕ} (hs : StrictMonoOn s S) {x m : ℕ} (hx : x ∈ S)
    (hm : m ∈ S) (hm' : m + 1 ∈ S) (hlow : s m < t) (hhigh : t < s (m + 1)) :
    compare (s x) t = compare (2 * x : ℤ) (2 * m + 1) := by
  rcases Nat.lt_or_ge m x with hmx | hxm
  · have hle : s (m + 1) ≤ s x := (hs.le_iff_le hm' hx).mpr hmx
    rw [compare_gt_iff_gt.mpr (hhigh.trans_le hle), compare_gt_iff_gt.mpr (by omega)]
  · have hle : s x ≤ s m := (hs.le_iff_le hx hm).mpr hxm
    rw [compare_lt_iff_lt.mpr (hle.trans_lt hlow), compare_lt_iff_lt.mpr (by omega)]

/-- Inside the range the test points to the position of the key. -/
lemma dir_eq_compare (h : Increasing s L b) (hb : b ≤ L) {κ : ℤ} (hκ : Position s L b t κ)
    {x : ℕ} (hx : 0 < x) (hxL : x < L) : dir s L t x = compare (2 * x : ℤ) κ := by
  have hleft := h.strictMonoOn_left hb
  have hright := h.strictMonoOn_right
  rcases Nat.lt_or_ge b x with hbx | hxb
  · have hlast_lt : ∀ {j}, j ≤ b → s L < s j := h.right_lt_left hb (by omega) le_rfl
    have before : s L < t → κ < 2 * x → dir s L t x = compare (2 * x : ℤ) κ := fun hL hlt => by
      rw [dir_right h hb hbx hxL, if_pos hL, compare_gt_iff_gt.mpr hlt]
    cases hκ with
    | hit i hi hit =>
      subst hit
      rcases Nat.lt_or_ge b i with hbi | hib
      · have hle : s i ≤ s L := (hright.le_iff_le ⟨hbi, hi⟩ ⟨by omega, le_rfl⟩).mpr hi
        rw [dir_right h hb hbx hxL, if_neg hle.not_gt, compare_hit hright ⟨hbx, hxL.le⟩ ⟨hbi, hi⟩]
      · exact before (hlast_lt hib) (by omega)
    | gap m hm hmb hlow hhigh =>
      rcases lt_or_gt_of_ne hmb with hmb | hbm
      · exact before ((hlast_lt hmb.le).trans hlow) (by omega)
      · have hm' : m + 1 ∈ Set.Ioc b L := ⟨by omega, hm⟩
        have hle : s (m + 1) ≤ s L := (hright.le_iff_le hm' ⟨by omega, le_rfl⟩).mpr hm
        rw [dir_right h hb hbx hxL, if_neg (hhigh.trans_le hle).asymm,
          compare_gap hright ⟨hbx, hxL.le⟩ ⟨hbm, hm.le⟩ hm' hlow hhigh]
    | newer hnew => exact before ((hlast_lt le_rfl).trans hnew) (by omega)
    | older hbL hold =>
      have hle : s (b + 1) ≤ s x := (hright.le_iff_le ⟨by omega, hbL⟩ ⟨hbx, hxL.le⟩).mpr hbx
      have hxlast : s x < s L := hright ⟨hbx, hxL.le⟩ ⟨hbL, le_rfl⟩ hxL
      have htx : t < s x := hold.trans_le hle
      rw [dir_right h hb hbx hxL, if_neg (htx.trans hxlast).asymm, compare_gt_iff_gt.mpr htx,
        compare_gt_iff_gt.mpr (by omega)]
    | seam _ hL _ => exact before hL (by omega)
    | below hbL _ => omega
  · have lt_first : ∀ {i}, b < i → i ≤ L → s i < s 0 := fun hbi hi =>
      h.right_lt_left hb hbi hi (Nat.zero_le b)
    have after : b < L → t < s 0 → (2 * x : ℤ) < κ → dir s L t x = compare (2 * x : ℤ) κ :=
      fun hbL h0 hlt => by
        rw [dir_left h hb hx hxb hxL, if_pos ⟨hbL, h0⟩, compare_lt_iff_lt.mpr hlt]
    cases hκ with
    | hit i hi hit =>
      subst hit
      rcases Nat.lt_or_ge b i with hbi | hib
      · exact after (by omega) (lt_first hbi hi) (by omega)
      · have hle : s 0 ≤ s i := (hleft.le_iff_le (Nat.zero_le b) hib).mpr (Nat.zero_le i)
        rw [dir_left h hb hx hxb hxL, if_neg fun hseam => hle.not_gt hseam.2,
          compare_hit hleft hxb hib]
    | gap m hm hmb hlow hhigh =>
      rcases lt_or_gt_of_ne hmb with hmb | hbm
      · have hle : s 0 ≤ s m := (hleft.le_iff_le (Nat.zero_le b) hmb.le).mpr (Nat.zero_le m)
        rw [dir_left h hb hx hxb hxL, if_neg fun hseam => (hle.trans_lt hlow).asymm hseam.2,
          compare_gap hleft hxb hmb.le hmb hlow hhigh]
      · exact after (by omega) (hhigh.trans (lt_first (by omega) hm)) (by omega)
    | newer hnew =>
      have hlt : s x < t := (h.le_newest hb hxL.le).trans_lt hnew
      have h0 : s 0 < t := (h.le_newest hb (Nat.zero_le L)).trans_lt hnew
      rw [dir_left h hb hx hxb hxL, if_neg fun hseam => h0.asymm hseam.2,
        compare_lt_iff_lt.mpr hlt, compare_lt_iff_lt.mpr (by omega)]
    | older hbL hold => exact after hbL (hold.trans (lt_first (by omega) hbL)) (by omega)
    | seam hbL _ h0 => exact after hbL h0 (by omega)
    | below hbL h0 =>
      have htx : t < s x := h0.trans (hleft (Nat.zero_le b) hxb hx)
      rw [dir_left h hb hx hxb hxL, if_neg fun hseam => hseam.1.ne hbL,
        compare_gt_iff_gt.mpr htx, compare_gt_iff_gt.mpr (by omega)]

/-- The bisection with the direction test ends where the position of the key leads it. -/
lemma loop_dir (h : Increasing s L b) (hb : b ≤ L) {κ : ℤ} (hκ : Position s L b t κ) :
    Bisect.loop (dir s L t) L 0 L 0 = Bisect.lastProbe L κ :=
  Bisect.loop_congr 0 fun _ h0 hL => dir_eq_compare h hb hκ h0 hL

/-- All positions of a key lead the bisection to the same place. -/
lemma lastProbe_eq (h : Increasing s L b) (hb : b ≤ L) {κ κ' : ℤ} (hκ : Position s L b t κ)
    (hκ' : Position s L b t κ') : Bisect.lastProbe L κ = Bisect.lastProbe L κ' :=
  (loop_dir h hb hκ).symm.trans (loop_dir h hb hκ')

/-! ### Every key has a position -/

/-- Between a smaller and a larger key two neighbours enclose a key that is not hit. -/
lemma exists_gap {lo hi : ℕ} (hle : lo ≤ hi) (hlo : s lo < t) (hhi : t < s hi)
    (hno : ∀ i, i ≤ hi → s i ≠ t) : ∃ m, lo ≤ m ∧ m < hi ∧ s m < t ∧ t < s (m + 1) := by
  induction hi, hle using Nat.le_induction with
  | base => exact absurd hlo hhi.asymm
  | succ hi hle ih =>
    rcases lt_or_gt_of_ne (hno hi (by omega)) with hlt | hgt
    · exact ⟨hi, hle, by omega, hlt, hhi⟩
    · obtain ⟨m, h1, h2, h3⟩ := ih hgt fun i hi' => hno i (by omega)
      exact ⟨m, h1, by omega, h3⟩

lemma exists_position (hb : b ≤ L) (t : α) : ∃ κ, Position s L b t κ := by
  by_cases hhit : ∃ i, i ≤ L ∧ s i = t
  · obtain ⟨i, hi, h⟩ := hhit
    exact ⟨_, .hit i hi h⟩
  push Not at hhit
  rcases lt_or_gt_of_ne (hhit b hb) with hnew | hnew
  · exact ⟨_, .newer hnew⟩
  rcases lt_or_gt_of_ne (hhit 0 (by omega)) with h0 | h0
  · obtain ⟨m, -, hm, h1, h2⟩ :=
      exists_gap (Nat.zero_le b) h0 hnew fun i hi => hhit i (by omega)
    exact ⟨_, .gap m (by omega) (by omega) h1 h2⟩
  rcases hb.eq_or_lt with hbL | hbL
  · exact ⟨_, .below hbL h0⟩
  rcases lt_or_gt_of_ne (hhit L le_rfl) with hL | hL
  · exact ⟨_, .seam hbL hL h0⟩
  rcases lt_or_gt_of_ne (hhit (b + 1) hbL) with hold | hold
  · obtain ⟨m, h1, hm, h2, h3⟩ := exists_gap hbL hold hL hhit
    exact ⟨_, .gap m hm (by omega) h2 h3⟩
  · exact ⟨_, .older hbL hold⟩

end Rotated
