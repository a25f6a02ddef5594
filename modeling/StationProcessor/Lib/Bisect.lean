import Mathlib.Data.List.Basic
import Mathlib.Order.Compare
import Mathlib.Tactic

/-!
# Bisection of an index range, and the first best of a few candidates

`Bisect.loop` halves a range until its ends are neighbours and returns the last index it
probed. Where the probes agree with a sought position, that index is at most one away from it;
which neighbour it is depends on the range and the position only, as `Bisect.lastProbe`.

A position between the indices `0 .. L` is given as an integer: `2 * i` is on the index `i`
and `2 * i + 1` between `i` and `i + 1`.
-/

namespace Bisect

/-- Probe the middle of `lo .. hi` until they are neighbours; `p` is the index probed last.
`dir i` is `lt` where the sought position is after `i`. -/
def loop (dir : ℕ → Ordering) : ℕ → ℕ → ℕ → ℕ → ℕ
  | 0, _, _, p => p
  | fuel + 1, lo, hi, p =>
    if hi - lo > 1 then
      let mid := lo + (hi - lo) / 2
      match dir mid with
      | .lt => loop dir fuel mid hi mid
      | .gt => loop dir fuel lo mid mid
      | .eq => mid
    else p

/-- The index probed last when the bisection of `0 .. L` looks for the position `κ`. -/
def lastProbe (L : ℕ) (κ : ℤ) : ℕ := loop (fun i => compare (2 * i : ℤ) κ) L 0 L 0

variable {dir dir' : ℕ → Ordering}

/-- Only the directions strictly inside the range matter. -/
lemma loop_congr {fuel lo hi : ℕ} (p : ℕ) (h : ∀ i, lo < i → i < hi → dir i = dir' i) :
    loop dir fuel lo hi p = loop dir' fuel lo hi p := by
  induction fuel generalizing lo hi p with
  | zero => rfl
  | succ fuel ih =>
    simp only [loop]
    split_ifs with hgap
    · have hlo : lo < lo + (hi - lo) / 2 := by omega
      have hhi : lo + (hi - lo) / 2 < hi := by omega
      rw [h _ hlo hhi]
      generalize lo + (hi - lo) / 2 = mid at hlo hhi ⊢
      cases dir' mid with
      | lt => exact ih _ fun i h1 h2 => h i (by omega) h2
      | gt => exact ih _ fun i h1 h2 => h i h1 (by omega)
      | eq => rfl
    · rfl

/-- What the last probe of a range with something inside it is: on the position, or next to
it, or at the end of the range the position lies beyond. -/
lemma loop_compare_spec (κ : ℤ) (fuel lo hi p : ℕ) (hfuel : hi ≤ lo + 1 + fuel)
    (hgap : 1 < hi - lo) :
    lo < loop (fun i => compare (2 * i : ℤ) κ) fuel lo hi p ∧
    loop (fun i => compare (2 * i : ℤ) κ) fuel lo hi p < hi ∧
    (2 * (loop (fun i => compare (2 * i : ℤ) κ) fuel lo hi p : ℤ) < κ - 1 →
      loop (fun i => compare (2 * i : ℤ) κ) fuel lo hi p + 1 = hi) ∧
    (κ + 1 < 2 * (loop (fun i => compare (2 * i : ℤ) κ) fuel lo hi p : ℤ) →
      loop (fun i => compare (2 * i : ℤ) κ) fuel lo hi p = lo + 1) := by
  induction fuel generalizing lo hi p with
  | zero => omega
  | succ fuel ih =>
    simp only [loop, if_pos hgap]
    have hlo : lo < lo + (hi - lo) / 2 := by omega
    have hhi : lo + (hi - lo) / 2 < hi := by omega
    have hshrink : lo + (hi - lo) / 2 ≤ lo + 1 + fuel ∧ hi ≤ lo + (hi - lo) / 2 + 1 + fuel := by
      omega
    generalize lo + (hi - lo) / 2 = mid at hlo hhi hshrink ⊢
    -- a half without inner indices ends the loop with `mid` as its last probe
    have done : ∀ {lo' hi'}, ¬ 1 < hi' - lo' →
        loop (fun i => compare (2 * i : ℤ) κ) fuel lo' hi' mid = mid := by
      intro lo' hi' h
      cases fuel with
      | zero => rfl
      | succ fuel => simp only [loop, if_neg h]
    rcases hcmp : compare (2 * mid : ℤ) κ with _ | _ | _
    · have hlt := compare_lt_iff_lt.mp hcmp
      by_cases hgap' : 1 < hi - mid
      · obtain ⟨h1, h2, h3, h4⟩ := ih mid hi mid hshrink.2 hgap'
        dsimp only
        exact ⟨by omega, h2, h3, by omega⟩
      · simp only [done hgap']
        omega
    · have heq := compare_eq_iff_eq.mp hcmp
      simp only
      omega
    · have hgt := compare_gt_iff_gt.mp hcmp
      by_cases hgap' : 1 < mid - lo
      · obtain ⟨h1, h2, h3, h4⟩ := ih lo mid mid hshrink.1 hgap'
        dsimp only
        exact ⟨h1, by omega, by omega, h4⟩
      · simp only [done hgap']
        omega

lemma lastProbe_inside {L : ℕ} (κ : ℤ) (hL : 2 ≤ L) :
    0 < lastProbe L κ ∧ lastProbe L κ < L := by
  obtain ⟨h1, h2, -, -⟩ := loop_compare_spec κ L 0 L 0 (by omega) (by omega)
  exact ⟨h1, h2⟩

/-- The last probe is at most one away from a position between the first and the last index. -/
lemma lastProbe_near {L : ℕ} {κ : ℤ} (hL : 2 ≤ L) :
    (κ - 1 ≤ 2 * (lastProbe L κ : ℤ) ∨ lastProbe L κ + 1 = L) ∧
      (2 * (lastProbe L κ : ℤ) ≤ κ + 1 ∨ lastProbe L κ = 1) := by
  obtain ⟨-, -, h3, h4⟩ := loop_compare_spec κ L 0 L 0 (by omega) (by omega)
  rw [← lastProbe] at h3 h4
  omega

/-! ### The first best candidate -/

variable {β : Type*} [LinearOrder β]

/-- Keep the better of what was found so far and a qualifying candidate. -/
def improve (q : ℕ → Prop) [DecidablePred q] (key : ℕ → β) (best : Option ℕ) (i : ℕ) :
    Option ℕ :=
  if q i then
    match best with
    | none => some i
    | some b => if key b < key i then some i else some b
  else best

/-- The qualifying candidate of the largest key, the first of them where several have it. -/
def firstBest (q : ℕ → Prop) [DecidablePred q] (key : ℕ → β) (xs : List ℕ) : Option ℕ :=
  xs.foldl (improve q key) none

variable {q : ℕ → Prop} [DecidablePred q] {key : ℕ → β} {xs : List ℕ}

lemma firstBest_append_singleton (x : ℕ) :
    firstBest q key (xs ++ [x]) = improve q key (firstBest q key xs) x := by
  rw [firstBest, List.foldl_append]
  rfl

/-- What is selected from candidates in increasing order. -/
structure IsFirstBest (q : ℕ → Prop) (key : ℕ → β) (xs : List ℕ) (a : ℕ) : Prop where
  mem : a ∈ xs
  qualifies : q a
  best : ∀ c ∈ xs, q c → key c < key a ∨ (key c = key a ∧ a ≤ c)

omit [DecidablePred q] in
lemma IsFirstBest.unique {a b : ℕ} (ha : IsFirstBest q key xs a) (hb : IsFirstBest q key xs b) :
    a = b := by
  rcases ha.best b hb.mem hb.qualifies with h | ⟨h, hle⟩
  · rcases hb.best a ha.mem ha.qualifies with h' | ⟨h', -⟩
    · exact absurd h h'.asymm
    · exact absurd h' h.ne'
  · rcases hb.best a ha.mem ha.qualifies with h' | ⟨-, hle'⟩
    · exact absurd h h'.ne'
    · exact le_antisymm hle hle'

lemma firstBest_spec (q : ℕ → Prop) [DecidablePred q] (key : ℕ → β)
    (hsorted : xs.Pairwise (· ≤ ·)) :
    (firstBest q key xs = none ∧ ∀ c ∈ xs, ¬ q c) ∨
      ∃ a, firstBest q key xs = some a ∧ IsFirstBest q key xs a := by
  induction xs using List.reverseRecOn with
  | nil => exact Or.inl ⟨rfl, by simp⟩
  | append_singleton xs x ih =>
    obtain ⟨hxs, -, hle⟩ := List.pairwise_append.mp hsorted
    rw [firstBest_append_singleton]
    unfold improve
    rcases ih hxs with ⟨hnone, hno⟩ | ⟨a, hsome, ha⟩
    · rw [hnone]
      split_ifs with hx
      · refine Or.inr ⟨x, rfl, by simp, hx, fun c hc hqc => ?_⟩
        rcases List.mem_append.mp hc with h | h
        · exact absurd hqc (hno c h)
        · rw [List.mem_singleton.mp h]
          exact Or.inr ⟨rfl, le_rfl⟩
      · refine Or.inl ⟨rfl, fun c hc => ?_⟩
        rcases List.mem_append.mp hc with h | h
        · exact hno c h
        · rwa [List.mem_singleton.mp h]
    · rw [hsome]
      have hax : a ≤ x := hle a ha.mem x (by simp)
      by_cases hx : q x
      · rw [if_pos hx]
        by_cases hkey : key a < key x
        · refine Or.inr ⟨x, by simp only [hkey, if_true], by simp, hx, fun c hc hqc => ?_⟩
          rcases List.mem_append.mp hc with h | h
          · rcases ha.best c h hqc with h' | ⟨h', -⟩
            · exact Or.inl (h'.trans hkey)
            · exact Or.inl (h' ▸ hkey)
          · rw [List.mem_singleton.mp h]
            exact Or.inr ⟨rfl, le_rfl⟩
        · refine Or.inr ⟨a, by simp only [hkey, if_false], by simp [ha.mem], ha.qualifies,
            fun c hc hqc => ?_⟩
          rcases List.mem_append.mp hc with h | h
          · exact ha.best c h hqc
          · rw [List.mem_singleton.mp h]
            exact (not_lt.mp hkey).lt_or_eq.imp_right fun h' => ⟨h', hax⟩
      · rw [if_neg hx]
        refine Or.inr ⟨a, rfl, by simp [ha.mem], ha.qualifies, fun c hc hqc => ?_⟩
        rcases List.mem_append.mp hc with h | h
        · exact ha.best c h hqc
        · exact absurd (List.mem_singleton.mp h ▸ hqc) hx

/-- The selection finds nothing exactly when no candidate qualifies. -/
lemma firstBest_eq_none_iff (hsorted : xs.Pairwise (· ≤ ·)) :
    firstBest q key xs = none ↔ ∀ c ∈ xs, ¬ q c := by
  rcases firstBest_spec q key hsorted with ⟨hnone, hno⟩ | ⟨a, hsome, ha⟩
  · exact ⟨fun _ => hno, fun _ => hnone⟩
  · rw [hsome]
    exact ⟨fun h => by simp at h, fun h => absurd ha.qualifies (h a ha.mem)⟩

lemma firstBest_eq_some_iff (hsorted : xs.Pairwise (· ≤ ·)) (a : ℕ) :
    firstBest q key xs = some a ↔ IsFirstBest q key xs a := by
  rcases firstBest_spec q key hsorted with ⟨hnone, hno⟩ | ⟨b, hsome, hb⟩
  · rw [hnone]
    exact ⟨fun h => by simp at h, fun h => absurd h.qualifies (hno a h.mem)⟩
  · rw [hsome]
    refine ⟨fun h => ?_, fun h => ?_⟩
    · rwa [← Option.some.inj h]
    · rw [hb.unique h]

/-- The best qualifying index below `n`, under a preference of one index over another. -/
structure IsBest (q : ℕ → Prop) (better : ℕ → ℕ → Prop) (n a : ℕ) : Prop where
  lt : a < n
  qualifies : q a
  best : ∀ j, j < n → q j → j = a ∨ better a j

/-- The selection from a few candidates agrees with the best of all indices exactly when the
best one is a candidate and no earlier candidate shares its key. -/
lemma firstBest_isBest_iff {better : ℕ → ℕ → Prop} {n a : ℕ} (hsorted : xs.Pairwise (· ≤ ·))
    (hlt : ∀ c ∈ xs, c < n)
    (hkey : ∀ i j, i < n → j < n → q i → q j → better i j → key j ≤ key i)
    (ha : IsBest q better n a) :
    firstBest q key xs = some a ↔ a ∈ xs ∧ ∀ c ∈ xs, c < a → q c → key c ≠ key a := by
  rw [firstBest_eq_some_iff hsorted]
  constructor
  · intro h
    refine ⟨h.mem, fun c hc hca hqc => ?_⟩
    rcases h.best c hc hqc with hlt | ⟨-, hle⟩
    · exact hlt.ne
    · omega
  · rintro ⟨hmem, hfirst⟩
    refine ⟨hmem, ha.qualifies, fun c hc hqc => ?_⟩
    rcases ha.best c (hlt c hc) hqc with rfl | hb
    · exact Or.inr ⟨rfl, le_rfl⟩
    · rcases (hkey a c ha.lt (hlt c hc) ha.qualifies hqc hb).lt_or_eq with hk | hk
      · exact Or.inl hk
      · exact Or.inr ⟨hk, not_lt.mp fun hca => hfirst c hc hca hqc hk⟩

end Bisect
