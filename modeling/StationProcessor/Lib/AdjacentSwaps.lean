import Mathlib.Data.List.Chain
import Mathlib.Data.List.Perm.Basic
import Mathlib.Tactic

/-!
# Sorting by swaps of neighbours

The inversions of a list under a key are its pairs in the wrong order. Swapping two neighbours in
the wrong order removes one of them, so a sort that does nothing else comes to an end; and without
such neighbours the list is sorted.
-/

namespace AdjacentSwaps

variable {α κ : Type*} [LinearOrder κ] (key : α → κ)

/-- How many pairs of the list are in the wrong order. -/
def inversions : List α → ℕ
  | [] => 0
  | a :: l => l.countP (fun b => key b < key a) + inversions l

variable {key} {a b : α}

lemma inversions_swap (l r : List α) (h : key b < key a) :
    inversions key (l ++ b :: a :: r) + 1 = inversions key (l ++ a :: b :: r) := by
  induction l with
  | nil =>
    have hnot : ¬ key a < key b := h.le.not_gt
    simp only [List.nil_append, inversions, List.countP_cons, h, hnot, decide_true, decide_false,
      if_true, Bool.false_eq_true, if_false]
    ring
  | cons c l ih =>
    have hperm : (l ++ b :: a :: r).Perm (l ++ a :: b :: r) :=
      (List.Perm.swap a b r).append_left l
    simp only [List.cons_append, inversions, hperm.countP_eq, ← ih]
    ring

/-- Without neighbours in the wrong order no pair is in the wrong order. -/
lemma pairwise_of_isChain {l : List α} (h : l.IsChain (fun a b => key a ≤ key b)) :
    l.Pairwise (fun a b => key a ≤ key b) :=
  haveI : Trans (fun a b => key a ≤ key b) (fun a b => key a ≤ key b) (fun a b => key a ≤ key b) :=
    ⟨le_trans⟩
  List.isChain_iff_pairwise.mp h

end AdjacentSwaps
