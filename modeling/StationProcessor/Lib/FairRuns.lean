import Mathlib.Order.Basic
import Mathlib.Data.Nat.Basic
import Mathlib.Tactic.Linarith

/-!
# Runs with fair turns

Threads take their steps in any order, each of them again and again. A rank that no step raises,
and that one thread lowers with its next step, does not stay above the goal.
-/

namespace FairRuns

variable {State Event Thread : Type*}

/-- The state after `n` events. -/
def after (step : State → Event → State) (events : ℕ → Event) (s : State) : ℕ → State
  | 0 => s
  | n + 1 => step (after step events s n) (events n)

/-- Every thread takes a step again and again. -/
def Fair (thread : Event → Thread) (events : ℕ → Event) : Prop :=
  ∀ t n, ∃ m, n ≤ m ∧ thread (events m) = t

/-- Outside the goal no step raises the rank, and the helpful thread lowers it; the helpful thread
stays the same as long as the rank does. -/
structure Progress (step : State → Event → State) (thread : Event → Thread)
    (Inv Goal : State → Prop) (rank : State → ℕ) (helpful : State → Thread) : Prop where
  le : ∀ s e, Inv s → Inv (step s e) → ¬ Goal s → rank (step s e) ≤ rank s
  lt : ∀ s e, Inv s → Inv (step s e) → ¬ Goal s → thread e = helpful s →
    rank (step s e) < rank s
  stays : ∀ s e, Inv s → Inv (step s e) → ¬ Goal s → rank (step s e) = rank s →
    helpful (step s e) = helpful s

variable {step : State → Event → State} {thread : Event → Thread} {Inv Goal : State → Prop}
  {rank : State → ℕ} {helpful : State → Thread} {events : ℕ → Event} {s : State}

/-- Until the rank is lower, the helpful thread does not change. -/
lemma Progress.waits (h : Progress step thread Inv Goal rank helpful)
    (hinv : ∀ n, Inv (after step events s n)) (hgoal : ∀ n, ¬ Goal (after step events s n))
    (n k : ℕ) : rank (after step events s (n + k)) < rank (after step events s n) ∨
      rank (after step events s (n + k)) = rank (after step events s n) ∧
        helpful (after step events s (n + k)) = helpful (after step events s n) := by
  induction k with
  | zero => exact Or.inr ⟨rfl, rfl⟩
  | succ k ih =>
    have hle := h.le _ (events (n + k)) (hinv (n + k)) (hinv (n + k + 1)) (hgoal (n + k))
    rcases ih with hlt | ⟨heq, hsame⟩
    · exact Or.inl (hle.trans_lt hlt)
    · rcases hle.lt_or_eq with hlt | hstep
      · exact Or.inl (hlt.trans_eq heq)
      · exact Or.inr ⟨hstep.trans heq,
          (h.stays _ _ (hinv (n + k)) (hinv (n + k + 1)) (hgoal (n + k)) hstep).trans hsame⟩

/-- A fair run reaches the goal. -/
theorem Progress.reaches (h : Progress step thread Inv Goal rank helpful)
    (hfair : Fair thread events) (hinv : ∀ n, Inv (after step events s n)) :
    ∃ n, Goal (after step events s n) := by
  by_contra hnever
  have hgoal : ∀ n, ¬ Goal (after step events s n) := fun n hn => hnever ⟨n, hn⟩
  have hlower : ∀ n, ∃ m, rank (after step events s m) < rank (after step events s n) := by
    intro n
    obtain ⟨m, hm, hthread⟩ := hfair (helpful (after step events s n)) n
    obtain ⟨k, rfl⟩ := Nat.exists_eq_add_of_le hm
    rcases h.waits hinv hgoal n k with hlt | ⟨heq, hsame⟩
    · exact ⟨n + k, hlt⟩
    · refine ⟨n + k + 1, ?_⟩
      rw [← heq]
      exact h.lt _ _ (hinv (n + k)) (hinv (n + k + 1)) (hgoal (n + k)) (hthread.trans hsame.symm)
  have hnone : ∀ r n, rank (after step events s n) ≠ r := by
    intro r
    induction r using Nat.strong_induction_on with
    | _ r ih =>
      intro n hn
      obtain ⟨m, hm⟩ := hlower n
      exact ih _ (hn ▸ hm) m rfl
  exact hnone _ 0 rfl

end FairRuns
