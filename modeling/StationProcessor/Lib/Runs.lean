import Mathlib.Data.List.Chain
import Mathlib.Tactic

/-!
# Splitting a list into runs

The runs of a list under a relation between neighbours: a new run starts exactly where two
neighbours are not related. A list that grows at its end either extends its last run or starts
one.
-/

namespace Runs

variable {α : Type*} {R : α → α → Prop}

/-- The lists of `runs` are the runs of `xs`. -/
structure IsSplit (R : α → α → Prop) (xs : List α) (runs : List (List α)) : Prop where
  flatten : runs.flatten = xs
  ne_nil : ∀ run ∈ runs, run ≠ []
  joined : ∀ run ∈ runs, run.IsChain R
  apart : runs.IsChain fun run next => ∀ x ∈ run.getLast?, ∀ y ∈ next.head?, ¬ R x y

lemma IsSplit.singleton (x : α) : IsSplit R [x] [[x]] where
  flatten := rfl
  ne_nil := by simp
  joined := by simp
  apart := by simp

variable {xs run : List α} {runs : List (List α)} {x : α}

/-- A related element extends the last run. -/
lemma IsSplit.extend (h : IsSplit R xs (runs ++ [run])) (hx : ∀ y ∈ run.getLast?, R y x) :
    IsSplit R (xs ++ [x]) (runs ++ [run ++ [x]]) := by
  have hne : run ≠ [] := h.ne_nil run (by simp)
  refine ⟨?_, ?_, ?_, ?_⟩
  · rw [← h.flatten]
    simp
  · intro r hr
    rcases List.mem_append.mp hr with hr | hr
    · exact h.ne_nil r (List.mem_append_left _ hr)
    · rw [List.mem_singleton.mp hr]
      simp
  · intro r hr
    rcases List.mem_append.mp hr with hr | hr
    · exact h.joined r (List.mem_append_left _ hr)
    · rw [List.mem_singleton.mp hr, List.isChain_append]
      refine ⟨h.joined run (by simp), by simp, fun y hy z hz => ?_⟩
      obtain rfl : x = z := by simpa using hz
      exact hx y hy
  · have happart := h.apart
    rw [List.isChain_append] at happart ⊢
    refine ⟨happart.1, by simp, fun r hr s hs => ?_⟩
    obtain rfl : run ++ [x] = s := by simpa using hs
    intro y hy z hz
    refine happart.2.2 r hr run (by simp) y hy z ?_
    rwa [List.head?_append_of_ne_nil _ hne] at hz

/-- An element that is not related starts a run. -/
lemma IsSplit.start (h : IsSplit R xs (runs ++ [run])) (hx : ∀ y ∈ run.getLast?, ¬ R y x) :
    IsSplit R (xs ++ [x]) (runs ++ [run] ++ [[x]]) := by
  refine ⟨?_, ?_, ?_, ?_⟩
  · rw [List.flatten_append, h.flatten]
    rfl
  · intro r hr
    rcases List.mem_append.mp hr with hr | hr
    · exact h.ne_nil r hr
    · rw [List.mem_singleton.mp hr]
      simp
  · intro r hr
    rcases List.mem_append.mp hr with hr | hr
    · exact h.joined r hr
    · rw [List.mem_singleton.mp hr]
      simp
  · rw [List.isChain_append]
    refine ⟨h.apart, by simp, fun r hr s hs => ?_⟩
    obtain rfl : run = r := by simpa using hr
    obtain rfl : [x] = s := by simpa using hs
    intro y hy z hz
    obtain rfl : x = z := by simpa using hz
    exact hx y hy

/-- The first run starts with the first element. -/
lemma IsSplit.head_head (h : IsSplit R xs (run :: runs)) : run.head? = xs.head? := by
  rw [← h.flatten, List.flatten_cons,
    List.head?_append_of_ne_nil _ (h.ne_nil run List.mem_cons_self)]

end Runs
