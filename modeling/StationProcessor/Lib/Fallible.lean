import Mathlib.Tactic

/-!
# Computations that may fail

What a `bind` of `Except` does, as equations and as the outcome of its parts.
-/

namespace Fallible

universe u

lemma bind_ok {ε α β : Type*} (a : α) (f : α → Except ε β) : (Except.ok a).bind f = f a := rfl

@[simp] lemma ok_bind {ε : Type*} {β γ : Type u} (x : β) (f : β → Except ε γ) :
    (Except.ok x >>= f) = f x := rfl

@[simp] lemma error_bind {ε : Type*} {β γ : Type u} (e : ε) (f : β → Except ε γ) :
    (Except.error e >>= f) = Except.error e := rfl

/-- Both parts of a sequence that succeeded did. -/
lemma exists_of_bind_ok {ε α β : Type*} {x : Except ε α} {f : α → Except ε β} {b : β}
    (h : x.bind f = .ok b) : ∃ a, x = .ok a ∧ f a = .ok b := by
  cases x with
  | error err => cases h
  | ok a => exact ⟨a, rfl, h⟩

end Fallible
