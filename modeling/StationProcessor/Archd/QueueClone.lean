import StationProcessor.Archd.Clients
import StationProcessor.Archd.QueueRuns

/-!
# Clones of a queue

`prioqueue_clone` adds the elements of a queue to another one from the lowest on, and each of them
gets the time at which it is added. Elements of the same priority are then delivered in the
reverse order, and those that are added within a microsecond are lost.
-/

namespace StationProcessor

variable {α β : Type*}

/-! ### The clone -/

/-- The loop of `prioqueue_clone`, with the data handed to `callback_duplicate`. -/
def cloneInto (duplicate : α → β) (clock : ℕ → Timeval) :
    List (QueueElement α) → Queue β → Queue β × List α
  | [], target => (target, [])
  | element :: elements, target =>
    let (target', duplicated) := cloneInto duplicate (fun i => clock (i + 1)) elements
      (prioqueueAdd target (clock 0) (duplicate element.data) element.priority).1
    (target', if target.capacity = 0 then duplicated else element.data :: duplicated)

/-- `prioqueue_clone` with any callback. -/
def queueClone (duplicate : α → β) (clock : ℕ → Timeval) (source : Queue α) : Queue β × List α :=
  cloneInto duplicate clock source.tree.elements (prioqueueInit source.capacity)

/-- The queue of the records is cloned so. -/
lemma prioqueueClone_snd {n : ℕ} (now : ℕ → Timeval) (records : Memory n) (source : Queue ℕ) :
    (prioqueueClone now records source).2 = (queueClone id now source).1 := by
  have hclone : ∀ (elements : List (QueueElement ℕ)) (now : ℕ → Timeval) (records : Memory n)
      (target : Queue ℕ),
      (cloneElements elements now records target).2 = (cloneInto id now elements target).1 := by
    intro elements
    induction elements with
    | nil =>
      intro now records target
      rfl
    | cons element elements ih =>
      intro now records target
      have hadd : (queueElement records target (now 0) element.data element.priority).2
          = (prioqueueAdd target (now 0) element.data element.priority).1 := by
        unfold queueElement prioqueueAdd
        split_ifs <;> rfl
      rw [cloneElements, ih, hadd]
      rfl
  exact hclone _ _ _ _

/-- A queue holds no more than its size says, and no more than its capacity. -/
structure Queue.Bounded (queue : Queue α) : Prop where
  size : queue.tree.elements.length ≤ queue.size
  capacity : 0 < queue.capacity → queue.tree.elements.length ≤ queue.capacity
  zero : queue.capacity = 0 → queue.tree.elements = []

/-- Removing makes room, as far as there is anything to remove. -/
lemma evict_bounded (capacity : ℤ) (tree : OrderedSet (queueOrder (α := α))) (size : ℤ)
    (h : tree.elements.length ≤ size) {fuel : ℕ} (hfuel : tree.elements.length ≤ fuel) :
    (evict capacity tree size fuel).1.elements.length ≤ (evict capacity tree size fuel).2.1 ∧
      (0 < capacity → (evict capacity tree size fuel).1.elements.length < capacity) := by
  induction fuel generalizing tree size with
  | zero =>
    have hnil : tree.elements.length = 0 := Nat.le_zero.mp hfuel
    exact ⟨h, fun hpos => by rw [evict, hnil]; exact_mod_cast hpos⟩
  | succ fuel ih =>
    unfold evict
    split_ifs with hfull
    · cases hhead : tree.elements.head? with
      | none =>
        have hnil : tree.elements = [] := List.head?_eq_none_iff.mp hhead
        exact ⟨h, fun hpos => by simpa [hnil] using hpos⟩
      | some element =>
        have hlen : tree.elements.length = tree.removeFirst.elements.length + 1 := by
          rw [(OrderedSet.lt_of_head? hhead).1, List.length_cons]
        exact ih tree.removeFirst (size - 1) (by omega) (by omega)
    · exact ⟨h, fun hpos => by dsimp only; omega⟩

lemma Queue.Bounded.run {queue : Queue α} (h : queue.Bounded) (call : QueueCall α) :
    (call.run queue).1.Bounded := by
  cases call with
  | add now data priority =>
    show (prioqueueAdd queue now data priority).1.Bounded
    unfold prioqueueAdd
    split_ifs with hzero
    · exact h
    · obtain ⟨hsize, hroom⟩ :=
        evict_bounded queue.capacity queue.tree queue.size h.size le_rfl
      generalize evict queue.capacity queue.tree queue.size queue.tree.elements.length = r at *
      have hinsert := OrderedSet.length_insert_le ⟨priority, now, data⟩ r.1
      refine ⟨?_, fun hpos => ?_, fun heq => absurd heq hzero⟩
      · show ((r.1.insert _).elements.length : ℤ) ≤ r.2.1 + 1
        omega
      · have hlt := hroom hpos
        show ((r.1.insert _).elements.length : ℤ) ≤ queue.capacity
        omega
  | popHigh =>
    cases hlast : queue.tree.elements.getLast? with
    | none => simpa [QueueCall.run, popResult, prioqueuePopHigh, hlast] using h
    | some e =>
      have hlen := congrArg List.length (OrderedSet.lt_of_getLast? hlast).1
      rw [List.length_append, List.length_singleton] at hlen
      simp only [QueueCall.run, popResult, prioqueuePopHigh, hlast, Option.map_some]
      have hsize := h.size
      refine ⟨by dsimp only; omega, fun hpos => ?_, fun hzero => ?_⟩
      · have hcap := h.capacity hpos
        dsimp only
        omega
      · rw [h.zero hzero] at hlast
        cases hlast
  | popLow =>
    cases hhead : queue.tree.elements.head? with
    | none => simpa [QueueCall.run, popResult, prioqueuePopLow, hhead] using h
    | some e =>
      have hlen := congrArg List.length (OrderedSet.lt_of_head? hhead).1
      rw [List.length_cons] at hlen
      simp only [QueueCall.run, popResult, prioqueuePopLow, hhead, Option.map_some]
      have hsize := h.size
      refine ⟨by dsimp only; omega, fun hpos => ?_, fun hzero => ?_⟩
      · have hcap := h.capacity hpos
        dsimp only
        omega
      · rw [h.zero hzero] at hhead
        cases hhead

section Sorted

variable {duplicate : α → β}

end Sorted

end StationProcessor
