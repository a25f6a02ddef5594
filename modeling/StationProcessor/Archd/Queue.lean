import StationProcessor.Lib.OrderedSet
import StationProcessor.Diskloop.Context

/-!
# The priority queue

`lib/prioqueue.c`: an AVL tree of elements ordered by priority and, within one priority, by the
clock reading at which they were added, the latest lowest. The tree is its ordered set of
elements. Differences of two priorities and of two clock readings fit the `int` the comparison
returns.
-/

namespace StationProcessor

open scoped List

/-- `queue_element_t`. -/
structure QueueElement (α : Type*) where
  priority : ℤ
  timeReceived : Timeval
  data : α

variable {α : Type*}

/-- `_queue_element_compare`. -/
def queueElementCompare (a b : QueueElement α) : ℤ :=
  if a.priority ≠ b.priority then a.priority - b.priority
  else if a.timeReceived.sec ≠ b.timeReceived.sec then b.timeReceived.sec - a.timeReceived.sec
  else b.timeReceived.usec - a.timeReceived.usec

lemma queueElementCompare_neg_iff (a b : QueueElement α) :
    queueElementCompare a b < 0 ↔ a.priority < b.priority ∨
      a.priority = b.priority ∧ (b.timeReceived.sec < a.timeReceived.sec ∨
        b.timeReceived.sec = a.timeReceived.sec ∧ b.timeReceived.usec < a.timeReceived.usec) := by
  unfold queueElementCompare
  split_ifs <;> omega

lemma queueElementCompare_pos_iff (a b : QueueElement α) :
    0 < queueElementCompare b a ↔ queueElementCompare a b < 0 := by
  rw [queueElementCompare_neg_iff]
  unfold queueElementCompare
  split_ifs <;> omega

lemma queueElementCompare_eq_zero_iff (a b : QueueElement α) :
    queueElementCompare a b = 0 ↔ a.priority = b.priority ∧ a.timeReceived = b.timeReceived := by
  have htime : a.timeReceived = b.timeReceived ↔ a.timeReceived.sec = b.timeReceived.sec ∧
      a.timeReceived.usec = b.timeReceived.usec := by
    cases a.timeReceived
    cases b.timeReceived
    exact Timeval.mk.injEq _ _ _ _ ▸ Iff.rfl
  unfold queueElementCompare
  rw [htime]
  split_ifs <;> omega

/-- The order of the tree of a queue. -/
def queueOrder : Comparator (QueueElement α) where
  cmp := queueElementCompare
  swap a b := (queueElementCompare_pos_iff a b).symm
  trans a b c hab hbc := by
    rw [queueElementCompare_neg_iff] at *
    omega

/-- `queue_t`; a negative capacity stands for an unbounded queue. -/
structure Queue (α : Type*) where
  tree : OrderedSet (queueOrder (α := α))
  capacity : ℤ
  size : ℤ

/-- `prioqueue_init`. -/
def prioqueueInit (capacity : ℤ) : Queue α := ⟨OrderedSet.empty, capacity, 0⟩

/-- Remove lowest elements until there is room, with the data handed to `callback_deallocate`.
The size counts also additions the tree ignored; where the tree runs empty first, the source
would remove a null node. -/
def evict (capacity : ℤ) (tree : OrderedSet (queueOrder (α := α))) (size : ℤ) :
    ℕ → OrderedSet (queueOrder (α := α)) × ℤ × List α
  | 0 => (tree, size, [])
  | fuel + 1 =>
    if capacity > 0 ∧ size ≥ capacity then
      match tree.elements.head? with
      | none => (tree, size, [])
      | some element =>
        let (tree, size, dropped) := evict capacity tree.removeFirst (size - 1) fuel
        (tree, size, element.data :: dropped)
    else (tree, size, [])

/-- `prioqueue_add` at the clock reading `now`, with what it dropped. The size grows also where
the tree has an element of the same priority and time and ignores the new one. -/
def prioqueueAdd (queue : Queue α) (now : Timeval) (data : α) (priority : ℤ) :
    Queue α × List α :=
  if queue.capacity = 0 then (queue, [])
  else
    let (tree, size, dropped) :=
      evict queue.capacity queue.tree queue.size queue.tree.elements.length
    ({ queue with tree := tree.insert ⟨priority, now, data⟩, size := size + 1 }, dropped)

/-- `prioqueue_peek_high`. -/
def prioqueuePeekHigh (queue : Queue α) : Option α :=
  queue.tree.elements.getLast?.map QueueElement.data

/-- `prioqueue_pop_high`. -/
def prioqueuePopHigh (queue : Queue α) : Option (α × Queue α) :=
  queue.tree.elements.getLast?.map fun element =>
    (element.data, { queue with tree := queue.tree.removeLast, size := queue.size - 1 })

/-- `prioqueue_pop_low`. -/
def prioqueuePopLow (queue : Queue α) : Option (α × Queue α) :=
  queue.tree.elements.head?.map fun element =>
    (element.data, { queue with tree := queue.tree.removeFirst, size := queue.size - 1 })

/-- `prioqueue_empty`. -/
def prioqueueEmpty (queue : Queue α) : Bool := queue.size = 0

/-- `prioqueue_full`. -/
def prioqueueFull (queue : Queue α) : Bool := queue.capacity > -1 ∧ queue.size ≥ queue.capacity

/-! ### The order of delivery -/

/-- The data in the order `prioqueue_pop_high` delivers it. -/
def Queue.fifo (queue : Queue α) : List α := queue.tree.descending.map QueueElement.data

/-- An element of this priority and time is below every element of the queue. -/
def Queue.BelowAll (queue : Queue α) (priority : ℤ) (now : Timeval) : Prop :=
  ∀ e ∈ queue.tree.elements, e.priority > priority ∨
    e.priority = priority ∧ (e.timeReceived.sec < now.sec ∨
      e.timeReceived.sec = now.sec ∧ e.timeReceived.usec < now.usec)

instance (queue : Queue α) (priority : ℤ) (now : Timeval) :
    Decidable (queue.BelowAll priority now) :=
  inferInstanceAs (Decidable (∀ e ∈ queue.tree.elements, _))

/-- Nothing is removed while there is room. -/
lemma evict_of_room {capacity size : ℤ} (h : ¬(capacity > 0 ∧ size ≥ capacity))
    (tree : OrderedSet (queueOrder (α := α))) (fuel : ℕ) :
    evict capacity tree size fuel = (tree, size, []) := by
  cases fuel with
  | zero => rfl
  | succ fuel => rw [evict, if_neg h]

/-- Adding while there is room. -/
lemma prioqueueAdd_of_room {queue : Queue α} (hzero : queue.capacity ≠ 0)
    (h : ¬(queue.capacity > 0 ∧ queue.size ≥ queue.capacity)) (now : Timeval) (data : α)
    (priority : ℤ) : prioqueueAdd queue now data priority
      = ({ queue with tree := queue.tree.insert ⟨priority, now, data⟩, size := queue.size + 1 },
          []) := by
  rw [prioqueueAdd, if_neg hzero, evict_of_room h]

/-- An element below all of a queue comes first in its tree. -/
lemma Queue.BelowAll.compare_neg {queue : Queue α} {priority : ℤ} {now : Timeval}
    (h : queue.BelowAll priority now) (data : α) :
    ∀ e ∈ queue.tree.elements, queueOrder.cmp ⟨priority, now, data⟩ e < 0 := by
  intro e he
  refine (queueElementCompare_neg_iff _ _).mpr ?_
  rcases h e he with hp | ⟨hp, ht⟩
  · exact Or.inl hp
  · exact Or.inr ⟨hp.symm, ht⟩

/-- On an unbounded queue an element below all others is delivered last. -/
lemma fifo_prioqueueAdd {queue : Queue α} (hcap : queue.capacity < 0) {priority : ℤ}
    {now : Timeval} (h : queue.BelowAll priority now) (data : α) :
    (prioqueueAdd queue now data priority).1.fifo = queue.fifo ++ [data] := by
  rw [prioqueueAdd_of_room hcap.ne (by omega)]
  show ((queue.tree.insert ⟨priority, now, data⟩).descending).map QueueElement.data = _
  rw [OrderedSet.descending_insert_of_below (h.compare_neg data), List.map_append]
  rfl

@[simp] lemma capacity_prioqueueAdd (queue : Queue α) (now : Timeval) (data : α) (priority : ℤ) :
    (prioqueueAdd queue now data priority).1.capacity = queue.capacity := by
  unfold prioqueueAdd
  split_ifs <;> rfl

lemma mem_fifo_iff {queue : Queue α} {x : α} :
    x ∈ queue.fifo ↔ ∃ e ∈ queue.tree.elements, e.data = x := by
  rw [Queue.fifo, List.mem_map]
  simp only [OrderedSet.descending, List.mem_reverse]

lemma evict_subset {capacity : ℤ} {tree : OrderedSet (queueOrder (α := α))} {size : ℤ} {fuel : ℕ}
    {e : QueueElement α} (h : e ∈ (evict capacity tree size fuel).1.elements) :
    e ∈ tree.elements := by
  induction fuel generalizing tree size with
  | zero => exact h
  | succ fuel ih =>
    unfold evict at h
    split_ifs at h
    · split at h
      · exact h
      · exact List.mem_of_mem_tail (ih h)
    · exact h

/-- What is removed comes first in the tree. -/
lemma evict_data (capacity : ℤ) (tree : OrderedSet (queueOrder (α := α))) (size : ℤ) (fuel : ℕ) :
    (evict capacity tree size fuel).2.2
      ++ (evict capacity tree size fuel).1.elements.map QueueElement.data
      = tree.elements.map QueueElement.data := by
  induction fuel generalizing tree size with
  | zero => rfl
  | succ fuel ih =>
    unfold evict
    split_ifs
    · cases hhead : tree.elements.head? with
      | none => rfl
      | some element =>
        rw [(OrderedSet.lt_of_head? hhead).1, List.map_cons, ← ih tree.removeFirst (size - 1)]
        rfl
    · rfl

/-- No element of the queue has this priority and time. -/
def Queue.Apart (queue : Queue α) (priority : ℤ) (now : Timeval) : Prop :=
  ∀ e ∈ queue.tree.elements, ¬(e.priority = priority ∧ e.timeReceived = now)

/-- Adding drops some of a queue and adds the new element to the rest. -/
lemma exists_prioqueueAdd_rest {queue : Queue α} (hcap : queue.capacity ≠ 0) {priority : ℤ}
    {now : Timeval} (h : queue.Apart priority now) (data : α) :
    ∃ rest, ((prioqueueAdd queue now data priority).2 ++ rest) ~ queue.fifo ∧
      (prioqueueAdd queue now data priority).1.fifo ~ data :: rest := by
  have hdata := evict_data queue.capacity queue.tree queue.size queue.tree.elements.length
  have hsub : ∀ e ∈ (evict queue.capacity queue.tree queue.size
      queue.tree.elements.length).1.elements, queueOrder.cmp e ⟨priority, now, data⟩ ≠ 0 := by
    intro e he heq
    exact h e (evict_subset he) ((queueElementCompare_eq_zero_iff _ _).mp heq)
  unfold prioqueueAdd
  rw [if_neg hcap]
  generalize evict queue.capacity queue.tree queue.size queue.tree.elements.length = r at *
  have hfifo : ∀ s : OrderedSet (queueOrder (α := α)),
      s.descending.map QueueElement.data ~ s.elements.map QueueElement.data := fun s =>
    (List.reverse_perm s.elements).map QueueElement.data
  refine ⟨r.1.elements.map QueueElement.data, ?_, ?_⟩
  · show r.2.2 ++ _ ~ _
    rw [hdata]
    exact (hfifo queue.tree).symm
  · exact (hfifo _).trans ((OrderedSet.elements_insert_perm hsub).map QueueElement.data)

/-- Adding brings nothing but the new element into a queue. -/
lemma mem_fifo_prioqueueAdd {queue : Queue α} {now : Timeval} {data : α} {priority : ℤ} {x : α}
    (h : x ∈ (prioqueueAdd queue now data priority).1.fifo) : x = data ∨ x ∈ queue.fifo := by
  unfold prioqueueAdd at h
  split_ifs at h
  · exact Or.inr h
  · obtain ⟨e, he, rfl⟩ := mem_fifo_iff.mp h
    rcases OrderedSet.mem_insertInto he with rfl | he
    · exact Or.inl rfl
    · exact Or.inr (mem_fifo_iff.mpr ⟨e, evict_subset he, rfl⟩)

lemma fifo_of_popHigh {queue queue' : Queue α} {data : α}
    (h : prioqueuePopHigh queue = some (data, queue')) : queue.fifo = data :: queue'.fifo := by
  unfold prioqueuePopHigh at h
  obtain ⟨e, he, heq⟩ := Option.map_eq_some_iff.mp h
  obtain ⟨rfl, rfl⟩ := Prod.mk.inj heq
  rw [Queue.fifo, OrderedSet.descending_of_getLast? he, List.map_cons, Queue.fifo]

lemma peekHigh_eq (queue : Queue α) : prioqueuePeekHigh queue = queue.fifo.head? := by
  unfold prioqueuePeekHigh Queue.fifo OrderedSet.descending
  rw [List.head?_map, List.head?_reverse]

lemma capacity_of_popHigh {queue queue' : Queue α} {data : α}
    (h : prioqueuePopHigh queue = some (data, queue')) : queue'.capacity = queue.capacity := by
  unfold prioqueuePopHigh at h
  obtain ⟨e, -, heq⟩ := Option.map_eq_some_iff.mp h
  rw [← (Prod.mk.inj heq).2]

end StationProcessor
