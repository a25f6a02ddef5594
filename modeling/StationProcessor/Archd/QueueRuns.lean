import Mathlib.Data.List.Perm.Basic
import StationProcessor.Archd.Queue

/-!
# Runs of the priority queue

What a queue should do over a sequence of calls, stated on the elements that wait in the order in
which they were added, and the runs on which `lib/prioqueue.c` does it. Then what a full queue
keeps.
-/

namespace StationProcessor

variable {α : Type*}

/-! ### Calls -/

inductive QueueCall (α : Type*)
  | add (now : Timeval) (data : α) (priority : ℤ)
  | popHigh
  | popLow

/-- The result of a pop, with the queue it leaves. -/
def popResult (queue : Queue α) : Option (α × Queue α) → Queue α × Option α
  | none => (queue, none)
  | some (data, queue) => (queue, some data)

def QueueCall.run (queue : Queue α) : QueueCall α → Queue α × Option α
  | .add now data priority => ((prioqueueAdd queue now data priority).1, none)
  | .popHigh => popResult queue (prioqueuePopHigh queue)
  | .popLow => popResult queue (prioqueuePopLow queue)

def Timeval.before (s t : Timeval) : Prop := s.sec < t.sec ∨ s.sec = t.sec ∧ s.usec < t.usec

def Timeval.notAfter (s t : Timeval) : Prop := s.sec < t.sec ∨ s.sec = t.sec ∧ s.usec ≤ t.usec

instance : DecidableRel Timeval.before := fun _ _ => inferInstanceAs (Decidable (_ ∨ _))

instance : DecidableRel Timeval.notAfter := fun _ _ => inferInstanceAs (Decidable (_ ∨ _))

/-! ### What a queue should do -/

/-- A call on the elements that wait, each with its priority, in the order they were added: what
it returns and who waits then. A high pop takes the first of the highest priority, a low pop the
last of the lowest. -/
inductive Expected : List (ℤ × α) → QueueCall α → Option α → List (ℤ × α) → Prop
  | add (waiting : List (ℤ × α)) (now : Timeval) (data : α) (priority : ℤ) :
      Expected waiting (.add now data priority) none (waiting ++ [(priority, data)])
  | popHigh {earlier later : List (ℤ × α)} {x : ℤ × α} (hearlier : ∀ y ∈ earlier, y.1 < x.1)
      (hlater : ∀ y ∈ later, y.1 ≤ x.1) :
      Expected (earlier ++ x :: later) .popHigh (some x.2) (earlier ++ later)
  | popLow {earlier later : List (ℤ × α)} {x : ℤ × α} (hearlier : ∀ y ∈ earlier, x.1 ≤ y.1)
      (hlater : ∀ y ∈ later, x.1 < y.1) :
      Expected (earlier ++ x :: later) .popLow (some x.2) (earlier ++ later)
  | popHighEmpty : Expected [] .popHigh none []
  | popLowEmpty : Expected [] .popLow none []

/-- The priority and the data of an element. -/
def QueueElement.entry (e : QueueElement α) : ℤ × α := (e.priority, e.data)

/-- The queue holds exactly these elements, and its size is their number. -/
structure Queue.Holds (queue : Queue α) (waiting : List (ℤ × α)) : Prop where
  entries : (queue.tree.elements.map QueueElement.entry).Perm waiting
  size : queue.size = waiting.length

/-- Before and after every call the queue holds what was added and not popped, and every pop
returns what it should. -/
def Lossless : List (ℤ × α) → Queue α → List (QueueCall α) → Prop
  | waiting, queue, [] => queue.Holds waiting
  | waiting, queue, call :: calls => queue.Holds waiting ∧
      ∃ waiting', Expected waiting call (call.run queue).2 waiting' ∧
        Lossless waiting' (call.run queue).1 calls

lemma Lossless.holds {waiting : List (ℤ × α)} {queue : Queue α} {calls : List (QueueCall α)}
    (h : Lossless waiting queue calls) : queue.Holds waiting := by
  cases calls with
  | nil => exact h
  | cons call calls => exact h.1

/-- What is added has another priority or another time than each element of the queue. -/
def QueueCall.Apart (queue : Queue α) : QueueCall α → Prop
  | .add now _ priority =>
      ∀ e ∈ queue.tree.elements, ¬(e.priority = priority ∧ e.timeReceived = now)
  | .popHigh => True
  | .popLow => True

instance (queue : Queue α) : DecidablePred (QueueCall.Apart queue)
  | .add _ _ _ => inferInstanceAs (Decidable (∀ e ∈ queue.tree.elements, _))
  | .popHigh => isTrue trivial
  | .popLow => isTrue trivial

def KeysApart : Queue α → List (QueueCall α) → Prop
  | _, [] => True
  | queue, call :: calls => call.Apart queue ∧ KeysApart (call.run queue).1 calls

instance KeysApart.decidable : ∀ (queue : Queue α) calls, Decidable (KeysApart queue calls)
  | _, [] => isTrue trivial
  | queue, call :: calls =>
    have := KeysApart.decidable (call.run queue).1 calls
    inferInstanceAs (Decidable (_ ∧ _))

/-! ### One call -/

/-- The queue stores these elements, which were added in this order. -/
structure Stores (queue : Queue α) (stamped : List (QueueElement α)) : Prop where
  perm : queue.tree.elements.Perm stamped
  size : queue.size = stamped.length
  inOrder : stamped.Pairwise fun a b => a.timeReceived.notAfter b.timeReceived

lemma Stores.holds {queue : Queue α} {stamped : List (QueueElement α)} (h : Stores queue stamped) :
    queue.Holds (stamped.map QueueElement.entry) where
  entries := h.perm.map _
  size := by rw [h.size, List.length_map]

/-- Taking one element out of a list that is a rearrangement of the elements. -/
lemma exists_taken {stamped rest : List (QueueElement α)} {e : QueueElement α}
    (h : (e :: rest).Perm stamped) :
    ∃ earlier later, stamped = earlier ++ e :: later ∧ rest.Perm (earlier ++ later) := by
  obtain ⟨earlier, later, rfl⟩ := List.append_of_mem (h.mem_iff.mp List.mem_cons_self)
  exact ⟨earlier, later, rfl, (h.trans List.perm_middle).cons_inv⟩

/-- The other elements stay in order where one is taken out. -/
lemma Stores.taken {queue : Queue α} {earlier later : List (QueueElement α)}
    {e : QueueElement α} (h : Stores queue (earlier ++ e :: later)) {queue' : Queue α}
    (hperm : queue'.tree.elements.Perm (earlier ++ later)) (hsize : queue'.size = queue.size - 1) :
    Stores queue' (earlier ++ later) where
  perm := hperm
  size := by
    rw [hsize, h.size]
    simp only [List.length_append, List.length_cons]
    push_cast
    ring
  inOrder := h.inOrder.sublist ((List.sublist_cons_self e later).append_left earlier)

/-- Within a priority the earlier element is above the later one. -/
lemma not_compare_neg_of_notAfter {a b : QueueElement α} (hpriority : a.priority = b.priority)
    (htime : a.timeReceived.notAfter b.timeReceived) : ¬queueElementCompare a b < 0 := by
  rw [queueElementCompare_neg_iff]
  unfold Timeval.notAfter at htime
  omega

lemma priority_le_of_compare_neg {a b : QueueElement α} (h : queueElementCompare a b < 0) :
    a.priority ≤ b.priority := by
  rw [queueElementCompare_neg_iff] at h
  omega

/-- An element that is added apart from the others is stored after them. -/
lemma Stores.add {queue : Queue α} {stamped : List (QueueElement α)} (h : Stores queue stamped)
    (hcap : queue.capacity < 0) {now : Timeval} {data : α} {priority : ℤ}
    (hapart : (QueueCall.add now data priority).Apart queue)
    (hlast : ∀ e ∈ stamped, e.timeReceived.notAfter now) :
    Stores (prioqueueAdd queue now data priority).1 (stamped ++ [⟨priority, now, data⟩]) := by
  rw [prioqueueAdd_of_room hcap.ne (by omega)]
  have hne : ∀ e ∈ queue.tree.elements, queueOrder.cmp e ⟨priority, now, data⟩ ≠ 0 :=
    fun e he hzero => hapart e he ((queueElementCompare_eq_zero_iff e _).mp hzero)
  refine ⟨?_, ?_, ?_⟩
  · exact (OrderedSet.elements_insert_perm hne).trans
      ((h.perm.cons _).trans (List.perm_append_singleton _ _).symm)
  · simp [h.size]
  · refine List.pairwise_append.mpr ⟨h.inOrder, List.pairwise_singleton _ _, fun e he x hx => ?_⟩
    rw [List.mem_singleton.mp hx]
    exact hlast e he

/-- A high pop takes the element above the others, which is the first of its priority. -/
lemma Stores.popHigh {queue : Queue α} {stamped : List (QueueElement α)}
    (h : Stores queue stamped) : ∃ stamped', Stores (QueueCall.popHigh.run queue).1 stamped' ∧
      Expected (stamped.map QueueElement.entry) .popHigh (QueueCall.popHigh.run queue).2
        (stamped'.map QueueElement.entry) ∧ stamped'.Sublist stamped := by
  cases hlast : queue.tree.elements.getLast? with
  | none =>
    have hrun : QueueCall.popHigh.run queue = (queue, none) := by
      simp [QueueCall.run, prioqueuePopHigh, hlast, popResult]
    have hnil : stamped = [] := by
      have := h.perm
      rw [List.getLast?_eq_none_iff.mp hlast] at this
      exact this.nil_eq.symm
    subst hnil
    rw [hrun]
    exact ⟨[], h, .popHighEmpty, List.Sublist.refl _⟩
  | some e =>
    obtain ⟨hsplit, hbelow⟩ := OrderedSet.lt_of_getLast? hlast
    have hperm : (e :: queue.tree.removeLast.elements).Perm stamped := by
      refine List.Perm.trans ?_ h.perm
      rw [hsplit]
      exact (List.perm_append_singleton _ _).symm
    obtain ⟨earlier, later, rfl, hrest⟩ := exists_taken hperm
    have hrun : QueueCall.popHigh.run queue
        = ({ queue with tree := queue.tree.removeLast, size := queue.size - 1 }, some e.data) := by
      simp [QueueCall.run, prioqueuePopHigh, hlast, popResult]
    have hlower : ∀ y ∈ earlier ++ later, queueElementCompare y e < 0 :=
      fun y hy => hbelow y (hrest.mem_iff.mpr hy)
    rw [hrun, List.map_append, List.map_cons]
    refine ⟨earlier ++ later, h.taken hrest rfl, ?_,
      (List.sublist_cons_self e later).append_left earlier⟩
    rw [List.map_append]
    apply Expected.popHigh
    · -- an earlier one of the same priority would be above
      intro y hy
      obtain ⟨a, ha, rfl⟩ := List.mem_map.mp hy
      have hneg := hlower a (List.mem_append_left later ha)
      have hbefore : a.timeReceived.notAfter e.timeReceived :=
        (List.pairwise_append.mp h.inOrder).2.2 a ha e List.mem_cons_self
      refine lt_of_le_of_ne (priority_le_of_compare_neg hneg) fun heq => ?_
      exact not_compare_neg_of_notAfter heq hbefore hneg
    · intro y hy
      obtain ⟨a, ha, rfl⟩ := List.mem_map.mp hy
      exact priority_le_of_compare_neg (hlower a (List.mem_append_right earlier ha))

/-- A low pop takes the element below the others, which is the last of its priority. -/
lemma Stores.popLow {queue : Queue α} {stamped : List (QueueElement α)}
    (h : Stores queue stamped) : ∃ stamped', Stores (QueueCall.popLow.run queue).1 stamped' ∧
      Expected (stamped.map QueueElement.entry) .popLow (QueueCall.popLow.run queue).2
        (stamped'.map QueueElement.entry) ∧ stamped'.Sublist stamped := by
  cases hfirst : queue.tree.elements.head? with
  | none =>
    have hrun : QueueCall.popLow.run queue = (queue, none) := by
      simp [QueueCall.run, prioqueuePopLow, hfirst, popResult]
    have hnil : stamped = [] := by
      have := h.perm
      rw [List.head?_eq_none_iff.mp hfirst] at this
      exact this.nil_eq.symm
    subst hnil
    rw [hrun]
    exact ⟨[], h, .popLowEmpty, List.Sublist.refl _⟩
  | some e =>
    obtain ⟨hsplit, habove⟩ := OrderedSet.lt_of_head? hfirst
    have hperm : (e :: queue.tree.removeFirst.elements).Perm stamped := by
      rw [← hsplit]
      exact h.perm
    obtain ⟨earlier, later, rfl, hrest⟩ := exists_taken hperm
    have hrun : QueueCall.popLow.run queue
        = ({ queue with tree := queue.tree.removeFirst, size := queue.size - 1 },
            some e.data) := by
      simp [QueueCall.run, prioqueuePopLow, hfirst, popResult]
    have hupper : ∀ y ∈ earlier ++ later, queueElementCompare e y < 0 :=
      fun y hy => habove y (hrest.mem_iff.mpr hy)
    rw [hrun, List.map_append, List.map_cons]
    refine ⟨earlier ++ later, h.taken hrest rfl, ?_,
      (List.sublist_cons_self e later).append_left earlier⟩
    rw [List.map_append]
    apply Expected.popLow
    · intro y hy
      obtain ⟨a, ha, rfl⟩ := List.mem_map.mp hy
      exact priority_le_of_compare_neg (hupper a (List.mem_append_left later ha))
    · -- a later one of the same priority would be below
      intro y hy
      obtain ⟨a, ha, rfl⟩ := List.mem_map.mp hy
      have hneg := hupper a (List.mem_append_right earlier ha)
      have hafter : e.timeReceived.notAfter a.timeReceived :=
        (List.pairwise_cons.mp (List.pairwise_append.mp h.inOrder).2.1).1 a ha
      refine lt_of_le_of_ne (priority_le_of_compare_neg hneg) fun heq => ?_
      exact not_compare_neg_of_notAfter heq hafter hneg

/-! ### Runs -/

/-- Add these elements one after the other, with what is dropped on the way. -/
def addAll (queue : Queue α) : List (QueueElement α) → Queue α × List α
  | [] => (queue, [])
  | e :: es =>
    let (queue, dropped) := prioqueueAdd queue e.timeReceived e.data e.priority
    let (queue, dropped') := addAll queue es
    (queue, dropped ++ dropped')

lemma addAll_append (queue : Queue α) (es fs : List (QueueElement α)) :
    addAll queue (es ++ fs) = ((addAll (addAll queue es).1 fs).1,
      (addAll queue es).2 ++ (addAll (addAll queue es).1 fs).2) := by
  induction es generalizing queue with
  | nil => rfl
  | cons e es ih => simp only [List.cons_append, addAll, ih, List.append_assoc]

lemma addAll_concat (queue : Queue α) (es : List (QueueElement α)) (e : QueueElement α) :
    addAll queue (es ++ [e])
      = ((prioqueueAdd (addAll queue es).1 e.timeReceived e.data e.priority).1,
          (addAll queue es).2
            ++ (prioqueueAdd (addAll queue es).1 e.timeReceived e.data e.priority).2) := by
  rw [addAll_append]
  simp only [addAll, List.append_nil]

/-- On a full queue the first element of the tree makes room. -/
lemma prioqueueAdd_of_full {queue : Queue α} {first : QueueElement α}
    (hfirst : queue.tree.elements.head? = some first) (hcap : 0 < queue.capacity)
    (hfull : queue.size = queue.capacity) (now : Timeval) (data : α) (priority : ℤ) :
    prioqueueAdd queue now data priority
      = ({ queue with tree := queue.tree.removeFirst.insert ⟨priority, now, data⟩ },
          [first.data]) := by
  obtain ⟨fuel, hfuel⟩ : ∃ fuel, queue.tree.elements.length = fuel + 1 := by
    rw [(OrderedSet.lt_of_head? hfirst).1]
    exact ⟨_, rfl⟩
  rw [prioqueueAdd, if_neg hcap.ne', hfuel, evict, if_pos ⟨hcap, hfull.ge⟩, hfirst]
  simp only
  rw [evict_of_room (by omega)]
  simp

/-- What a queue of this capacity holds after these elements: the first ones, and the last. -/
def keptOf (capacity : ℕ) (es : List (QueueElement α)) : List (QueueElement α) :=
  es.take (capacity - 1) ++ (es.drop (capacity - 1)).getLast?.toList

/-- What it dropped. -/
def droppedOf (capacity : ℕ) (es : List (QueueElement α)) : List (QueueElement α) :=
  (es.drop (capacity - 1)).dropLast

/-- While there is room everything is kept. -/
lemma keptOf_of_room (es : List (QueueElement α)) {capacity : ℕ} (h : es.length ≤ capacity - 1) :
    keptOf capacity es = es ∧ droppedOf capacity es = [] := by
  have hdrop : es.drop (capacity - 1) = [] := List.drop_eq_nil_of_le h
  unfold keptOf droppedOf
  rw [hdrop, List.take_of_length_le h]
  exact ⟨List.append_nil es, rfl⟩

/-- The last of the elements is kept, and the one that was the last before is dropped. -/
lemma keptOf_concat {capacity : ℕ} {es : List (QueueElement α)} (h : capacity - 1 ≤ es.length)
    (e : QueueElement α) : keptOf capacity (es ++ [e]) = es.take (capacity - 1) ++ [e] ∧
      droppedOf capacity (es ++ [e]) = es.drop (capacity - 1) := by
  unfold keptOf droppedOf
  rw [List.take_append_of_le_length h, List.drop_append_of_le_length h, List.dropLast_concat,
    List.getLast?_concat]
  exact ⟨rfl, rfl⟩

/-- The queue after these elements, which have one priority and came one after the other. -/
structure Kept (capacity : ℕ) (es : List (QueueElement α)) (queue : Queue α) : Prop where
  descending : queue.tree.descending = keptOf capacity es
  size : queue.size = (keptOf capacity es).length
  capacity : queue.capacity = capacity

/-- While there is room an element is added to the others. -/
lemma keptOf_concat_of_room {capacity : ℕ} {es : List (QueueElement α)}
    (h : es.length ≤ capacity - 1) (e : QueueElement α) :
    keptOf capacity (es ++ [e]) = es ++ [e] ∧ droppedOf capacity (es ++ [e]) = [] := by
  rcases h.lt_or_eq with hlt | heq
  · apply keptOf_of_room (es ++ [e])
    rw [List.length_append, List.length_singleton]
    exact hlt
  · obtain ⟨hkept, hdropped⟩ := keptOf_concat heq.ge e
    rw [hkept, hdropped, ← heq, List.take_length, List.drop_length]
    exact ⟨rfl, rfl⟩

/-- What a queue keeps that is full. -/
lemma keptOf_of_full {capacity : ℕ} (hcap : 1 ≤ capacity) {es : List (QueueElement α)}
    (h : capacity - 1 < es.length) :
    ∃ last, keptOf capacity es = es.take (capacity - 1) ++ [last] ∧
      droppedOf capacity es ++ [last] = es.drop (capacity - 1) ∧
      (keptOf capacity es).length = capacity := by
  have hne : es.drop (capacity - 1) ≠ [] := by
    rw [ne_eq, List.drop_eq_nil_iff]
    omega
  have hlast := List.getLast?_eq_some_getLast hne
  have hkept : keptOf capacity es
      = es.take (capacity - 1) ++ [(es.drop (capacity - 1)).getLast hne] := by
    rw [keptOf, hlast]
    rfl
  refine ⟨_, hkept, List.dropLast_append_getLast hne, ?_⟩
  rw [hkept, List.length_append, List.length_take, List.length_singleton]
  omega

lemma mem_of_mem_keptOf {capacity : ℕ} {es : List (QueueElement α)} {e : QueueElement α}
    (h : e ∈ keptOf capacity es) : e ∈ es := by
  rcases List.mem_append.mp h with h | h
  · exact List.mem_of_mem_take h
  · exact List.mem_of_mem_drop (List.mem_of_getLast? (Option.mem_toList.mp h))

/-- Adding one more element. -/
lemma Kept.add {capacity : ℕ} (hcap : 1 ≤ capacity) {es : List (QueueElement α)}
    {queue : Queue α} (h : Kept capacity es queue) {e : QueueElement α}
    (hpriority : ∀ x ∈ es, x.priority = e.priority)
    (hbefore : ∀ x ∈ es, x.timeReceived.before e.timeReceived) :
    Kept capacity (es ++ [e]) (prioqueueAdd queue e.timeReceived e.data e.priority).1 ∧
      droppedOf capacity (es ++ [e]) = droppedOf capacity es
        ++ (keptOf capacity es).drop (capacity - 1) ∧
      (prioqueueAdd queue e.timeReceived e.data e.priority).2
        = ((keptOf capacity es).drop (capacity - 1)).map QueueElement.data := by
  have hbelow : ∀ x ∈ queue.tree.elements, queueOrder.cmp e x < 0 := by
    intro x hx
    rw [← OrderedSet.mem_descending, h.descending] at hx
    have hes := mem_of_mem_keptOf hx
    exact (queueElementCompare_neg_iff e x).mpr (Or.inr ⟨(hpriority x hes).symm, hbefore x hes⟩)
  rcases le_or_gt es.length (capacity - 1) with hroom | hfull
  · obtain ⟨hkept, hdropped⟩ := keptOf_of_room es hroom
    obtain ⟨hkept', hdropped'⟩ := keptOf_concat_of_room hroom e
    have hsize := h.size
    rw [hkept] at hsize
    rw [prioqueueAdd_of_room (by rw [h.capacity]; omega) (by rw [h.capacity, hsize]; omega),
      hkept, hdropped, hdropped', List.drop_eq_nil_of_le hroom]
    refine ⟨⟨?_, ?_, h.capacity⟩, rfl, rfl⟩
    · rw [OrderedSet.descending_insert_of_below hbelow, h.descending, hkept, hkept']
    · rw [hkept', List.length_append, hsize]
      rfl
  · obtain ⟨last, hkept, hdropped, hlength⟩ := keptOf_of_full hcap hfull
    obtain ⟨hkept', hdropped'⟩ := keptOf_concat hfull.le e
    have hfirst : queue.tree.elements.head? = some last := by
      rw [OrderedSet.head?_elements, h.descending, hkept, List.getLast?_concat]
    have htake : (es.take (capacity - 1)).length = capacity - 1 := by
      rw [List.length_take]
      omega
    have hdrop : (keptOf capacity es).drop (capacity - 1) = [last] := by
      rw [hkept, List.drop_left' htake]
    rw [prioqueueAdd_of_full hfirst (by rw [h.capacity]; omega)
      (by rw [h.size, hlength, h.capacity]), hdrop, hdropped, hdropped']
    refine ⟨⟨?_, ?_, h.capacity⟩, rfl, rfl⟩
    · have hbelow' : ∀ x ∈ queue.tree.removeFirst.elements, queueOrder.cmp e x < 0 :=
        fun x hx => hbelow x (List.mem_of_mem_tail hx)
      rw [OrderedSet.descending_insert_of_below hbelow', OrderedSet.descending_removeFirst,
        h.descending, hkept, List.dropLast_concat, hkept']
    · show queue.size = _
      rw [h.size, hlength, hkept', List.length_append, htake, List.length_singleton]
      omega

/-- **What a full queue keeps**: of elements of one priority, added one after the other to an
empty queue, it holds the first ones and the last, and drops the others in the order in which they
were added. -/
theorem full_queue_keeps {capacity : ℕ} (hcap : 1 ≤ capacity) {priority : ℤ}
    {es : List (QueueElement α)} (hpriority : ∀ e ∈ es, e.priority = priority)
    (hclock : es.Pairwise fun a b => a.timeReceived.before b.timeReceived) :
    (addAll (prioqueueInit capacity) es).1.tree.descending
        = es.take (capacity - 1) ++ (es.drop (capacity - 1)).getLast?.toList ∧
      (addAll (prioqueueInit capacity) es).2
        = ((es.drop (capacity - 1)).dropLast).map QueueElement.data ∧
      (addAll (prioqueueInit capacity) es).1.size = min es.length capacity := by
  have hrun : Kept capacity es (addAll (prioqueueInit capacity) es).1 ∧
      (addAll (prioqueueInit capacity) es).2 = (droppedOf capacity es).map QueueElement.data := by
    induction es using List.reverseRecOn with
    | nil =>
      obtain ⟨hkept, hdropped⟩ := keptOf_of_room ([] : List (QueueElement α))
        (Nat.zero_le (capacity - 1))
      rw [hdropped]
      exact ⟨⟨hkept.symm, by rw [hkept]; rfl, rfl⟩, rfl⟩
    | append_singleton es e ih =>
      obtain ⟨hes, -, hlast⟩ := List.pairwise_append.mp hclock
      obtain ⟨hkept, hdropped⟩ := ih (fun x hx => hpriority x (List.mem_append_left _ hx)) hes
      have he := hpriority e (by simp)
      obtain ⟨hkept', hdropped', hnow⟩ := hkept.add hcap
        (fun x hx => (hpriority x (List.mem_append_left _ hx)).trans he.symm)
        fun x hx => hlast x hx e (List.mem_singleton_self e)
      rw [addAll_concat]
      exact ⟨hkept', by rw [hdropped, hnow, hdropped', List.map_append]⟩
  refine ⟨hrun.1.descending, hrun.2, ?_⟩
  rw [hrun.1.size]
  rcases le_or_gt es.length (capacity - 1) with hroom | hfull
  · rw [(keptOf_of_room es hroom).1]
    omega
  · obtain ⟨-, -, -, hlength⟩ := keptOf_of_full hcap hfull
    rw [hlength]
    omega

/-- Three elements, a second apart. -/
def threeElements : List (QueueElement ℕ) := [⟨0, ⟨1, 0⟩, 1⟩, ⟨0, ⟨2, 0⟩, 2⟩, ⟨0, ⟨3, 0⟩, 3⟩]

theorem full_queue_keeps_two :
    (addAll (prioqueueInit (2 : ℕ)) threeElements).1.tree.descending
        = threeElements.take 1 ++ (threeElements.drop 1).getLast?.toList ∧
      (addAll (prioqueueInit (2 : ℕ)) threeElements).2
        = ((threeElements.drop 1).dropLast).map QueueElement.data ∧
      (addAll (prioqueueInit (2 : ℕ)) threeElements).1.size
        = min threeElements.length (2 : ℕ) :=
  full_queue_keeps (priority := 0) (by decide) (by decide) (by decide)

/-- Of three elements a queue for two does not keep the last two, and drops the second. -/
theorem full_queue_not_newest :
    (addAll (prioqueueInit 2) threeElements).1.fifo
        ≠ (threeElements.drop 1).map QueueElement.data ∧
      (addAll (prioqueueInit 2) threeElements).2
        ≠ (threeElements.take 1).map QueueElement.data := by
  decide

end StationProcessor
