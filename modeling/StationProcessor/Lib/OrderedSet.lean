import Mathlib.Data.List.Basic
import Mathlib.Tactic

/-!
# Ordered sets over a comparison function

The set a search tree holds, as the list of its elements in tree order. The comparison returns an
integer whose sign orders its arguments, as the comparison functions of C libraries do; an
element that compares equal to one in the set is not inserted.
-/

/-- A comparison function whose sign is a strict order. -/
structure Comparator (α : Type*) where
  cmp : α → α → ℤ
  swap : ∀ a b, cmp a b < 0 ↔ 0 < cmp b a
  trans : ∀ a b c, cmp a b < 0 → cmp b c < 0 → cmp a c < 0

/-- A set whose elements are kept in increasing order. -/
structure OrderedSet {α : Type*} (order : Comparator α) where
  elements : List α
  sorted : elements.Pairwise fun a b => order.cmp a b < 0

namespace OrderedSet

variable {α : Type*} {order : Comparator α}

def empty : OrderedSet order := ⟨[], List.Pairwise.nil⟩

/-- Descend to the place of `x`, and leave the list alone where an equal element is met. -/
def insertInto (order : Comparator α) (x : α) : List α → List α
  | [] => [x]
  | y :: ys =>
    if order.cmp y x = 0 then y :: ys
    else if order.cmp y x > 0 then x :: y :: ys
    else y :: insertInto order x ys

lemma mem_insertInto {x z : α} {l : List α} (h : z ∈ insertInto order x l) : z = x ∨ z ∈ l := by
  induction l with
  | nil => exact Or.inl (List.mem_singleton.mp h)
  | cons y ys ih =>
    unfold insertInto at h
    split_ifs at h
    · exact Or.inr h
    · exact List.mem_cons.mp h
    · rcases List.mem_cons.mp h with rfl | h
      · exact Or.inr List.mem_cons_self
      · exact (ih h).imp_right (List.mem_cons_of_mem y)

lemma sorted_insertInto {x : α} {l : List α} (h : l.Pairwise fun a b => order.cmp a b < 0) :
    (insertInto order x l).Pairwise fun a b => order.cmp a b < 0 := by
  induction l with
  | nil => exact List.pairwise_singleton _ _
  | cons y ys ih =>
    obtain ⟨hy, hys⟩ := List.pairwise_cons.mp h
    unfold insertInto
    split_ifs with heq hgt
    · exact h
    · have hxy : order.cmp x y < 0 := (order.swap x y).mpr hgt
      refine List.pairwise_cons.mpr ⟨fun z hz => ?_, h⟩
      rcases List.mem_cons.mp hz with rfl | hz
      · exact hxy
      · exact order.trans x y z hxy (hy z hz)
    · have hyx : order.cmp y x < 0 := by omega
      refine List.pairwise_cons.mpr ⟨fun z hz => ?_, ih hys⟩
      rcases mem_insertInto hz with rfl | hz
      · exact hyx
      · exact hy z hz

def insert (x : α) (s : OrderedSet order) : OrderedSet order :=
  ⟨insertInto order x s.elements, sorted_insertInto s.sorted⟩

/-- The set without its first element. -/
def removeFirst (s : OrderedSet order) : OrderedSet order :=
  ⟨s.elements.tail, s.sorted.sublist (List.tail_sublist _)⟩

/-- The set without its last element. -/
def removeLast (s : OrderedSet order) : OrderedSet order :=
  ⟨s.elements.dropLast, s.sorted.sublist (List.dropLast_sublist _)⟩

/-- An element that compares equal to none is inserted. -/
lemma elements_insert_perm {x : α} {s : OrderedSet order}
    (h : ∀ y ∈ s.elements, order.cmp y x ≠ 0) : (s.insert x).elements.Perm (x :: s.elements) := by
  have hins : ∀ l : List α, (∀ y ∈ l, order.cmp y x ≠ 0) →
      (insertInto order x l).Perm (x :: l) := by
    intro l hl
    induction l with
    | nil => exact List.Perm.refl _
    | cons z zs ih =>
      unfold insertInto
      rw [if_neg (hl z List.mem_cons_self)]
      split_ifs
      · exact List.Perm.refl _
      · exact ((ih fun y hy => hl y (List.mem_cons_of_mem z hy)).cons z).trans (.swap x z zs)
  exact hins s.elements h

/-- The elements from the last to the first. -/
def descending (s : OrderedSet order) : List α := s.elements.reverse

@[simp] lemma descending_empty : (empty : OrderedSet order).descending = [] := rfl

/-- An element below all others becomes the first. -/
lemma elements_insert_of_below {x : α} {s : OrderedSet order}
    (h : ∀ y ∈ s.elements, order.cmp x y < 0) : (s.insert x).elements = x :: s.elements := by
  show insertInto order x s.elements = x :: s.elements
  cases hs : s.elements with
  | nil => rfl
  | cons y ys =>
    have hgt : 0 < order.cmp y x :=
      (order.swap x y).mp (h y (hs ▸ List.mem_cons_self))
    rw [insertInto, if_neg hgt.ne', if_pos hgt]

lemma descending_insert_of_below {x : α} {s : OrderedSet order}
    (h : ∀ y ∈ s.elements, order.cmp x y < 0) : (s.insert x).descending = s.descending ++ [x] := by
  rw [descending, elements_insert_of_below h, List.reverse_cons, descending]

lemma length_insert_le (x : α) (s : OrderedSet order) :
    (s.insert x).elements.length ≤ s.elements.length + 1 := by
  have hins : ∀ l : List α, (insertInto order x l).length ≤ l.length + 1 := by
    intro l
    induction l with
    | nil => exact le_rfl
    | cons y ys ih =>
      unfold insertInto
      split_ifs
      · exact Nat.le_succ _
      · exact le_rfl
      · exact Nat.succ_le_succ ih
  exact hins s.elements

/-- The last element is above the others. -/
lemma lt_of_getLast? {x : α} {s : OrderedSet order} (h : s.elements.getLast? = some x) :
    s.elements = s.removeLast.elements ++ [x] ∧
      ∀ y ∈ s.removeLast.elements, order.cmp y x < 0 := by
  have hsplit : s.elements = s.removeLast.elements ++ [x] :=
    (List.dropLast_append_getLast? x h).symm
  refine ⟨hsplit, fun y hy => ?_⟩
  have hsorted := s.sorted
  rw [hsplit] at hsorted
  exact (List.pairwise_append.mp hsorted).2.2 y hy x (List.mem_singleton_self x)

/-- Taking the last element is taking the head of the descending list. -/
lemma descending_of_getLast? {x : α} {s : OrderedSet order} (h : s.elements.getLast? = some x) :
    s.descending = x :: s.removeLast.descending := by
  rw [descending, (lt_of_getLast? h).1, List.reverse_append, List.reverse_singleton,
    List.singleton_append, descending]

/-- The first element is below the others. -/
lemma lt_of_head? {x : α} {s : OrderedSet order} (h : s.elements.head? = some x) :
    s.elements = x :: s.removeFirst.elements ∧
      ∀ y ∈ s.removeFirst.elements, order.cmp x y < 0 := by
  have hsplit : s.elements = x :: s.removeFirst.elements := by
    cases hs : s.elements with
    | nil => simp [hs] at h
    | cons y ys => simpa [removeFirst, hs] using h
  refine ⟨hsplit, ?_⟩
  have hsorted := s.sorted
  rw [hsplit] at hsorted
  exact (List.pairwise_cons.mp hsorted).1

lemma mem_descending {x : α} {s : OrderedSet order} : x ∈ s.descending ↔ x ∈ s.elements :=
  List.mem_reverse

lemma head?_elements (s : OrderedSet order) : s.elements.head? = s.descending.getLast? := by
  rw [descending, List.getLast?_reverse]

lemma descending_removeFirst (s : OrderedSet order) :
    s.removeFirst.descending = s.descending.dropLast := by
  rw [descending, descending, removeFirst, List.dropLast_reverse]

end OrderedSet
