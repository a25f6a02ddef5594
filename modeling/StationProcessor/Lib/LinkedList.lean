import Mathlib.Tactic

/-!
# Linked lists in an array

The cells are the indices of an array that holds for each cell the next one, and an index that is
no cell ends the list. A segment is what one passes from one index to another.
-/

namespace LinkedList

/-- Following the links from `start` passes the cells one by one and arrives at `finish`. -/
def Segment (link : ℕ → ℤ) : ℤ → List ℕ → ℤ → Prop
  | start, [], finish => start = finish
  | start, cell :: cells, finish => start = cell ∧ Segment link (link cell) cells finish

variable {link : ℕ → ℤ} {start finish v : ℤ} {cells cells' : List ℕ} {cell : ℕ}

@[simp] lemma segment_nil : Segment link start [] finish ↔ start = finish := Iff.rfl

@[simp] lemma segment_cons : Segment link start (cell :: cells) finish ↔
    start = cell ∧ Segment link (link cell) cells finish := Iff.rfl

lemma segment_append : Segment link start (cells ++ cells') finish ↔
    ∃ mid, Segment link start cells mid ∧ Segment link mid cells' finish := by
  induction cells generalizing start with
  | nil => simp
  | cons cell cells ih => simp [ih, and_assoc]

lemma segment_concat : Segment link start (cells ++ [cell]) finish ↔
    Segment link start cells cell ∧ link cell = finish := by
  simp [segment_append]

/-- A link that is not passed may change. -/
lemma segment_update (h : cell ∉ cells) :
    Segment (Function.update link cell v) start cells finish ↔ Segment link start cells finish := by
  induction cells generalizing start with
  | nil => simp
  | cons head cells ih =>
    rw [List.mem_cons, not_or] at h
    simp [ih h.2, Function.update_of_ne (Ne.symm h.1)]

/-- Setting the last link moves the end. -/
lemma Segment.concat_update (h : Segment link start cells cell) (hcell : cell ∉ cells) :
    Segment (Function.update link cell v) start (cells ++ [cell]) v :=
  segment_concat.mpr ⟨(segment_update hcell).mpr h, Function.update_self ..⟩

lemma Segment.start_eq (h : Segment link start cells finish) (c : ℕ) (hc : cells.head? = some c) :
    start = c := by
  cases cells with
  | nil => cases hc
  | cons head cells =>
    cases hc
    exact h.1

/-- The links determine what is passed on the way to an index that is no cell. -/
lemma Segment.unique (h : Segment link start cells finish) (h' : Segment link start cells' finish)
    (hfinish : ∀ c ∈ cells ++ cells', finish ≠ c) : cells = cells' := by
  induction cells generalizing start cells' with
  | nil =>
    cases cells' with
    | nil => rfl
    | cons c cells' => exact absurd (h.symm.trans h'.1) (hfinish c (by simp))
  | cons c cells ih =>
    cases cells' with
    | nil => exact absurd (h'.symm.trans h.1) (hfinish c (by simp))
    | cons c' cells' =>
      obtain rfl : c = c' := Int.ofNat_inj.mp (h.1.symm.trans h'.1)
      rw [ih h.2 h'.2 fun d hd => hfinish d ?_]
      rcases List.mem_append.mp hd with hd | hd <;> simp [hd]

/-- A way to an index that is no cell passes no cell twice. -/
lemma Segment.nodup (h : Segment link start cells finish) (hfinish : ∀ c ∈ cells, finish ≠ c) :
    cells.Nodup := by
  induction cells generalizing start with
  | nil => exact List.nodup_nil
  | cons c cells ih =>
    have htail : ∀ d ∈ cells, finish ≠ d := fun d hd => hfinish d (List.mem_cons_of_mem c hd)
    refine List.nodup_cons.mpr ⟨?_, ih h.2 htail⟩
    intro hc
    obtain ⟨front, back, rfl⟩ := List.append_of_mem hc
    obtain ⟨mid, -, hmid⟩ := segment_append.mp h.2
    obtain rfl : mid = c := hmid.1
    have heq := hmid.2.unique h.2 fun d hd => htail d ?_
    · have hlength := congrArg List.length heq
      simp at hlength
      omega
    · rcases List.mem_append.mp hd with hd | hd
      · simp [hd]
      · exact hd

section Swap

variable {a b : ℕ} {front rest : List ℕ}

/-- The links after two neighbours have changed places. -/
def swapLinks (link : ℕ → ℤ) (a b : ℕ) : ℕ → ℤ :=
  Function.update (Function.update link a (link b)) b a

lemma Segment.swapLinks (h : Segment link a (a :: b :: rest) finish)
    (hnodup : (a :: b :: rest).Nodup) :
    Segment (swapLinks link a b) b (b :: a :: rest) finish := by
  obtain ⟨ha, hb⟩ := List.nodup_cons.mp hnodup
  rw [List.mem_cons, not_or] at ha
  have hrest : Segment (LinkedList.swapLinks link a b) (link b) rest finish := by
    rw [LinkedList.swapLinks, segment_update (List.nodup_cons.mp hb).1, segment_update ha.2]
    exact h.2.2
  simpa [LinkedList.swapLinks, Function.update_of_ne ha.1] using hrest

lemma segment_swapLinks (ha : a ∉ cells) (hb : b ∉ cells) :
    Segment (swapLinks link a b) start cells finish ↔ Segment link start cells finish := by
  rw [LinkedList.swapLinks, segment_update hb, segment_update ha]

end Swap

end LinkedList
