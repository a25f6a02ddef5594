import Mathlib.Data.Vector.Basic
import Mathlib.Tactic

/-!
# Fixed-size blocks in a file

A file is a list of cells. A file of blocks is the concatenation of blocks of one common size,
read and overwritten by block number. Reading past the last complete block fails, and a write
past the end of the file first fills the gap with zeros, as a seek followed by a write does.
-/

namespace Blocks

variable {α : Type*} {k : ℕ}

/-- The file holding the given blocks one after the other. -/
def layout (slots : List (List.Vector α k)) : List α :=
  slots.flatMap List.Vector.toList

/-- Read block number `i`; `none` when the file ends before the end of that block. -/
def read (k : ℕ) (file : List α) (i : ℕ) : Option (List.Vector α k) :=
  if h : i * k + k ≤ file.length then
    some ⟨(file.drop (i * k)).take k, by simp only [List.length_take, List.length_drop]; omega⟩
  else none

/-- Overwrite block number `i`, extending the file where it is too short. -/
def write [Zero α] (file : List α) (i : ℕ) (b : List.Vector α k) : List α :=
  (file.rightpad (i * k) 0).take (i * k) ++ b.toList ++ file.drop (i * k + k)

@[simp] lemma layout_nil : layout ([] : List (List.Vector α k)) = [] := rfl

@[simp] lemma layout_cons (b : List.Vector α k) (slots : List (List.Vector α k)) :
    layout (b :: slots) = b.toList ++ layout slots := rfl

@[simp] lemma layout_append (s t : List (List.Vector α k)) :
    layout (s ++ t) = layout s ++ layout t := by
  simp [layout]

@[simp] lemma length_layout (slots : List (List.Vector α k)) :
    (layout slots).length = slots.length * k := by
  induction slots with
  | nil => simp
  | cons b slots ih =>
    rw [layout_cons, List.length_append, ih, List.Vector.toList_length, List.length_cons]
    ring

/-- The layout cut around one of its blocks. -/
lemma layout_eq_around (slots : List (List.Vector α k)) {i : ℕ} (hi : i < slots.length) :
    layout slots
      = layout (slots.take i) ++ (slots[i].toList ++ layout (slots.drop (i + 1))) := by
  have hcut : slots = slots.take i ++ slots[i] :: slots.drop (i + 1) := by
    rw [List.getElem_cons_drop, List.take_append_drop]
  conv_lhs => rw [hcut]
  rw [layout_append, layout_cons]

lemma length_layout_take (slots : List (List.Vector α k)) {i : ℕ} (hi : i ≤ slots.length) :
    (layout (slots.take i)).length = i * k := by
  rw [length_layout, List.length_take, Nat.min_eq_left hi]

lemma drop_append_of_length {xs ys : List α} {n : ℕ} (h : xs.length = n) :
    (xs ++ ys).drop n = ys := by
  rw [← h, List.drop_left]

lemma take_append_of_length {xs ys : List α} {n : ℕ} (h : xs.length = n) :
    (xs ++ ys).take n = xs := by
  rw [← h, List.take_left]

/-- A block of the layout is read back, whatever follows the layout. -/
lemma read_layout_append (slots : List (List.Vector α k)) (tail : List α) {i : ℕ}
    (hi : i < slots.length) : read k (layout slots ++ tail) i = some slots[i] := by
  have hlen : i * k + k ≤ (layout slots ++ tail).length := by
    rw [List.length_append, length_layout, ← Nat.succ_mul]
    exact (Nat.mul_le_mul_right k hi).trans (Nat.le_add_right _ _)
  have hcells : ((layout slots ++ tail).drop (i * k)).take k = slots[i].toList := by
    rw [layout_eq_around slots hi, List.append_assoc,
      drop_append_of_length (length_layout_take slots hi.le), List.append_assoc,
      take_append_of_length slots[i].toList_length]
  rw [read, dif_pos hlen]
  exact congrArg some (Subtype.ext hcells)

/-- The complete blocks of a file, after which it may hold a part of one more. -/
def Holds (file : List α) (slots : List (List.Vector α k)) : Prop :=
  ∃ tail, file = layout slots ++ tail ∧ tail.length < k

lemma holds_layout (hk : 0 < k) (slots : List (List.Vector α k)) :
    Holds (layout slots) slots :=
  ⟨[], (List.append_nil _).symm, by simpa using hk⟩

lemma Holds.read {file : List α} {slots : List (List.Vector α k)} (h : Holds file slots) {i : ℕ}
    (hi : i < slots.length) : read k file i = some slots[i] := by
  obtain ⟨tail, rfl, -⟩ := h
  exact read_layout_append slots tail hi

/-- The length of a file counts its complete blocks. -/
lemma Holds.length_bounds {file : List α} {slots : List (List.Vector α k)}
    (h : Holds file slots) :
    slots.length * k ≤ file.length ∧ file.length < slots.length * k + k := by
  obtain ⟨tail, rfl, htail⟩ := h
  rw [List.length_append, length_layout]
  omega

lemma Holds.length_div {file : List α} {slots : List (List.Vector α k)} (h : Holds file slots) :
    file.length / k = slots.length := by
  obtain ⟨h1, h2⟩ := h.length_bounds
  exact Nat.div_eq_of_lt_le h1 (by rwa [Nat.succ_mul])

/-- The number of blocks by a division of integers. -/
lemma length_layout_ediv (hk : 0 < k) (slots : List (List.Vector α k)) :
    ((layout slots).length : ℤ) / k = slots.length := by
  rw [← Int.natCast_div, (holds_layout hk slots).length_div]

section Write

variable [Zero α]

/-- A written block is read back, wherever it was written. -/
lemma read_write (file : List α) (i : ℕ) (b : List.Vector α k) :
    read k (write file i b) i = some b := by
  have hhead : ((file.rightpad (i * k) 0).take (i * k)).length = i * k := by
    rw [List.length_take, List.length_rightpad, Nat.min_eq_left (le_max_left _ _)]
  have hlen : i * k + k ≤ (write file i b).length := by
    simp only [write, List.length_append, hhead, List.Vector.toList_length]
    exact Nat.le_add_right _ _
  have hcells : ((write file i b).drop (i * k)).take k = b.toList := by
    rw [write, List.append_assoc, drop_append_of_length hhead,
      take_append_of_length b.toList_length]
  rw [read, dif_pos hlen]
  exact congrArg some (Subtype.ext hcells)

/-- Writing an existing block replaces it and nothing else. -/
lemma write_layout_set (slots : List (List.Vector α k)) {i : ℕ} (hi : i < slots.length)
    (b : List.Vector α k) : write (layout slots) i b = layout (slots.set i b) := by
  have hlen : i * k ≤ (layout slots).length := by
    rw [length_layout]
    exact Nat.mul_le_mul_right k hi.le
  have hhead : ((layout slots).rightpad (i * k) 0).take (i * k) = layout (slots.take i) := by
    rw [List.rightpad, Nat.sub_eq_zero_of_le hlen, List.replicate_zero, List.append_nil,
      layout_eq_around slots hi, take_append_of_length (length_layout_take slots hi.le)]
  have htail : (layout slots).drop (i * k + k) = layout (slots.drop (i + 1)) := by
    rw [layout_eq_around slots hi, ← List.drop_drop,
      drop_append_of_length (length_layout_take slots hi.le),
      drop_append_of_length slots[i].toList_length]
  rw [write, hhead, htail, List.set_eq_take_append_cons_drop, if_pos hi, layout_append,
    layout_cons, List.append_assoc]

/-- Writing the first block past the end appends it. -/
lemma write_layout_append (slots : List (List.Vector α k)) (b : List.Vector α k) :
    write (layout slots) slots.length b = layout (slots ++ [b]) := by
  have hlen : slots.length * k = (layout slots).length := (length_layout slots).symm
  rw [write, hlen, List.rightpad, Nat.sub_self, List.replicate_zero, List.append_nil,
    List.take_length, List.drop_eq_nil_of_le (Nat.le_add_right _ _)]
  simp

end Write

/-! ### Cutting a file into blocks -/

/-- The complete blocks at the start of a file. -/
def complete (k : ℕ) (file : List α) : List (List.Vector α k) :=
  (List.range (file.length / k)).filterMap (read k file)

/-- Every file is some blocks and less than one more. -/
lemma exists_layout_append (hk : 0 < k) (file : List α) :
    ∃ (slots : List (List.Vector α k)) (rest : List α),
      file = layout slots ++ rest ∧ rest.length < k := by
  induction hlen : file.length using Nat.strong_induction_on generalizing file with
  | _ len ih =>
    rcases Nat.lt_or_ge file.length k with hlt | hge
    · exact ⟨[], file, rfl, hlt⟩
    · obtain ⟨slots, rest, hrest, hlt⟩ := ih (file.drop k).length
        (by rw [List.length_drop]; omega) (file.drop k) rfl
      have hfirst : (file.take k).length = k := by
        rw [List.length_take]
        omega
      refine ⟨(⟨file.take k, hfirst⟩ : List.Vector α k) :: slots, rest, ?_, hlt⟩
      show file = file.take k ++ layout slots ++ rest
      rw [List.append_assoc, ← hrest, List.take_append_drop]

lemma filterMap_range_getElem? {β : Type*} (l : List β) :
    (List.range l.length).filterMap (fun i => l[i]?) = l := by
  induction l with
  | nil => rfl
  | cons x l ih =>
    rw [List.length_cons, List.range_succ_eq_map, List.filterMap_cons, List.filterMap_map]
    simpa using ih

/-- The blocks of a layout are its complete blocks, if too little for another one follows. -/
lemma complete_layout_append (slots : List (List.Vector α k)) {rest : List α}
    (h : rest.length < k) : complete k (layout slots ++ rest) = slots := by
  have hcount : (layout slots ++ rest).length / k = slots.length := by
    rw [List.length_append, length_layout, Nat.mul_comm, Nat.mul_add_div (by omega),
      Nat.div_eq_of_lt h, Nat.add_zero]
  rw [complete, hcount]
  conv_rhs => rw [← filterMap_range_getElem? slots]
  apply List.filterMap_congr
  intro i hi
  have hi := List.mem_range.mp hi
  rw [read_layout_append slots rest hi, List.getElem?_eq_getElem hi]

end Blocks
