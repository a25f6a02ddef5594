import Mathlib.Data.List.Rotate
import Mathlib.Data.List.DropRight
import Mathlib.Tactic

/-!
# Rings of slots

A ring of capacity `c` first fills its slots in order and then overwrites the oldest one. The
structure carries what an overwriting store relies on, so that a ring whose slots and newest
position disagree cannot be built. `SlotRing.toList` is the ring read from oldest to newest,
and pushing onto it keeps the last `c` of all values ever pushed.
-/

/-- Slots in use, the slot written last, and the facts that tie them to the capacity. -/
structure SlotRing (α : Type*) (c : ℕ) where
  slots : List α
  newest : ℕ
  newest_lt : newest < slots.length
  length_le : slots.length ≤ c
  filling : slots.length < c → newest + 1 = slots.length

namespace SlotRing

variable {α : Type*} {c : ℕ}

/-- The values of the ring from the oldest to the newest. -/
def toList (r : SlotRing α c) : List α := r.slots.rotate (r.newest + 1)

/-- The slot after the newest one, where the next value goes. -/
def next (r : SlotRing α c) : ℕ := if r.newest + 1 < c then r.newest + 1 else 0

/-- The slot of the oldest value: the first slot until the ring is full. -/
def oldest (r : SlotRing α c) : ℕ := (r.newest + 1) % r.slots.length

/-- The ring holding one value. -/
def singleton (hc : 0 < c) (x : α) : SlotRing α c where
  slots := [x]
  newest := 0
  newest_lt := by simp
  length_le := by simpa using Nat.succ_le_of_lt hc
  filling _ := rfl

lemma length_pos (r : SlotRing α c) : 0 < r.slots.length :=
  Nat.lt_of_le_of_lt (Nat.zero_le _) r.newest_lt

lemma capacity_pos (r : SlotRing α c) : 0 < c := r.length_pos.trans_le r.length_le

/-- The value written last. -/
def last (r : SlotRing α c) : α := r.slots.get ⟨r.newest, r.newest_lt⟩

lemma next_of_filling (r : SlotRing α c) (h : r.slots.length < c) :
    r.next = r.slots.length := by
  have := r.filling h
  rw [next, if_pos (by omega), this]

lemma next_of_full (r : SlotRing α c) (h : r.slots.length = c) :
    r.next = (r.newest + 1) % c := by
  have hlt := r.newest_lt
  rw [next]
  split_ifs with hn
  · rw [Nat.mod_eq_of_lt hn]
  · rw [show r.newest + 1 = c by omega, Nat.mod_self]

lemma next_lt (r : SlotRing α c) : r.next < c := by
  rw [next]
  split_ifs with hn
  · exact hn
  · exact r.capacity_pos

/-- Store a value in the slot after the newest one. -/
def push (r : SlotRing α c) (x : α) : SlotRing α c :=
  if h : r.slots.length < c then
    { slots := r.slots ++ [x]
      newest := r.slots.length
      newest_lt := by simp
      length_le := by simpa using h
      filling := fun _ => by simp }
  else
    { slots := r.slots.set r.next x
      newest := r.next
      newest_lt := by
        have := r.next_lt
        simp only [List.length_set]
        omega
      length_le := by simpa using r.length_le
      filling := fun h' => absurd (by simpa using h') h }

lemma push_of_filling (r : SlotRing α c) (x : α) (h : r.slots.length < c) :
    (r.push x).slots = r.slots ++ [x] ∧ (r.push x).newest = r.slots.length := by
  rw [push, dif_pos h]
  exact ⟨rfl, rfl⟩

lemma push_of_full (r : SlotRing α c) (x : α) (h : r.slots.length = c) :
    (r.push x).slots = r.slots.set r.next x ∧ (r.push x).newest = r.next := by
  rw [push, dif_neg (by omega)]
  exact ⟨rfl, rfl⟩

lemma length_push (r : SlotRing α c) (x : α) :
    (r.push x).slots.length = min (r.slots.length + 1) c := by
  have hle := r.length_le
  rcases hle.lt_or_eq with h | h
  · rw [(r.push_of_filling x h).1, List.length_append, List.length_singleton]
    omega
  · rw [(r.push_of_full x h).1, List.length_set]
    omega

lemma newest_push (r : SlotRing α c) (x : α) : (r.push x).newest = r.next := by
  rcases r.length_le.lt_or_eq with h | h
  · rw [(r.push_of_filling x h).2, r.next_of_filling h]
  · exact (r.push_of_full x h).2

@[simp] lemma length_toList (r : SlotRing α c) : r.toList.length = r.slots.length := by
  simp [toList]

lemma toList_ne_nil (r : SlotRing α c) : r.toList ≠ [] := by
  rw [← List.length_pos_iff, length_toList]
  exact r.length_pos

/-- Position `i` of the ring from oldest to newest is slot `newest + 1 + i`, wrapped. -/
lemma getElem?_toList (r : SlotRing α c) {i : ℕ} (hi : i < r.slots.length) :
    r.toList[i]? = r.slots[(r.newest + 1 + i) % r.slots.length]? := by
  rw [toList, List.getElem?_rotate hi, Nat.add_comm i]

lemma toList_of_filling (r : SlotRing α c) (h : r.slots.length < c) : r.toList = r.slots := by
  rw [toList, r.filling h, List.rotate_length]

/-- Overwriting the oldest of `s` slots and making it the newest. -/
lemma rotate_set_succ (s : List α) {i : ℕ} (hi : i < s.length) (x : α) :
    (s.set i x).rotate (i + 1) = (s.rotate i).tail ++ [x] := by
  have hset : (s.set i x).length = s.length := List.length_set
  rw [List.rotate_eq_drop_append_take (by omega), List.rotate_eq_drop_append_take hi.le,
    List.drop_set_of_lt (by omega), List.take_set, List.take_succ_eq_append_getElem hi,
    List.set_append_right _ _ (by simp), ← List.append_assoc]
  rw [List.tail_append_of_ne_nil (by rw [← List.length_pos_iff, List.length_drop]; omega),
    List.tail_drop]
  simp [Nat.min_eq_left hi.le]

/-- Pushing appends the value and, on a full ring, drops the oldest one. -/
lemma toList_push (r : SlotRing α c) (x : α) :
    (r.push x).toList
      = (if r.slots.length < c then r.toList else r.toList.tail) ++ [x] := by
  rcases r.length_le.lt_or_eq with h | h
  · rw [if_pos h, r.toList_of_filling h, toList, (r.push_of_filling x h).1,
      (r.push_of_filling x h).2]
    rw [show r.slots.length + 1 = (r.slots ++ [x]).length by simp, List.rotate_length]
  · have hlt := r.next_lt
    rw [if_neg (by omega), toList, (r.push_of_full x h).1, (r.push_of_full x h).2,
      rotate_set_succ _ (by omega), r.next_of_full h]
    have hmod := r.slots.rotate_mod (r.newest + 1)
    rw [h] at hmod
    rw [hmod, toList]

lemma length_of_rtake (r : SlotRing α c) {log : List α} (h : r.toList = log.rtake c) :
    r.slots.length = min log.length c := by
  rw [← r.length_toList, h, List.rtake, List.length_drop]
  omega

/-- A ring that holds the end of a log holds the end of the extended log after a push. -/
lemma toList_push_rtake (r : SlotRing α c) {log : List α} (h : r.toList = log.rtake c) (x : α) :
    (r.push x).toList = (log ++ [x]).rtake c := by
  have hlen := r.length_of_rtake h
  have hc := r.capacity_pos
  rw [toList_push, h, List.rtake, List.rtake, List.length_append, List.length_singleton]
  split_ifs with hlt
  · rw [show log.length - c = 0 by omega, show log.length + 1 - c = 0 by omega]
    rfl
  · rw [List.tail_drop, show log.length + 1 - c = log.length - c + 1 by omega,
      List.drop_append_of_le_length (by omega)]

/-- The newest value is the last one in the order of the pushes. -/
lemma last_eq_getLast (r : SlotRing α c) : r.last = r.toList.getLast r.toList_ne_nil := by
  have hlt := r.newest_lt
  have hget := r.getElem?_toList (i := r.slots.length - 1) (by omega)
  rw [show r.newest + 1 + (r.slots.length - 1) = r.newest + r.slots.length by omega,
    Nat.add_mod_right, Nat.mod_eq_of_lt hlt, List.getElem?_eq_getElem hlt,
    ← r.length_toList] at hget
  rw [last, List.get_eq_getElem, List.getLast_eq_getElem]
  exact (List.getElem_eq_iff _).mpr hget |>.symm

/-- The value just pushed is the last one. -/
lemma last_push (r : SlotRing α c) (x : α) : (r.push x).last = x := by
  rw [last_eq_getLast, List.getLast_eq_iff_getLast?_eq_some, toList_push]
  simp

/-! ### Other capacities -/

/-- The slots up to the newest one, in a ring they fit in. -/
def upToNewest (r : SlotRing α c) {c' : ℕ} (h : r.newest < c') : SlotRing α c' where
  slots := r.slots.take (r.newest + 1)
  newest := r.newest
  newest_lt := by
    have := r.newest_lt
    rw [List.length_take]
    omega
  length_le := by
    rw [List.length_take]
    omega
  filling _ := by
    have := r.newest_lt
    rw [List.length_take]
    omega

/-- The slots of a ring that never wrapped, in a ring they fit in. -/
def resized (r : SlotRing α c) {c' : ℕ} (hfill : r.slots.length < c) (h : r.slots.length ≤ c') :
    SlotRing α c' where
  slots := r.slots
  newest := r.newest
  newest_lt := r.newest_lt
  length_le := h
  filling _ := r.filling hfill

/-- The slots up to the newest one are the newest values, in their order. -/
lemma toList_upToNewest_suffix (r : SlotRing α c) {c' : ℕ} (h : r.newest < c') :
    (r.upToNewest h).toList <:+ r.toList := by
  have hlt := r.newest_lt
  have hwhole : (r.upToNewest h).toList = r.slots.take (r.newest + 1) := by
    have hlen : (r.slots.take (r.newest + 1)).length = r.newest + 1 := by
      rw [List.length_take]
      omega
    show (r.slots.take (r.newest + 1)).rotate (r.newest + 1) = _
    rw [List.rotate_eq_drop_append_take hlen.ge, List.drop_of_length_le hlen.le, List.nil_append,
      List.take_of_length_le hlen.le]
  rw [hwhole, toList, List.rotate_eq_drop_append_take (Nat.succ_le_of_lt hlt)]
  exact List.suffix_append _ _

lemma toList_resized (r : SlotRing α c) {c' : ℕ} (hfill : r.slots.length < c)
    (h : r.slots.length ≤ c') : (r.resized hfill h).toList = r.toList := rfl

end SlotRing
