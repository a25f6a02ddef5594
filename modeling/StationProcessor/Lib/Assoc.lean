import Mathlib.Data.List.Basic
import Mathlib.Data.List.Nodup
import Mathlib.Logic.Function.Basic
import Mathlib.Tactic

/-!
# Association lists as partial functions

A list of keys and values with each key once is the graph of a partial function with finite
domain. Changing a value, adding a pair and removing one update the function at one key; lists
for the parts of the domain together are a list for the whole.
-/

namespace Assoc

variable {κ α ι : Type*}

/-- The list has the values of the function, each of them once. -/
structure Represents (l : List (κ × α)) (f : κ → Option α) : Prop where
  nodup : (l.map Prod.fst).Nodup
  mem_iff : ∀ k v, (k, v) ∈ l ↔ f k = some v

variable {l : List (κ × α)} {f : κ → Option α}

lemma Represents.nil : Represents ([] : List (κ × α)) fun _ => none where
  nodup := List.nodup_nil
  mem_iff := by simp

lemma Represents.eq_some (h : Represents l f) {k : κ} {v : α} (hmem : (k, v) ∈ l) :
    f k = some v := (h.mem_iff k v).mp hmem

/-- Two functions with one list are equal. -/
lemma Represents.unique {g : κ → Option α} (h : Represents l f) (h' : Represents l g) : f = g := by
  funext k
  apply Option.ext
  intro v
  rw [← h.mem_iff, ← h'.mem_iff]

/-- Two lists of one function have the same pairs. -/
lemma Represents.perm {l' : List (κ × α)} (h : Represents l f) (h' : Represents l' f) :
    l.Perm l' := by
  refine (List.perm_ext_iff_of_nodup h.nodup.of_map h'.nodup.of_map).mpr fun p => ?_
  rw [← Prod.mk.eta (p := p), h.mem_iff, h'.mem_iff]

lemma Represents.mem_keys_iff (h : Represents l f) {k : κ} : k ∈ l.map Prod.fst ↔ f k ≠ none := by
  rw [Option.ne_none_iff_exists']
  constructor
  · intro hk
    obtain ⟨p, hp, rfl⟩ := List.mem_map.mp hk
    exact ⟨p.2, h.eq_some hp⟩
  · rintro ⟨v, hv⟩
    exact List.mem_map_of_mem ((h.mem_iff k v).mpr hv)

/-- The list is as long as the function has values. -/
lemma Represents.length_eq (h : Represents l f) : l.length = {k | f k ≠ none}.ncard := by
  have hkeys : {k | f k ≠ none} = {k | k ∈ l.map Prod.fst} := by
    ext k
    exact h.mem_keys_iff.symm
  have hlength : l.length = (l.map Prod.fst).length := (List.length_map Prod.fst).symm
  rw [hkeys, hlength]
  classical
  rw [← List.toFinset_card_of_nodup h.nodup, ← Set.ncard_coe_finset]
  congr 1
  ext k
  simp

/-- The pair with a key, and those before and after it. -/
lemma Represents.exists_split (h : Represents l f) {k : κ} {v : α} (hv : f k = some v) :
    ∃ a b, l = a ++ (k, v) :: b := List.append_of_mem ((h.mem_iff k v).mpr hv)

/-- The pairs around a pair have other keys. -/
lemma Represents.ne_of_split {a b : List (κ × α)} {k : κ} {v : α}
    (h : Represents (a ++ (k, v) :: b) f) : ∀ p ∈ a ++ b, p.1 ≠ k := by
  have hnodup := h.nodup
  simp only [List.map_append, List.map_cons, List.nodup_append, List.nodup_cons] at hnodup
  obtain ⟨-, ⟨hb, -⟩, ha⟩ := hnodup
  intro p hp
  rcases List.mem_append.mp hp with hp | hp
  · exact ha p.1 (List.mem_map_of_mem hp) k List.mem_cons_self
  · rintro rfl
    exact hb (List.mem_map_of_mem hp)

/-- The pairs before a pair have other keys. -/
lemma Represents.ne_before {a b : List (κ × α)} {k : κ} {v : α}
    (h : Represents (a ++ (k, v) :: b) f) : ∀ p ∈ a, p.1 ≠ k :=
  fun p hp => h.ne_of_split p (List.mem_append_left b hp)

/-- A function with one value has a list of one pair. -/
lemma Represents.eq_singleton (h : Represents l f) {k : κ} {v : α} (hv : f k = some v)
    (hother : ∀ k', k' ≠ k → f k' = none) : l = [(k, v)] := by
  obtain ⟨a, b, rfl⟩ := h.exists_split hv
  have hnone : ∀ p ∈ a ++ b, False := by
    intro p hp
    have hmem : p ∈ a ++ (k, v) :: b := by
      rw [List.mem_append, List.mem_cons]
      exact (List.mem_append.mp hp).imp_right Or.inr
    have := hother p.1 (h.ne_of_split p hp)
    rw [h.eq_some hmem] at this
    cases this
  have hnil : a ++ b = [] := List.eq_nil_iff_forall_not_mem.mpr hnone
  rw [List.append_eq_nil_iff] at hnil
  rw [hnil.1, hnil.2, List.nil_append]

/-- Changing the values of a list of pairs changes the function. -/
lemma Represents.map_values {β : Type*} (h : Represents l f) (g : κ → α → β) :
    Represents (l.map fun p => (p.1, g p.1 p.2)) fun k => (f k).map (g k) where
  nodup := by
    rw [List.map_map]
    exact h.nodup
  mem_iff := by
    intro k v
    simp only [List.mem_map, Prod.mk.injEq, Option.map_eq_some_iff, ← h.mem_iff]
    constructor
    · rintro ⟨p, hp, rfl, rfl⟩
      exact ⟨p.2, hp, rfl⟩
    · rintro ⟨w, hw, rfl⟩
      exact ⟨(k, w), hw, rfl, rfl⟩

section Update

variable [DecidableEq κ]

/-- Replacing the value of a pair. -/
lemma Represents.replace {a b : List (κ × α)} {k : κ} {v : α}
    (h : Represents (a ++ (k, v) :: b) f) (v' : α) :
    Represents (a ++ (k, v') :: b) (Function.update f k (some v')) where
  nodup := by simpa using h.nodup
  mem_iff := by
    intro k' w
    have hne := h.ne_of_split
    rcases eq_or_ne k' k with rfl | hk
    · have ha : (k', w) ∉ a := fun hmem => hne _ (List.mem_append_left b hmem) rfl
      have hb : (k', w) ∉ b := fun hmem => hne _ (List.mem_append_right a hmem) rfl
      simp [ha, hb, eq_comm]
    · rw [Function.update_of_ne hk, ← h.mem_iff]
      simp [hk]

/-- Adding a pair with a new key. -/
lemma Represents.concat (h : Represents l f) {k : κ} (hk : f k = none) (v : α) :
    Represents (l ++ [(k, v)]) (Function.update f k (some v)) where
  nodup := by
    have hnew : k ∉ l.map Prod.fst := by
      rw [h.mem_keys_iff, hk]
      simp
    rw [List.map_append, List.map_singleton, List.nodup_append]
    refine ⟨h.nodup, List.nodup_singleton k, ?_⟩
    intro x hx y hy
    rw [List.mem_singleton.mp hy]
    rintro rfl
    exact hnew hx
  mem_iff := by
    intro k' w
    rcases eq_or_ne k' k with rfl | hne
    · have hnot : (k', w) ∉ l := fun hmem => by simp [h.eq_some hmem] at hk
      simp [hnot, eq_comm]
    · rw [Function.update_of_ne hne, ← h.mem_iff]
      simp [hne]

/-- Removing a pair. -/
lemma Represents.remove {a b : List (κ × α)} {k : κ} {v : α}
    (h : Represents (a ++ (k, v) :: b) f) :
    Represents (a ++ b) (Function.update f k none) where
  nodup := by
    have hsub : (a ++ b).Sublist (a ++ (k, v) :: b) :=
      (List.sublist_cons_self (k, v) b).append_left a
    exact h.nodup.sublist (hsub.map Prod.fst)
  mem_iff := by
    intro k' w
    have hne := h.ne_of_split
    rcases eq_or_ne k' k with rfl | hk
    · rw [Function.update_self]
      exact iff_of_false (fun hmem => hne _ hmem rfl) (by simp)
    · rw [Function.update_of_ne hk, ← h.mem_iff]
      simp [hk]

end Update

/-! ### Parts of the domain -/

variable [DecidableEq ι]

/-- The part of a function on the keys with this index. -/
def restrict (index : κ → ι) (i : ι) (f : κ → Option α) : κ → Option α :=
  fun k => if index k = i then f k else none

variable {index : κ → ι}

lemma restrict_eq_some {i : ι} {k : κ} {v : α} :
    restrict index i f k = some v ↔ index k = i ∧ f k = some v := by
  unfold restrict
  split_ifs with h
  · simp [h]
  · simp [h]

@[simp] lemma restrict_index (index : κ → ι) (f : κ → Option α) (k : κ) :
    restrict index (index k) f k = f k := if_pos rfl

lemma restrict_update_self [DecidableEq κ] (k : κ) (v : Option α) :
    restrict index (index k) (Function.update f k v)
      = Function.update (restrict index (index k) f) k v := by
  funext k'
  rcases eq_or_ne k' k with rfl | hne
  · simp [restrict]
  · simp [restrict, hne]

lemma restrict_update_of_ne [DecidableEq κ] {i : ι} {k : κ} (h : i ≠ index k) (v : Option α) :
    restrict index i (Function.update f k v) = restrict index i f := by
  funext k'
  rcases eq_or_ne k' k with rfl | hne
  · simp [restrict, h.symm]
  · simp [restrict, hne]

/-- Lists for the parts, one after the other, are a list for the whole. -/
lemma Represents.flatMap (index : κ → ι) {is : List ι} (his : is.Nodup)
    (hindex : ∀ k, f k ≠ none → index k ∈ is)
    {part : ι → List (κ × α)} (h : ∀ i ∈ is, Represents (part i) (restrict index i f)) :
    Represents (is.flatMap part) f where
  nodup := by
    rw [List.map_flatMap, List.nodup_flatMap]
    refine ⟨fun i hi => (h i hi).nodup, his.pairwise_of_forall_ne ?_⟩
    intro i hi j hj hij k hk hk'
    obtain ⟨p, hp, rfl⟩ := List.mem_map.mp hk
    obtain ⟨q, hq, hqp⟩ := List.mem_map.mp hk'
    have hpi := (restrict_eq_some.mp ((h i hi).eq_some hp)).1
    have hqj := (restrict_eq_some.mp ((h j hj).eq_some hq)).1
    rw [hqp] at hqj
    exact hij (hpi.symm.trans hqj)
  mem_iff := by
    intro k v
    rw [List.mem_flatMap]
    constructor
    · rintro ⟨i, hi, hmem⟩
      exact (restrict_eq_some.mp ((h i hi).eq_some hmem)).2
    · intro hv
      have hi : index k ∈ is := hindex k (by simp [hv])
      exact ⟨index k, hi, ((h _ hi).mem_iff k v).mpr (restrict_eq_some.mpr ⟨rfl, hv⟩)⟩

/-- Back from the whole to a part. -/
lemma Represents.part (index : κ → ι) {is : List ι} {part : ι → List (κ × α)}
    (hplaced : ∀ i ∈ is, ∀ p ∈ part i, index p.1 = i) (h : Represents (is.flatMap part) f) {i : ι}
    (hi : i ∈ is) : Represents (part i) (restrict index i f) where
  nodup := by
    have hnodup := h.nodup
    rw [List.map_flatMap, List.nodup_flatMap] at hnodup
    exact hnodup.1 i hi
  mem_iff := by
    intro k v
    rw [restrict_eq_some]
    constructor
    · intro hmem
      exact ⟨hplaced i hi _ hmem, h.eq_some (List.mem_flatMap.mpr ⟨i, hi, hmem⟩)⟩
    · rintro ⟨hk, hv⟩
      obtain ⟨j, hj, hmem⟩ := List.mem_flatMap.mp ((h.mem_iff k v).mpr hv)
      have : index k = j := hplaced j hj _ hmem
      rwa [← hk, this]

/-- A list with each key once is the list of a function. -/
lemma exists_represents [DecidableEq κ] (h : (l.map Prod.fst).Nodup) : ∃ f, Represents l f := by
  induction l with
  | nil => exact ⟨_, Represents.nil⟩
  | cons p l ih =>
    rw [List.map_cons, List.nodup_cons] at h
    obtain ⟨f, hf⟩ := ih h.2
    refine ⟨Function.update f p.1 (some p.2), ?_, ?_⟩
    · rw [List.map_cons, List.nodup_cons]
      exact h
    · intro k v
      rcases eq_or_ne k p.1 with rfl | hne
      · have hnot : (p.1, v) ∉ l := by
          intro hmem
          exact h.1 (List.mem_map.mpr ⟨_, hmem, rfl⟩)
        simp [hnot, Prod.ext_iff, eq_comm]
      · rw [Function.update_of_ne hne, ← hf.mem_iff]
        simp [Prod.ext_iff, hne]

end Assoc
