import Mathlib.Data.List.Basic
import Mathlib.Data.List.Nodup
import Mathlib.Tactic

/-!
# Entries that are merged by their key

A list of entries takes items one after the other: an item is merged into the entry with its key,
or becomes an entry. After any sequence of items there is one entry for each key among them, the
one that the items with this key come to by themselves. So it does not matter how items with
different keys alternate.
-/

namespace Upserts

variable {α κ : Type*} [DecidableEq κ] (key : α → κ) (merge : α → α → α)

/-- Merge an item into the entries with its key, or add it in front. -/
def upsert (entries : List α) (a : α) : List α :=
  if entries.any (key · = key a) then
    entries.map fun e => if key e = key a then merge e a else e
  else a :: entries

/-- What items of one key come to. -/
def outcome : List α → Option α
  | [] => none
  | a :: items => some (items.foldl merge a)

lemma outcome_append_singleton (items : List α) (a : α) :
    outcome merge (items ++ [a]) = some ((outcome merge items).elim a (merge · a)) := by
  cases items with
  | nil => rfl
  | cons b items => simp [outcome, List.foldl_append]

variable {key merge}

/-- Merging keeps the key of the entry. -/
def KeepsKey (key : α → κ) (merge : α → α → α) : Prop := ∀ e a, key (merge e a) = key e

lemma key_updated (hkeep : KeepsKey key merge) (e a : α) :
    key (if key e = key a then merge e a else e) = key e := by
  split_ifs
  · exact hkeep e a
  · rfl

/-- The keys of the entries after an item. -/
lemma map_key_upsert (hkeep : KeepsKey key merge) (entries : List α) (a : α) :
    (upsert key merge entries a).map key
      = if key a ∈ entries.map key then entries.map key else key a :: entries.map key := by
  have hany : entries.any (key · = key a) = true ↔ key a ∈ entries.map key := by
    simp [List.any_eq_true]
  unfold upsert
  by_cases hmem : key a ∈ entries.map key
  · rw [if_pos (hany.mpr hmem), if_pos hmem, List.map_map]
    exact List.map_congr_left fun e _ => key_updated hkeep e a
  · rw [if_neg fun h => hmem (hany.mp h), if_neg hmem, List.map_cons]

lemma nodup_upsert (hkeep : KeepsKey key merge) {entries : List α}
    (h : (entries.map key).Nodup) (a : α) : ((upsert key merge entries a).map key).Nodup := by
  rw [map_key_upsert hkeep]
  split_ifs with hmem
  · exact h
  · exact List.nodup_cons.mpr ⟨hmem, h⟩

/-- An item leaves the entries with other keys alone. -/
lemma mem_upsert_of_ne (hkeep : KeepsKey key merge) {entries : List α} {a e : α}
    (hne : key e ≠ key a) : e ∈ upsert key merge entries a ↔ e ∈ entries := by
  unfold upsert
  split_ifs
  · rw [List.mem_map]
    constructor
    · rintro ⟨e', he', rfl⟩
      have hother : key e' ≠ key a := fun heq => hne ((key_updated hkeep e' a).trans heq)
      rwa [if_neg hother]
    · exact fun he => ⟨e, he, if_neg hne⟩
  · rw [List.mem_cons]
    exact or_iff_right fun heq => hne (congrArg key heq)

/-- The entries of a list are the outcomes of its items, one for each key. -/
def Outcomes (key : α → κ) (merge : α → α → α) (items entries : List α) : Prop :=
  ∀ e, e ∈ entries ↔ outcome merge (items.filter (key · = key e)) = some e

lemma filter_append_of_ne {items : List α} {a : α} {k : κ} (hne : k ≠ key a) :
    (items ++ [a]).filter (key · = k) = items.filter (key · = k) := by
  simp [List.filter_append, hne.symm]

lemma filter_append_of_eq {items : List α} {a : α} :
    (items ++ [a]).filter (key · = key a) = items.filter (key · = key a) ++ [a] := by
  simp [List.filter_append]

omit [DecidableEq κ] in
lemma key_foldl (hkeep : KeepsKey key merge) (items : List α) (a : α) :
    key (items.foldl merge a) = key a := by
  induction items generalizing a with
  | nil => rfl
  | cons b items ih => rw [List.foldl_cons, ih, hkeep]

/-- What items of one key come to has that key. -/
lemma key_outcome (hkeep : KeepsKey key merge) {items : List α} {k : κ} {o : α}
    (h : outcome merge (items.filter (key · = k)) = some o) : key o = k := by
  cases hitems : items.filter (key · = k) with
  | nil => simp [hitems, outcome] at h
  | cons a rest =>
    have ha : a ∈ items.filter (key · = k) := hitems ▸ List.mem_cons_self
    rw [hitems, outcome, Option.some_inj] at h
    rw [← h, key_foldl hkeep]
    simpa using (List.mem_filter.mp ha).2

namespace Outcomes

variable {items entries : List α}

lemma nil : Outcomes key merge [] [] := by simp [Outcomes, outcome]

/-- The entries with the key of an item, where there are none yet. -/
lemma mem_upsert_of_none (h : Outcomes key merge items entries) {a e : α} (heq : key e = key a)
    (hnone : outcome merge (items.filter (key · = key a)) = none) :
    e ∈ upsert key merge entries a ↔ e = a := by
  have hnew : ∀ e' ∈ entries, key e' ≠ key a := by
    intro e' he' hkey
    have hsome := (h e').mp he'
    rw [hkey, hnone] at hsome
    cases hsome
  have hany : ¬ entries.any (key · = key a) = true := by simpa [List.any_eq_true] using hnew
  rw [upsert, if_neg hany, List.mem_cons]
  exact or_iff_left fun he => hnew e he heq

/-- The entries with the key of an item, where there is one. -/
lemma mem_upsert_of_some (hkeep : KeepsKey key merge) (h : Outcomes key merge items entries)
    {a e o : α} (heq : key e = key a) (ho : outcome merge (items.filter (key · = key a)) = some o) :
    e ∈ upsert key merge entries a ↔ e = merge o a := by
  have hkey : key o = key a := key_outcome hkeep ho
  have hmem : o ∈ entries := (h o).mpr (hkey.symm ▸ ho)
  have hany : entries.any (key · = key a) = true :=
    List.any_eq_true.mpr ⟨o, hmem, decide_eq_true hkey⟩
  rw [upsert, if_pos hany, List.mem_map]
  constructor
  · rintro ⟨e', he', rfl⟩
    have hkey' : key e' = key a := (key_updated hkeep e' a).symm.trans heq
    have hsame := (h e').mp he'
    rw [hkey', ho, Option.some_inj] at hsame
    rw [if_pos hkey', hsame]
  · rintro rfl
    exact ⟨o, hmem, if_pos hkey⟩

/-- Taking an item keeps the entries the outcomes of the items. -/
lemma upsert (hkeep : KeepsKey key merge) (h : Outcomes key merge items entries) (a : α) :
    Outcomes key merge (items ++ [a]) (upsert key merge entries a) := by
  intro e
  by_cases heq : key e = key a
  · rw [heq, filter_append_of_eq, outcome_append_singleton, Option.some_inj]
    cases ho : outcome merge (items.filter (key · = key a)) with
    | none => exact (h.mem_upsert_of_none heq ho).trans eq_comm
    | some o => exact (h.mem_upsert_of_some hkeep heq ho).trans eq_comm
  · rw [mem_upsert_of_ne hkeep heq, h e, filter_append_of_ne heq]

/-- There is an entry for each key among the items. -/
lemma exists_iff (hkeep : KeepsKey key merge) (h : Outcomes key merge items entries) (k : κ) :
    (∃ e ∈ entries, key e = k) ↔ ∃ a ∈ items, key a = k := by
  constructor
  · rintro ⟨e, he, rfl⟩
    have hsome := (h e).mp he
    cases hitems : items.filter (key · = key e) with
    | nil => simp [hitems, outcome] at hsome
    | cons a rest =>
      have ha : a ∈ items.filter (key · = key e) := hitems ▸ List.mem_cons_self
      exact ⟨a, (List.mem_filter.mp ha).1, by simpa using (List.mem_filter.mp ha).2⟩
  · rintro ⟨a, ha, rfl⟩
    cases ho : outcome merge (items.filter (key · = key a)) with
    | none =>
      have hmem : a ∈ items.filter (key · = key a) := List.mem_filter.mpr ⟨ha, by simp⟩
      cases hitems : items.filter (key · = key a) with
      | nil => simp [hitems] at hmem
      | cons b rest => simp [hitems, outcome] at ho
    | some o =>
      have hkey : key o = key a := key_outcome hkeep ho
      exact ⟨o, (h o).mpr (hkey.symm ▸ ho), hkey⟩

end Outcomes

/-- After any items, the entries are the outcomes of the items with their keys, one for each. -/
theorem foldl_upsert (hkeep : KeepsKey key merge) (items : List α) :
    Outcomes key merge items (items.foldl (upsert key merge) []) ∧
      ((items.foldl (upsert key merge) []).map key).Nodup := by
  induction items using List.reverseRecOn with
  | nil => exact ⟨Outcomes.nil, List.nodup_nil⟩
  | append_singleton items a ih =>
    rw [List.foldl_append]
    exact ⟨ih.1.upsert hkeep a, nodup_upsert hkeep ih.2 a⟩

end Upserts
