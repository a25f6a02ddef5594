import StationProcessor.Map

/-!
# What a map holds

A map whose arrays are exact holds the partial function its buckets list. `map_get` and `map_put`
read and update it, whatever keys share a bucket; `map_remove` does so for a key that is alone in
its bucket. A pair with others after it cannot be removed, and with the last of several pairs the
one before it is cut off.
-/

namespace StationProcessor

open Assoc

universe u

variable {α : Type u} {plat : MapPlatform} {map : Map α} {f : Bytes → Option α}

/-- The map holds the values of `f`, each in the bucket of its key. -/
structure Map.Stores (plat : MapPlatform) (map : Map α) (f : Bytes → Option α) : Prop where
  exact : ∀ i < map.count, (map.buckets i).Exact
  represents : ∀ i < map.count,
    Represents (map.buckets i).live (restrict (mapIndex plat map.count) i f)

/-- The pairs of a map in the order of its buckets. -/
def Map.entries (map : Map α) : List (Bytes × α) :=
  (List.range map.count).flatMap fun i => (map.buckets i).live

lemma mapIndex_lt (plat : MapPlatform) (map : Map α) (key : Bytes) :
    mapIndex plat map.count key < map.count := Nat.mod_lt _ map.count_pos

lemma Map.Stores.entries (h : map.Stores plat f) : Represents map.entries f := by
  refine Represents.flatMap (mapIndex plat map.count) List.nodup_range (fun k _ => ?_)
    fun i hi => ?_
  · exact List.mem_range.mpr (mapIndex_lt plat map k)
  · exact h.represents i (List.mem_range.mp hi)

/-- The bucket of a key, for a map that holds `f`. -/
lemma Map.Stores.bucket (h : map.Stores plat f) (key : Bytes) :
    (map.buckets (mapIndex plat map.count key)).Exact ∧
      Represents (map.buckets (mapIndex plat map.count key)).live
        (restrict (mapIndex plat map.count) (mapIndex plat map.count key) f) :=
  ⟨h.exact _ (mapIndex_lt plat map key), h.represents _ (mapIndex_lt plat map key)⟩

/-- A bucket without the key. -/
lemma Map.Stores.absent (h : map.Stores plat f) {key : Bytes} (hkey : f key = none) :
    ∀ p ∈ (map.buckets (mapIndex plat map.count key)).live, p.1 ≠ key := by
  rintro p hp rfl
  have := (h.bucket p.1).2.eq_some hp
  rw [restrict_index, hkey] at this
  cases this

/-- A bucket with the key is an array around its pair. -/
lemma Map.Stores.present (h : map.Stores plat f) {key : Bytes} {v : α} (hv : f key = some v) :
    ∃ a b, map.buckets (mapIndex plat map.count key)
        = ⟨a.length + (b.length + 1), a ++ (key, v) :: b⟩ ∧
      Represents (a ++ (key, v) :: b)
        (restrict (mapIndex plat map.count) (mapIndex plat map.count key) f) := by
  obtain ⟨hexact, hrep⟩ := h.bucket key
  have hvalue :
      restrict (mapIndex plat map.count) (mapIndex plat map.count key) f key = some v := by
    rw [restrict_index, hv]
  obtain ⟨a, b, hlive⟩ := hrep.exists_split hvalue
  have heq := hexact.eq_of_live_ne_nil (by simp [hlive])
  rw [hlive] at heq hrep
  exact ⟨a, b, by simpa using heq, hrep⟩

/-- Only the bucket of one key changes, and there the function. -/
lemma Map.Stores.setBucket (h : map.Stores plat f) {key : Bytes} {v : Option α}
    {bucket : Bucket α} (hexact : bucket.Exact)
    (hrep : Represents bucket.live (Function.update
      (restrict (mapIndex plat map.count) (mapIndex plat map.count key) f) key v)) :
    (map.setBucket (mapIndex plat map.count key) bucket).Stores plat
      (Function.update f key v) where
  exact i hi := by
    rcases eq_or_ne i (mapIndex plat map.count key) with rfl | hne
    · simpa [Map.setBucket] using hexact
    · simpa [Map.setBucket, hne] using h.exact i hi
  represents i hi := by
    rcases eq_or_ne i (mapIndex plat map.count key) with rfl | hne
    · simpa [Map.setBucket, restrict_update_self] using hrep
    · simpa [Map.setBucket, hne, restrict_update_of_ne hne] using h.represents i hi

/-! ### The operations -/

/-- A new map is empty. -/
lemma mapNew_stores (plat : MapPlatform) {capacity : ℕ} (hcap : 0 < capacity) :
    (mapNew capacity hcap : Map α).Stores plat fun _ => none where
  exact _ _ := fun h => absurd rfl h
  represents i _ := by
    have hnone : restrict (mapIndex plat capacity) i (fun _ => (none : Option α))
        = fun _ => none := by
      funext k
      simp [restrict]
    show Represents [] (restrict (mapIndex plat capacity) i _)
    rw [hnone]
    exact Represents.nil

/-- `map_get` finds the value of a key. -/
lemma Map.Stores.mapGet (h : map.Stores plat f) (key : Bytes) :
    mapGet plat map key = .ok (f key) := by
  unfold StationProcessor.mapGet
  cases hv : f key with
  | none =>
    rw [(h.bucket key).1.getPair_absent (h.absent hv)]
    rfl
  | some v =>
    obtain ⟨a, b, hbucket, hrep⟩ := h.present hv
    rw [hbucket, getPair_present hrep.ne_before rfl]
    rfl

/-- `map_put` sets the value of a key. -/
lemma Map.Stores.mapPut (h : map.Stores plat f) (key : Bytes) (value : α) :
    ∃ map', mapPut plat map key value = .ok map' ∧ map'.count = map.count ∧
      map'.Stores plat (Function.update f key (some value)) := by
  cases hv : f key with
  | some v =>
    obtain ⟨a, b, hbucket, hrep⟩ := h.present hv
    have hfound : getPair (map.buckets (mapIndex plat map.count key)) key
        = .ok (some (a.length, v)) := by
      rw [hbucket]
      exact getPair_present hrep.ne_before rfl
    refine ⟨_, mapPut_of_found hfound value, rfl, h.setBucket ?_ ?_⟩
    · rw [hbucket]
      intro _
      simp
    · rw [hbucket, live_of_length (by simp)]
      simpa using hrep.replace value
  | none =>
    obtain ⟨hexact, hrep⟩ := h.bucket key
    obtain ⟨bucket, hput, hexact', hlive⟩ :=
      mapPut_of_new (hexact.getPair_absent (h.absent hv)) hexact value
    refine ⟨_, hput, rfl, h.setBucket hexact' ?_⟩
    rw [hlive]
    exact hrep.concat (by rw [restrict_index, hv]) value

/-- A key shares its bucket with no other key the map holds. -/
def Alone (index : Bytes → ℕ) (f : Bytes → Option α) (key : Bytes) : Prop :=
  f key ≠ none → ∀ key', key' ≠ key → f key' ≠ none → index key' ≠ index key

/-- The bucket of such a key has its pair only. -/
lemma Map.Stores.alone (h : map.Stores plat f) {key : Bytes} {v : α} (hv : f key = some v)
    (halone : Alone (mapIndex plat map.count) f key) :
    map.buckets (mapIndex plat map.count key) = ⟨1, [(key, v)]⟩ := by
  obtain ⟨hexact, hrep⟩ := h.bucket key
  have hlive := hrep.eq_singleton (k := key) (v := v) (by rw [restrict_index, hv]) (by
    intro key' hne
    by_contra hsome
    obtain ⟨v', hv'⟩ := Option.ne_none_iff_exists'.mp hsome
    obtain ⟨hindex, hv'⟩ := restrict_eq_some.mp hv'
    exact halone (by simp [hv]) key' hne (by simp [hv']) hindex)
  have heq := hexact.eq_of_live_ne_nil (by simp [hlive])
  rw [heq, hlive]
  rfl

/-- A key of the map is alone exactly when its bucket counts one pair. -/
lemma Map.Stores.length_live_iff (h : map.Stores plat f) {key : Bytes} {v : α}
    (hv : f key = some v) :
    (map.buckets (mapIndex plat map.count key)).live.length = 1
      ↔ Alone (mapIndex plat map.count) f key := by
  constructor
  · intro hlength _ key' hne hkey' hindex
    obtain ⟨v', hv'⟩ := Option.ne_none_iff_exists'.mp hkey'
    have hrep := (h.bucket key).2
    have hmem := (hrep.mem_iff key v).mpr (by rw [restrict_index, hv])
    have hmem' := (hrep.mem_iff key' v').mpr (restrict_eq_some.mpr ⟨hindex, hv'⟩)
    obtain ⟨p, hp⟩ := List.length_eq_one_iff.mp hlength
    rw [hp, List.mem_singleton] at hmem hmem'
    rw [← hmem, Prod.mk.injEq] at hmem'
    exact hne hmem'.1
  · intro halone
    rw [h.alone hv halone]
    rfl

/-- `map_remove` on a key that is not there. -/
lemma Map.Stores.mapRemove_absent (h : map.Stores plat f) {key : Bytes} (hkey : f key = none) :
    ∃ map', mapRemove plat map key = .ok (map', false) ∧ map'.count = map.count ∧
      map'.Stores plat f := by
  obtain ⟨hexact, hrep⟩ := h.bucket key
  obtain ⟨bucket', hremove, hexact', hlive⟩ := hexact.removePair_absent (h.absent hkey) plat
  refine ⟨map.setBucket (mapIndex plat map.count key) bucket', ?_, rfl, ?_⟩
  · rw [mapRemove, hremove]
    rfl
  · have hsame : Function.update f key none = f := by
      rw [← hkey, Function.update_eq_self]
    rw [← hsame]
    refine h.setBucket hexact' ?_
    rw [hlive]
    have hnone : restrict (mapIndex plat map.count) (mapIndex plat map.count key) f key = none := by
      rw [restrict_index, hkey]
    rw [← hnone, Function.update_eq_self]
    exact hrep

/-- `map_remove` on a key that is alone in its bucket. -/
lemma Map.Stores.mapRemove_alone (h : map.Stores plat f) {key : Bytes} {v : α}
    (hv : f key = some v) (halone : Alone (mapIndex plat map.count) f key) :
    ∃ map', mapRemove plat map key = .ok (map', true) ∧ map'.count = map.count ∧
      map'.Stores plat (Function.update f key none) := by
  have hbucket := h.alone hv halone
  refine ⟨map.setBucket (mapIndex plat map.count key) ⟨0, [(key, v)]⟩, ?_, rfl, ?_⟩
  · rw [mapRemove, hbucket, removePair_alone]
    rfl
  · refine h.setBucket (fun hne => absurd rfl hne) ?_
    have hrep := (h.bucket key).2
    rw [hbucket] at hrep
    exact hrep.remove (a := []) (b := []) (v := v)

end StationProcessor
