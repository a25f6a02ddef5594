import StationProcessor.MapEnum

/-!
# A map as a partial function

What the reading operations of a map should give, after an enumeration whose callback removes
entries, and along a sequence of calls to `map_put` and `map_remove` on a new map. Both hold
exactly as long as every key that is removed is alone in its bucket.
-/

namespace StationProcessor

open Assoc Fallible

universe u

variable {α : Type u} {plat : MapPlatform} {map : Map α} {f : Bytes → Option α}

/-! ### Reading a map -/

/-- A callback that leaves every entry as it is. -/
def lookAt (s : PUnit.{u + 1}) (_ : Bytes) (value : α) : PUnit.{u + 1} × Option α := (s, some value)

/-- What the operations that only read the map give is what `f` has: `map_get` the value of each
key, `map_get_count` the number of keys, and `map_enum` each of them once. -/
structure Map.Refines (plat : MapPlatform) (map : Map α) (f : Bytes → Option α) : Prop where
  get : ∀ key, mapGet plat map key = .ok (f key)
  count : mapGetCount map = {key | f key ≠ none}.ncard
  enum : ∃ map' s visited, mapEnum plat lookAt map ⟨⟩ = .ok (map', s, visited) ∧
    Represents (visited.map fun x => (x.1, x.2.1)) f

lemma entriesFrom_zero (map : Map α) : map.entriesFrom 0 map.count = map.entries := by
  rw [Map.entriesFrom, Map.entries, List.range_eq_range']

lemma visitAll_lookAt (s : PUnit.{u + 1}) (l : List (Bytes × α)) :
    ∀ x ∈ (visitAll lookAt s l).2, x.2.2 ≠ none := by
  induction l generalizing s with
  | nil => simp [visitAll]
  | cons p l ih =>
    intro x hx
    simp only [visitAll, lookAt, List.mem_cons] at hx
    rcases hx with rfl | hx
    · simp
    · exact ih s x hx

lemma Map.Stores.count (h : map.Stores plat f) : mapGetCount map = map.entries.length := by
  rw [mapGetCount, Map.entries, List.length_flatMap]
  congr 1
  apply List.map_congr_left
  intro i hi
  exact (h.exact i (List.mem_range.mp hi)).length_live.symm

/-- What a map holds is what its operations read. -/
theorem Map.Stores.refines (h : map.Stores plat f) : map.Refines plat f where
  get := h.mapGet
  count := by rw [h.count, h.entries.length_eq]
  enum := by
    have hkeep : RemovedAlone plat map
        (visitAll lookAt ⟨⟩ (map.entriesFrom 0 map.count)).2 := by
      intro x hx hnone
      exact absurd hnone (visitAll_lookAt _ _ x hx)
    obtain ⟨map', hok, -⟩ := enumFrom_good (fun i _ hi => h.sound (by omega)) hkeep
    refine ⟨map', _, _, hok, ?_⟩
    rw [visitAll_entries, entriesFrom_zero]
    exact h.entries

/-! ### A bucket that counts too many pairs -/

/-- Looking at a pair changes nothing. -/
lemma enumBucket_lookAt_succ {i j : ℕ} {pair : Bytes × α} (h : (map.buckets i).at j = .ok pair)
    (m : ℕ) (s : PUnit.{u + 1}) : enumBucket plat lookAt i (m + 1) j map s
      = (enumBucket plat lookAt i m (j + 1) map s).map fun r =>
          (r.1, r.2.1, (pair.1, pair.2, some pair.2) :: r.2.2) := by
  have hset : (map.buckets i).pairs.set j pair = (map.buckets i).pairs := by
    rw [Bucket.at] at h
    cases hget : (map.buckets i).pairs[j]? with
    | none => simp [hget] at h
    | some p =>
      obtain ⟨hj, hp⟩ := List.getElem?_eq_some_iff.mp hget
      rw [hget, Except.ok.injEq] at h
      rw [← h, ← hp, List.set_getElem_self]
  have hsame : applyOutcome plat map i j pair.1 (some pair.2) = .ok map := by
    rw [applyOutcome, Prod.mk.eta, hset, setBucket_buckets]
  rw [enumBucket, h, ok_bind]
  simp only [lookAt, hsame, ok_bind]
  cases enumBucket plat lookAt i m (j + 1) map s <;> rfl

lemma enumBucket_lookAt {i m j : ℕ} {s : PUnit.{u + 1}}
    {r : Map α × PUnit.{u + 1} × List (Bytes × α × Option α)}
    (h : enumBucket plat lookAt i m j map s = .ok r) : r.1 = map := by
  induction m generalizing j r with
  | zero =>
    cases h
    rfl
  | succ m ih =>
    cases hpair : (map.buckets i).at j with
    | error e =>
      rw [enumBucket, hpair] at h
      cases h
    | ok pair =>
      rw [enumBucket_lookAt_succ hpair] at h
      cases hrest : enumBucket plat lookAt i m (j + 1) map s with
      | error e =>
        rw [hrest] at h
        cases h
      | ok r' =>
        rw [hrest, Except.map, Except.ok.injEq] at h
        rw [← h]
        exact (ih hrest :)

/-- The inner loop of `map_enum` goes on reading behind the end of the array. -/
lemma enumBucket_short {i m j : ℕ} {s : PUnit.{u + 1}} (hj : j ≤ (map.buckets i).pairs.length)
    (hshort : (map.buckets i).pairs.length < j + m) :
    enumBucket plat lookAt i m j map s = .error .outside := by
  induction m generalizing j with
  | zero => exact absurd hshort (by simpa using hj)
  | succ m ih =>
    rcases hj.eq_or_lt with rfl | hlt
    · rw [enumBucket, at_of_length_le le_rfl]
      rfl
    · have hpair : (map.buckets i).at j = .ok (map.buckets i).pairs[j] := by
        simp [Bucket.at, hlt]
      rw [enumBucket_lookAt_succ hpair, ih hlt (by omega)]
      rfl

variable (plat) in
lemma enumFrom_short {m i j : ℕ} {s : PUnit.{u + 1}} (hi : i ≤ j) (hj : j < i + m)
    (hshort : (map.buckets j).Short) :
    ∃ e, enumFrom plat lookAt m i map s = .error e := by
  induction m generalizing i s with
  | zero => omega
  | succ m ih =>
    cases hbucket : enumBucket plat lookAt i (map.buckets i).count 0 map s with
    | error e => exact ⟨e, enumFrom_of_error hbucket⟩
    | ok r =>
      rcases hi.eq_or_lt with rfl | hlt
      · -- the short bucket itself
        rw [enumBucket_short (Nat.zero_le _) (by simpa [Bucket.Short] using hshort)] at hbucket
        cases hbucket
      · obtain ⟨e, herror⟩ := ih (s := r.2.1) hlt (by omega)
        rw [← enumBucket_lookAt hbucket] at herror
        exact ⟨e, by rw [enumFrom_of_ok hbucket, enumBucket_lookAt hbucket] at *; rw [herror]; rfl⟩

/-- A map with such a bucket is no partial function. -/
theorem not_refines_of_short {i : ℕ} (hi : i < map.count) (hshort : (map.buckets i).Short) :
    ¬map.Refines plat f := by
  intro h
  obtain ⟨map', s, visited, hok, -⟩ := h.enum
  obtain ⟨e, herror⟩ := enumFrom_short plat (m := map.count) (s := ⟨⟩) (Nat.zero_le i)
    (by simpa using hi) hshort
  rw [mapEnum, herror] at hok
  cases hok

/-- Removing a key that shares its bucket reads outside the array of the bucket, or leaves the
bucket counting too many pairs. -/
lemma Map.Stores.mapRemove_shared (h : map.Stores plat f) {key : Bytes}
    (hshared : ¬Alone (mapIndex plat map.count) f key) :
    mapRemove plat map key = .error .outside ∨
      ∃ map', mapRemove plat map key = .ok (map', true) ∧
        ∃ i < map'.count, (map'.buckets i).Short := by
  simp only [Alone, not_forall, not_not] at hshared
  obtain ⟨hkey, key', hne, hkey', hindex⟩ := hshared
  obtain ⟨v, hv⟩ := Option.ne_none_iff_exists'.mp hkey
  obtain ⟨v', hv'⟩ := Option.ne_none_iff_exists'.mp hkey'
  obtain ⟨a, b, hbucket, hrep⟩ := h.present hv
  rw [mapRemove, hbucket]
  by_cases hb : b = []
  · subst hb
    have ha : a ≠ [] := by
      rintro rfl
      have hmem : (key', v') ∈ [(key, v)] :=
        (hrep.mem_iff key' v').mpr (restrict_eq_some.mpr ⟨hindex, hv'⟩)
      rw [List.mem_singleton, Prod.mk.injEq] at hmem
      exact hne hmem.1
    rw [removePair_last plat hrep.ne_before ha (by simp)]
    refine Or.inr ⟨_, rfl, mapIndex plat map.count key, mapIndex_lt plat map key, ?_⟩
    have hlength := List.length_pos_iff.mpr ha
    simpa [Bucket.Short] using hlength
  · rw [removePair_inside plat hrep.ne_before hb rfl]
    exact Or.inl rfl

/-! ### Enumerations -/

section Enum

variable {σ : Type u} {visit : σ → Bytes → α → σ × Option α}

/-- The callback is called once for each entry there was at the start, in any order, and
afterwards the map holds just the entries that were not removed. -/
def EnumKeeps (plat : MapPlatform) (visit : σ → Bytes → α → σ × Option α) (map : Map α)
    (f : Bytes → Option α) (s : σ) : Prop :=
  ∃ map' s' visited f', mapEnum plat visit map s = .ok (map', s', visited) ∧
    Represents (visited.map fun x => (x.1, x.2.1)) f ∧
    Represents (kept visited) f' ∧ map'.Refines plat f'

/-- What an enumeration leaves that removes only entries that are alone. -/
lemma Map.Stores.enum (h : map.Stores plat f) {s : σ}
    (halone : RemovedAlone plat map (visitAll visit s map.entries).2) :
    ∃ map' f', mapEnum plat visit map s = .ok (map', visitAll visit s map.entries) ∧
      map'.count = map.count ∧ Represents (kept (visitAll visit s map.entries).2) f' ∧
      map'.Stores plat f' := by
  rw [← entriesFrom_zero] at halone
  obtain ⟨map', hok, hdone⟩ := enumFrom_good (fun i _ hi => h.sound (by omega)) halone
  rw [entriesFrom_zero] at hok hdone
  have hnodup : ((kept (visitAll visit s map.entries).2).map Prod.fst).Nodup :=
    h.entries.nodup.sublist (kept_visitAll_keys_sublist s map.entries)
  obtain ⟨f', hf'⟩ := exists_represents hnodup
  refine ⟨map', f', hok, hdone.count, hf', fun i hi => ?_, fun i hi => ?_⟩
  · exact hdone.exact i (Nat.zero_le i) (by simpa [hdone.count] using hi)
  · rw [hdone.count] at hi ⊢
    have hall : Represents ((List.range map.count).flatMap fun j => (map'.buckets j).live) f' := by
      have hentries := hdone.entries
      rw [Map.entriesFrom, ← List.range_eq_range'] at hentries
      rw [hentries]
      exact hf'
    refine hall.part (mapIndex plat map.count) (fun j hj => ?_) (List.mem_range.mpr hi)
    exact hdone.placed j (Nat.zero_le j) (by simpa using hj)

/-- A map that is still one after an enumeration lost only entries that were alone. -/
lemma Map.Stores.removedAlone_of_refines (h : map.Stores plat f) {s s' : σ} {map' : Map α}
    {visited : List (Bytes × α × Option α)} {g : Bytes → Option α}
    (hok : mapEnum plat visit map s = .ok (map', s', visited)) (hrefines : map'.Refines plat g) :
    RemovedAlone plat map (visitAll visit s map.entries).2 := by
  by_contra hbad
  rw [← entriesFrom_zero] at hbad
  rcases enumFrom_bad (fun i _ hi => h.sound (by omega)) hbad with
    herror | ⟨r, hok', hcount, i, -, hi, hshort⟩
  · rw [mapEnum, herror] at hok
    cases hok
  · rw [mapEnum, hok'] at hok
    cases hok
    have hcount' : map'.count = map.count := hcount
    exact not_refines_of_short (by simpa [hcount'] using hi) hshort hrefines

/-- An enumeration keeps the map exactly when the entries it removes are alone in their buckets. -/
lemma Map.Stores.enumKeeps_iff (h : map.Stores plat f) (s : σ) :
    EnumKeeps plat visit map f s ↔ RemovedAlone plat map (visitAll visit s map.entries).2 := by
  constructor
  · rintro ⟨map', s', visited, f', hok, -, -, hrefines⟩
    exact h.removedAlone_of_refines hok hrefines
  · intro halone
    obtain ⟨map', f', hok, -, hkept, hstores⟩ := h.enum halone
    refine ⟨map', _, _, f', hok, ?_, hkept, hstores.refines⟩
    rw [visitAll_entries]
    exact h.entries

end Enum

/-! ### Sequences of calls -/

inductive MapCall (α : Type u)
  | put (key : Bytes) (value : α)
  | remove (key : Bytes)

/-- A call to the map. -/
def MapCall.run (plat : MapPlatform) (map : Map α) : MapCall α → Except Violation (Map α)
  | .put key value => mapPut plat map key value
  | .remove key => do
    let (map, _) ← mapRemove plat map key
    return map

/-- What the call does to a partial function. -/
def MapCall.apply (f : Bytes → Option α) : MapCall α → Bytes → Option α
  | .put key value => Function.update f key (some value)
  | .remove key => Function.update f key none

/-- The map is the partial function before and after every call, and no call violates an
array. -/
def FollowsMap (plat : MapPlatform) (map : Map α) (f : Bytes → Option α) : List (MapCall α) → Prop
  | [] => map.Refines plat f
  | call :: calls => map.Refines plat f ∧
      ∃ map', call.run plat map = .ok map' ∧ FollowsMap plat map' (call.apply f) calls

/-- A removed key is alone in its bucket. -/
def MapCall.Safe (index : Bytes → ℕ) (f : Bytes → Option α) : MapCall α → Prop
  | .put _ _ => True
  | .remove key => Alone index f key

/-- Every key is alone in its bucket when it is removed. -/
def RemovesAlone (index : Bytes → ℕ) (f : Bytes → Option α) : List (MapCall α) → Prop
  | [] => True
  | call :: calls => call.Safe index f ∧ RemovesAlone index (call.apply f) calls

/-- A call that removes nothing shared leads to the map of the new function. -/
lemma Map.Stores.run_of_safe (h : map.Stores plat f) {call : MapCall α}
    (hsafe : call.Safe (mapIndex plat map.count) f) :
    ∃ map', call.run plat map = .ok map' ∧ map'.count = map.count ∧
      map'.Stores plat (call.apply f) := by
  cases call with
  | put key value => exact h.mapPut key value
  | remove key =>
    cases hv : f key with
    | none =>
      obtain ⟨map', hok, hcount, hstores⟩ := h.mapRemove_absent hv
      have hsame : Function.update f key none = f := by rw [← hv, Function.update_eq_self]
      refine ⟨map', by rw [MapCall.run, hok]; rfl, hcount, ?_⟩
      rwa [MapCall.apply, hsame]
    | some v =>
      obtain ⟨map', hok, hcount, hstores⟩ := h.mapRemove_alone hv hsafe
      exact ⟨map', by rw [MapCall.run, hok]; rfl, hcount, hstores⟩

/-- No other call does. -/
lemma Map.Stores.run_of_not_safe (h : map.Stores plat f) {call : MapCall α}
    (hshared : ¬call.Safe (mapIndex plat map.count) f) {map' : Map α}
    (hrun : call.run plat map = .ok map') : ∀ g, ¬map'.Refines plat g := by
  intro g
  cases call with
  | put key value => exact absurd trivial hshared
  | remove key =>
    rcases h.mapRemove_shared hshared with herror | ⟨map₁, hok, i, hi, hshort⟩
    · rw [MapCall.run, herror] at hrun
      cases hrun
    · rw [MapCall.run, hok] at hrun
      cases hrun
      exact not_refines_of_short hi hshort

lemma FollowsMap.refines {calls : List (MapCall α)} (h : FollowsMap plat map f calls) :
    map.Refines plat f := by
  cases calls with
  | nil => exact h
  | cons call calls => exact h.1

lemma Map.Stores.follows_iff (h : map.Stores plat f) (calls : List (MapCall α)) :
    FollowsMap plat map f calls ↔ RemovesAlone (mapIndex plat map.count) f calls := by
  induction calls generalizing map f with
  | nil => exact iff_of_true h.refines trivial
  | cons call calls ih =>
    by_cases hsafe : call.Safe (mapIndex plat map.count) f
    · obtain ⟨map', hrun, hcount, hstores⟩ := h.run_of_safe hsafe
      simp only [FollowsMap, RemovesAlone, hsafe, true_and, h.refines, hrun, Except.ok.injEq,
        exists_eq_left', ih hstores, hcount]
    · refine iff_of_false ?_ fun hall => hsafe hall.1
      rintro ⟨-, map', hrun, hfollows⟩
      exact h.run_of_not_safe hsafe hrun _ hfollows.refines

/-- The map follows the partial function exactly when every key that is removed is alone in its
bucket. -/
theorem map_follows_iff {capacity : ℕ} (hcap : 0 < capacity) (calls : List (MapCall α)) :
    FollowsMap plat (mapNew capacity hcap) (fun _ => none) calls
      ↔ RemovesAlone (mapIndex plat capacity) (fun _ => none) calls :=
  (mapNew_stores plat hcap).follows_iff calls

/-! ### Two keys of one bucket -/

/-- The keys of two disk loops that share a bucket of `pDiskLoops`. -/
def shortKey : Bytes := ascii "ANMO-00-VHE"

def logKey : Bytes := ascii "ANMO-10-LOG"

/-- A third key that has a bucket for itself is removed beside them. -/
theorem map_follows_iff_beside :
    FollowsMap hostMap (mapNew 256 (by decide)) (fun _ => none)
      [.put shortKey 1, .put logKey 2, .put (ascii "ANMO-00-BHZ") 3, .put logKey 4,
        .remove (ascii "ANMO-00-BHZ"), .remove (ascii "ANMO-00-BHZ")] := by
  refine (map_follows_iff (by decide) _).mpr
    ⟨trivial, trivial, trivial, trivial, ?_, ?_, trivial⟩
  · intro _ key hne hput
    have hkey : key = logKey ∨ key = shortKey := by
      by_contra hother
      rw [not_or] at hother
      simp [MapCall.apply, hne, hother] at hput
    rcases hkey with rfl | rfl
    · decide
    · decide
  · intro hput
    simp [MapCall.apply] at hput

/-- Neither of two keys in one bucket can be removed. -/
theorem map_not_follows :
    ¬FollowsMap hostMap (mapNew 256 (by decide)) (fun _ => none)
        [.put shortKey 1, .put logKey 2, .remove shortKey] ∧
      ¬FollowsMap hostMap (mapNew 256 (by decide)) (fun _ => none)
        [.put shortKey 1, .put logKey 2, .remove logKey] := by
  have hshare : mapIndex hostMap 256 logKey = mapIndex hostMap 256 shortKey := by decide
  have hne : logKey ≠ shortKey := by decide
  have hstores := mapNew_stores (α := ℕ) hostMap (by decide : 0 < 256)
  constructor
  · intro hfollows
    obtain ⟨-, -, halone, -⟩ := (hstores.follows_iff _).mp hfollows
    refine halone ?_ logKey hne ?_ hshare
    · simp [MapCall.apply, Function.update_of_ne hne.symm]
    · simp [MapCall.apply]
  · intro hfollows
    obtain ⟨-, -, halone, -⟩ := (hstores.follows_iff _).mp hfollows
    refine halone ?_ shortKey hne.symm ?_ hshare.symm
    · simp [MapCall.apply]
    · simp [MapCall.apply, Function.update_of_ne hne.symm]

end StationProcessor
