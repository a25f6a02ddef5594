import StationProcessor.MapContent

/-!
# Enumerating a map

`map_enum` calls its callback once for each pair of the map. A callback may remove the entry it is
called with where that is alone in its bucket; where it is not, the removal reads outside the
array of the bucket or leaves it too short.
-/

namespace StationProcessor

open Assoc Fallible

universe u

variable {α σ : Type u} {plat : MapPlatform} {visit : σ → Bytes → α → σ × Option α}

/-! ### Calls on a list of entries -/

lemma visitAll_append (s : σ) (l l' : List (Bytes × α)) : visitAll visit s (l ++ l')
    = ((visitAll visit (visitAll visit s l).1 l').1,
        (visitAll visit s l).2 ++ (visitAll visit (visitAll visit s l).1 l').2) := by
  induction l generalizing s with
  | nil => rfl
  | cons p l ih => simp only [List.cons_append, visitAll, ih]

variable (visit) in
/-- The calls are those with the entries. -/
lemma visitAll_entries (s : σ) (l : List (Bytes × α)) :
    (visitAll visit s l).2.map (fun x => (x.1, x.2.1)) = l := by
  induction l generalizing s with
  | nil => rfl
  | cons p l ih => simp [visitAll, ih]

lemma mem_of_mem_visitAll {s : σ} {l : List (Bytes × α)} {x : Bytes × α × Option α}
    (h : x ∈ (visitAll visit s l).2) : (x.1, x.2.1) ∈ l := by
  have := List.mem_map_of_mem (f := fun x : Bytes × α × Option α => (x.1, x.2.1)) h
  rwa [visitAll_entries] at this

lemma kept_append (l l' : List (Bytes × α × Option α)) : kept (l ++ l') = kept l ++ kept l' :=
  List.filterMap_append

/-- The keys that are kept are some of those visited. -/
lemma kept_keys_sublist (visited : List (Bytes × α × Option α)) :
    ((kept visited).map Prod.fst).Sublist (visited.map Prod.fst) := by
  induction visited with
  | nil => exact List.Sublist.refl _
  | cons x visited ih =>
    obtain ⟨key, value, outcome⟩ := x
    cases outcome with
    | none => exact ih.trans (List.sublist_cons_self _ _)
    | some value' => exact ih.cons_cons key

lemma kept_visitAll_keys_sublist (s : σ) (l : List (Bytes × α)) :
    ((kept (visitAll visit s l).2).map Prod.fst).Sublist (l.map Prod.fst) := by
  have hkeys : (visitAll visit s l).2.map Prod.fst = l.map Prod.fst := by
    conv_rhs => rw [← visitAll_entries visit s l, List.map_map]
    rfl
  rw [← hkeys]
  exact kept_keys_sublist _

variable (visit) in
lemma length_visitAll (s : σ) (l : List (Bytes × α)) :
    (visitAll visit s l).2.length = l.length := by
  conv_rhs => rw [← visitAll_entries visit s l, List.length_map]

/-- Where nothing is removed all is kept. -/
lemma length_kept {visited : List (Bytes × α × Option α)} (h : ∀ x ∈ visited, x.2.2 ≠ none) :
    (kept visited).length = visited.length := by
  induction visited with
  | nil => rfl
  | cons x visited ih =>
    obtain ⟨value, hvalue⟩ := Option.ne_none_iff_exists'.mp (h x List.mem_cons_self)
    have hrest := ih fun y hy => h y (List.mem_cons_of_mem x hy)
    simpa [kept, hvalue] using hrest

/-! ### One bucket -/

/-- Two maps that differ at most in one bucket. -/
structure SameBut (i : ℕ) (map map' : Map α) : Prop where
  count : map'.count = map.count
  buckets : ∀ j, j ≠ i → map'.buckets j = map.buckets j

lemma sameBut_setBucket (map : Map α) (i : ℕ) (bucket : Bucket α) :
    SameBut i map (map.setBucket i bucket) :=
  ⟨rfl, fun _ hj => Function.update_of_ne hj _ _⟩

@[simp] lemma setBucket_self (map : Map α) (i : ℕ) (bucket : Bucket α) :
    (map.setBucket i bucket).buckets i = bucket := Function.update_self _ _ _

@[simp] lemma setBucket_buckets (map : Map α) (i : ℕ) :
    map.setBucket i (map.buckets i) = map := by
  simp [Map.setBucket]

@[simp] lemma setBucket_setBucket (map : Map α) (i : ℕ) (bucket bucket' : Bucket α) :
    (map.setBucket i bucket).setBucket i bucket' = map.setBucket i bucket' := by
  simp [Map.setBucket]

/-- A bucket whose array is exact and whose keys are different and belong there. -/
structure Sound (plat : MapPlatform) (map : Map α) (i : ℕ) : Prop where
  exact : (map.buckets i).Exact
  nodup : ((map.buckets i).live.map Prod.fst).Nodup
  placed : ∀ p ∈ (map.buckets i).live, mapIndex plat map.count p.1 = i

lemma Map.Stores.sound {map : Map α} {f : Bytes → Option α} (h : map.Stores plat f) {i : ℕ}
    (hi : i < map.count) : Sound plat map i where
  exact := h.exact i hi
  nodup := (h.represents i hi).nodup
  placed _ hp := (restrict_eq_some.mp ((h.represents i hi).eq_some hp)).1

/-- Where no entry is removed, the array keeps its pairs with what the callback left in them. -/
lemma enumBucket_keeps {i n : ℕ} {map : Map α} {a rest : List (Bytes × α)} {s : σ}
    (hbucket : map.buckets i = ⟨n, a ++ rest⟩)
    (h : ∀ x ∈ (visitAll visit s rest).2, x.2.2 ≠ none) :
    enumBucket plat visit i rest.length a.length map s
      = .ok (map.setBucket i ⟨n, a ++ kept (visitAll visit s rest).2⟩,
          (visitAll visit s rest).1, (visitAll visit s rest).2) := by
  induction rest generalizing map a s with
  | nil =>
    have hsame : map.setBucket i ⟨n, a⟩ = map := by
      rw [List.append_nil] at hbucket
      rw [← hbucket, setBucket_buckets]
    simp [enumBucket, visitAll, kept, hsame]
  | cons p rest ih =>
    cases hvisit : visit s p.1 p.2 with
    | mk s' outcome =>
      simp only [visitAll, hvisit, List.mem_cons, forall_eq_or_imp] at h
      obtain ⟨hsome, hrest⟩ := h
      obtain ⟨value, rfl⟩ := Option.ne_none_iff_exists'.mp hsome
      have hset : (map.setBucket i ⟨n, a ++ (p.1, value) :: rest⟩).buckets i
          = ⟨n, (a ++ [(p.1, value)]) ++ rest⟩ := by simp
      have hloop := ih hset hrest
      rw [List.length_append, List.length_singleton] at hloop
      rw [List.length_cons, enumBucket, hbucket, at_length, ok_bind]
      simp only [hvisit, applyOutcome, hbucket, ok_bind, List.set_append_right _ _ (le_refl _),
        Nat.sub_self, List.set_cons_zero, hloop, visitAll]
      simp [kept]
      rfl

/-- Where an entry is removed that is not alone, an access is outside the array or the bucket
counts a pair too many. -/
lemma enumBucket_bad {i n : ℕ} {map : Map α} {a rest : List (Bytes × α)} {s : σ}
    (hbucket : map.buckets i = ⟨n, a ++ rest⟩) (hn : n = a.length + rest.length) (hcrowd : n ≠ 1)
    (hnodup : ((a ++ rest).map Prod.fst).Nodup)
    (hplaced : ∀ p ∈ rest, mapIndex plat map.count p.1 = i)
    (h : ∃ x ∈ (visitAll visit s rest).2, x.2.2 = none) :
    enumBucket plat visit i rest.length a.length map s = .error .outside ∨
      ∃ r, enumBucket plat visit i rest.length a.length map s = .ok r ∧ SameBut i map r.1 ∧
        (r.1.buckets i).Short := by
  induction rest generalizing map a s with
  | nil => simp [visitAll] at h
  | cons p rest ih =>
    obtain ⟨key, old⟩ := p
    have hindex : mapIndex plat map.count key = i := hplaced (key, old) List.mem_cons_self
    cases hvisit : visit s key old with
    | mk s' outcome =>
      cases outcome with
      | some value =>
        -- the pair stays, and the loop goes on with the next
        simp only [visitAll, hvisit, List.mem_cons, exists_eq_or_imp, reduceCtorEq,
          false_or] at h
        have hset : (map.setBucket i ⟨n, a ++ (key, value) :: rest⟩).buckets i
            = ⟨n, (a ++ [(key, value)]) ++ rest⟩ := by simp
        have hloop := ih hset (by simp [hn]; omega) (by simpa using hnodup)
          (fun p hp => hplaced p (List.mem_cons_of_mem _ hp)) h
        rw [List.length_append, List.length_singleton] at hloop
        rw [List.length_cons, enumBucket, hbucket, at_length, ok_bind]
        simp only [hvisit, applyOutcome, hbucket, ok_bind, List.set_append_right _ _ (le_refl _),
          Nat.sub_self, List.set_cons_zero]
        rcases hloop with herror | ⟨r, hok, hsame, hbroken⟩
        · exact Or.inl (by rw [herror]; rfl)
        · refine Or.inr ⟨(r.1, r.2.1, (key, old, some value) :: r.2.2), by rw [hok]; rfl,
            ⟨hsame.count, fun j hj => ?_⟩, hbroken⟩
          exact (hsame.buckets j hj).trans ((sameBut_setBucket map i _).buckets j hj)
      | none =>
        have ha : ∀ p ∈ a, p.1 ≠ key := by
          intro p hp heq
          rw [List.map_append, List.nodup_append] at hnodup
          exact hnodup.2.2 p.1 (List.mem_map_of_mem hp) key List.mem_cons_self heq
        rw [List.length_cons, enumBucket, hbucket, at_length, ok_bind]
        simp only [hvisit, applyOutcome, mapRemove, hindex, hbucket]
        by_cases hrest : rest = []
        · subst hrest
          have hne : a ≠ [] := by
            rintro rfl
            simp at hn
            exact hcrowd hn
          have hlen := List.length_pos_iff.mpr hne
          rw [removePair_last plat ha hne hn]
          refine Or.inr ⟨_, rfl, sameBut_setBucket map i _, ?_⟩
          simpa [Bucket.Short] using Nat.sub_lt hlen Nat.one_pos
        · rw [removePair_inside plat ha hrest (by simpa using hn)]
          exact Or.inl rfl

variable (visit) in
/-- What the inner loop of `map_enum` does with a sound bucket: either no entry is removed from a
bucket with others, and it is left with what is kept, or it breaks. -/
lemma enumBucket_cases {i : ℕ} {map : Map α} (h : Sound plat map i) (s : σ) :
    (((∀ x ∈ (visitAll visit s (map.buckets i).live).2, x.2.2 = none →
        (map.buckets i).live.length = 1) ∧
      ∃ map', enumBucket plat visit i (map.buckets i).count 0 map s
          = .ok (map', visitAll visit s (map.buckets i).live) ∧ SameBut i map map' ∧
        (map'.buckets i).Exact ∧
        (map'.buckets i).live = kept (visitAll visit s (map.buckets i).live).2)) ∨
    ((∃ x ∈ (visitAll visit s (map.buckets i).live).2, x.2.2 = none ∧
        (map.buckets i).live.length ≠ 1) ∧
      (enumBucket plat visit i (map.buckets i).count 0 map s = .error .outside ∨
        ∃ r, enumBucket plat visit i (map.buckets i).count 0 map s = .ok r ∧ SameBut i map r.1 ∧
          (r.1.buckets i).Short)) := by
  obtain ⟨hexact, hnodup, hplaced⟩ := h
  rw [← hexact.length_live]
  by_cases hnil : (map.buckets i).live = []
  · -- nothing is called
    refine Or.inl ⟨by simp [hnil, visitAll], map, by simp [hnil, visitAll, enumBucket],
      ⟨rfl, fun _ _ => rfl⟩, hexact, by simp [hnil, visitAll, kept]⟩
  have hbucket := hexact.eq_of_live_ne_nil hnil
  generalize (map.buckets i).live = l at *
  by_cases hkeep : ∀ x ∈ (visitAll visit s l).2, x.2.2 ≠ none
  · refine Or.inl ⟨fun x hx hnone => absurd hnone (hkeep x hx), _,
      enumBucket_keeps (a := []) hbucket hkeep, sameBut_setBucket map i _, ?_, ?_⟩
    · rw [setBucket_self, List.nil_append, ← length_visitAll visit s l,
        ← length_kept hkeep]
      exact exact_of_length _
    · rw [setBucket_self, List.nil_append]
      exact live_of_length ((length_kept hkeep).trans (length_visitAll visit s l))
  simp only [not_forall, not_not] at hkeep
  obtain ⟨x, hx, hnone⟩ := hkeep
  by_cases hlength : l.length = 1
  · -- the only entry of the bucket is removed
    obtain ⟨⟨key, value⟩, rfl⟩ := List.length_eq_one_iff.mp hlength
    cases hvisit : visit s key value with
    | mk s' outcome =>
      have hall : visitAll visit s [(key, value)] = (s', [(key, value, outcome)]) := by
        simp [visitAll, hvisit]
      rw [hall] at hx ⊢
      obtain rfl := List.mem_singleton.mp hx
      obtain rfl : outcome = none := hnone
      have hindex : mapIndex plat map.count key = i := hplaced (key, value) (by simp)
      refine Or.inl ⟨fun _ _ _ => hlength, map.setBucket i ⟨0, [(key, value)]⟩, ?_,
        sameBut_setBucket map i _, ?_, ?_⟩
      · simp only [List.length_singleton, enumBucket, hbucket, Bucket.at, List.getElem?_cons_zero,
          ok_bind, hvisit, applyOutcome, mapRemove, hindex, removePair_alone]
        rfl
      · rw [setBucket_self]
        exact fun hzero => absurd rfl hzero
      · rw [setBucket_self]
        rfl
  · refine Or.inr ⟨⟨x, hx, hnone, hlength⟩, ?_⟩
    exact enumBucket_bad (a := []) hbucket (by simp) hlength hnodup hplaced ⟨x, hx, hnone⟩

variable (visit) in
/-- The result of the inner loop differs at most in its bucket. -/
lemma enumBucket_sameBut {i : ℕ} {map : Map α} (h : Sound plat map i) (s : σ) :
    enumBucket plat visit i (map.buckets i).count 0 map s = .error .outside ∨
      ∃ r, enumBucket plat visit i (map.buckets i).count 0 map s = .ok r ∧ SameBut i map r.1 := by
  rcases enumBucket_cases visit h s with
    ⟨-, map', hok, hsame, -⟩ | ⟨-, herror | ⟨r, hok, hsame, -⟩⟩
  · exact Or.inr ⟨_, hok, hsame⟩
  · exact Or.inl herror
  · exact Or.inr ⟨r, hok, hsame⟩

/-! ### All buckets -/

lemma Sound.of_eq {map map' : Map α} {j : ℕ} (h : Sound plat map j)
    (hcount : map'.count = map.count)
    (hbucket : map'.buckets j = map.buckets j) : Sound plat map' j := by
  constructor
  · rw [hbucket]
    exact h.exact
  · rw [hbucket]
    exact h.nodup
  · rw [hbucket, hcount]
    exact h.placed

/-- The outer loop by what the inner one does. -/
lemma enumFrom_of_ok {m i : ℕ} {map : Map α} {s : σ} {r : Map α × σ × List (Bytes × α × Option α)}
    (h : enumBucket plat visit i (map.buckets i).count 0 map s = .ok r) :
    enumFrom plat visit (m + 1) i map s
      = (enumFrom plat visit m (i + 1) r.1 r.2.1).map fun r' =>
          (r'.1, r'.2.1, r.2.2 ++ r'.2.2) := by
  rw [enumFrom, h]
  cases hrest : enumFrom plat visit m (i + 1) r.1 r.2.1 with
  | error e => simp [hrest, Except.map]
  | ok r' => simp [hrest, Except.map, pure, Except.pure]

lemma enumFrom_of_error {m i : ℕ} {map : Map α} {s : σ} {e : Violation}
    (h : enumBucket plat visit i (map.buckets i).count 0 map s = .error e) :
    enumFrom plat visit (m + 1) i map s = .error e := by
  rw [enumFrom, h]
  rfl

/-- The pairs of `m` buckets from the bucket `i` on. -/
def Map.entriesFrom (map : Map α) (i m : ℕ) : List (Bytes × α) :=
  (List.range' i m).flatMap fun j => (map.buckets j).live

lemma entriesFrom_succ (map : Map α) (i m : ℕ) :
    map.entriesFrom i (m + 1) = (map.buckets i).live ++ map.entriesFrom (i + 1) m := by
  simp [Map.entriesFrom, List.range'_succ]

lemma entriesFrom_congr {map map' : Map α} {i m : ℕ}
    (h : ∀ j, i ≤ j → map'.buckets j = map.buckets j) :
    map'.entriesFrom i m = map.entriesFrom i m := by
  induction m generalizing i with
  | zero => rfl
  | succ m ih =>
    rw [entriesFrom_succ, entriesFrom_succ, h i le_rfl, ih fun j hj => h j (by omega)]

/-- An entry the callback removed had its bucket for itself. -/
def RemovedAlone (plat : MapPlatform) (map : Map α) (visited : List (Bytes × α × Option α)) :
    Prop :=
  ∀ x ∈ visited, x.2.2 = none → (map.buckets (mapIndex plat map.count x.1)).live.length = 1

instance (plat : MapPlatform) (map : Map α) (visited : List (Bytes × α × Option α)) :
    Decidable (RemovedAlone plat map visited) :=
  inferInstanceAs (Decidable (∀ x ∈ visited, x.2.2 = none → _))

/-- What `map_enum` leaves of `m` buckets when every entry it removes is alone. -/
structure Enumerated (plat : MapPlatform) (i m : ℕ) (map map' : Map α)
    (visited : List (Bytes × α × Option α)) : Prop where
  count : map'.count = map.count
  before : ∀ j, j < i → map'.buckets j = map.buckets j
  exact : ∀ j, i ≤ j → j < i + m → (map'.buckets j).Exact
  placed : ∀ j, i ≤ j → j < i + m → ∀ p ∈ (map'.buckets j).live,
    mapIndex plat map.count p.1 = j
  entries : map'.entriesFrom i m = kept visited

lemma enumFrom_good {m i : ℕ} {map : Map α} {s : σ}
    (hsound : ∀ j, i ≤ j → j < i + m → Sound plat map j)
    (hgood : RemovedAlone plat map (visitAll visit s (map.entriesFrom i m)).2) :
    ∃ map', enumFrom plat visit m i map s = .ok (map', visitAll visit s (map.entriesFrom i m)) ∧
      Enumerated plat i m map map' (visitAll visit s (map.entriesFrom i m)).2 := by
  induction m generalizing i map s with
  | zero =>
    refine ⟨map, rfl, rfl, fun _ _ => rfl, ?_, ?_, rfl⟩
    · intro j hj hj'
      omega
    · intro j hj hj'
      omega
  | succ m ih =>
    have hsoundi := hsound i le_rfl (by omega)
    rw [entriesFrom_succ, visitAll_append] at hgood ⊢
    rcases enumBucket_cases visit hsoundi s with
      ⟨-, map₁, hok, hsame, hexact, hlive⟩ | ⟨⟨x, hx, hnone, hlength⟩, -⟩
    · have hentries : map₁.entriesFrom (i + 1) m = map.entriesFrom (i + 1) m :=
        entriesFrom_congr fun j hj => hsame.buckets j (by omega)
      have hsound₁ : ∀ j, i + 1 ≤ j → j < i + 1 + m → Sound plat map₁ j := fun j hj hj' =>
        (hsound j (by omega) (by omega)).of_eq hsame.count (hsame.buckets j (by omega))
      obtain ⟨map', hok', hdone⟩ := ih hsound₁ (s := (visitAll visit s (map.buckets i).live).1) (by
        intro x hx hnone
        rw [hentries] at hx
        have hmem := mem_of_mem_visitAll hx
        obtain ⟨j, hj, hp⟩ := List.mem_flatMap.mp hmem
        rw [List.mem_range'_1] at hj
        have hindex := (hsound j (by omega) (by omega)).placed _ hp
        have hlength := hgood x (List.mem_append_right _ hx) hnone
        rw [hsame.count, hsame.buckets _ (by rw [hindex]; omega)]
        exact hlength)
      rw [hentries] at hok' hdone
      refine ⟨map', ?_, hdone.count.trans hsame.count, ?_, ?_, ?_, ?_⟩
      · rw [enumFrom_of_ok hok, hok']
        rfl
      · intro j hj
        exact (hdone.before j (by omega)).trans (hsame.buckets j (by omega))
      · intro j hj hj'
        rcases hj.eq_or_lt with rfl | hlt
        · rw [hdone.before i (by omega)]
          exact hexact
        · exact hdone.exact j hlt (by omega)
      · intro j hj hj' p hp
        rcases hj.eq_or_lt with rfl | hlt
        · rw [hdone.before i (by omega), hlive] at hp
          have hkey := (kept_visitAll_keys_sublist s (map.buckets i).live).subset
            (List.mem_map_of_mem hp)
          obtain ⟨q, hq, hqp⟩ := List.mem_map.mp hkey
          rw [← hqp]
          exact hsoundi.placed q hq
        · rw [← hsame.count]
          exact hdone.placed j hlt (by omega) p hp
      · rw [entriesFrom_succ, hdone.before i (by omega), hlive, hdone.entries, kept_append]
    · have hindex := hsoundi.placed _ (mem_of_mem_visitAll hx)
      have := hgood x (List.mem_append_left _ hx) hnone
      rw [hindex] at this
      exact absurd this hlength

variable (visit) in
/-- `map_enum` leaves other buckets alone, whatever it does. -/
lemma enumFrom_before {m i : ℕ} {map : Map α} {s : σ}
    (hsound : ∀ j, i ≤ j → j < i + m → Sound plat map j) :
    enumFrom plat visit m i map s = .error .outside ∨
      ∃ r, enumFrom plat visit m i map s = .ok r ∧ r.1.count = map.count ∧
        ∀ j, j < i → r.1.buckets j = map.buckets j := by
  induction m generalizing i map s with
  | zero => exact Or.inr ⟨_, rfl, rfl, fun _ _ => rfl⟩
  | succ m ih =>
    rcases enumBucket_sameBut visit (hsound i le_rfl (by omega)) s with
      herror | ⟨r, hok, hsame⟩
    · exact Or.inl (enumFrom_of_error herror)
    · have hsound' : ∀ j, i + 1 ≤ j → j < i + 1 + m → Sound plat r.1 j := fun j hj hj' =>
        (hsound j (by omega) (by omega)).of_eq hsame.count (hsame.buckets j (by omega))
      rcases ih hsound' (s := r.2.1) with herror | ⟨r', hok', hcount, hbefore⟩
      · exact Or.inl (by rw [enumFrom_of_ok hok, herror]; rfl)
      · refine Or.inr ⟨(r'.1, r'.2.1, r.2.2 ++ r'.2.2), ?_, hcount.trans hsame.count, ?_⟩
        · rw [enumFrom_of_ok hok, hok']
          rfl
        · intro j hj
          exact (hbefore j (by omega)).trans (hsame.buckets j (by omega))

/-- Where an entry is removed that is not alone, `map_enum` violates the array of a bucket or
leaves one too short. -/
lemma enumFrom_bad {m i : ℕ} {map : Map α} {s : σ}
    (hsound : ∀ j, i ≤ j → j < i + m → Sound plat map j)
    (hbad : ¬RemovedAlone plat map (visitAll visit s (map.entriesFrom i m)).2) :
    enumFrom plat visit m i map s = .error .outside ∨
      ∃ r, enumFrom plat visit m i map s = .ok r ∧ r.1.count = map.count ∧
        ∃ j, i ≤ j ∧ j < i + m ∧ (r.1.buckets j).Short := by
  induction m generalizing i map s with
  | zero => exact absurd (fun x hx => by simp [Map.entriesFrom, visitAll] at hx) hbad
  | succ m ih =>
    have hsoundi := hsound i le_rfl (by omega)
    have hlater : ∀ map', SameBut i map map' →
        ∀ j, i + 1 ≤ j → j < i + 1 + m → Sound plat map' j := fun map' hsame j hj hj' =>
      (hsound j (by omega) (by omega)).of_eq hsame.count (hsame.buckets j (by omega))
    rcases enumBucket_cases visit hsoundi s with
      ⟨halone, map₁, hok, hsame, -⟩ | ⟨-, herror | ⟨r, hok, hsame, hbroken⟩⟩
    · -- the entry is in a later bucket
      have hentries : map₁.entriesFrom (i + 1) m = map.entriesFrom (i + 1) m :=
        entriesFrom_congr fun j hj => hsame.buckets j (by omega)
      have hbad' : ¬RemovedAlone plat map₁
          (visitAll visit (visitAll visit s (map.buckets i).live).1
            (map₁.entriesFrom (i + 1) m)).2 := by
        intro hgood
        apply hbad
        intro x hx hnone
        rw [entriesFrom_succ, visitAll_append] at hx
        rcases List.mem_append.mp hx with hx | hx
        · rw [hsoundi.placed _ (mem_of_mem_visitAll hx)]
          exact halone x hx hnone
        · obtain ⟨j, hj, hp⟩ := List.mem_flatMap.mp (mem_of_mem_visitAll hx)
          rw [List.mem_range'_1] at hj
          have hindex := (hsound j (by omega) (by omega)).placed _ hp
          have := hgood x (by rw [hentries]; exact hx) hnone
          rwa [hsame.count, hsame.buckets _ (by rw [hindex]; omega)] at this
      rcases ih (hlater map₁ hsame) hbad' with
        herror | ⟨r, hok', hcount, j, hj, hj', hbroken⟩
      · exact Or.inl (by rw [enumFrom_of_ok hok, herror]; rfl)
      · refine Or.inr ⟨(r.1, r.2.1, (visitAll visit s (map.buckets i).live).2 ++ r.2.2), ?_,
          hcount.trans hsame.count, j, by omega, by omega, hbroken⟩
        rw [enumFrom_of_ok hok, hok']
        rfl
    · exact Or.inl (enumFrom_of_error herror)
    · rcases enumFrom_before visit (s := r.2.1) (hlater r.1 hsame) with
        herror | ⟨r', hok', hcount, hbefore⟩
      · exact Or.inl (by rw [enumFrom_of_ok hok, herror]; rfl)
      · refine Or.inr ⟨(r'.1, r'.2.1, r.2.2 ++ r'.2.2), by rw [enumFrom_of_ok hok, hok']; rfl,
          hcount.trans hsame.count, i, le_rfl, by omega, ?_⟩
        rwa [hbefore i (by omega)]

end StationProcessor
