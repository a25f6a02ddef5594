import StationProcessor.Lib.Assoc
import StationProcessor.Lib.Fallible
import StationProcessor.SeedHeader

/-!
# The string map

`lib/map.c`: a fixed number of buckets, each of them a flat array of pairs. The array has its
exact length, and an access outside it is a violation. With a pair is stored what its value
points to. Keys are given without their null byte, none is a null pointer, and allocations
succeed. The maps are made without functions to copy and to free values.
-/

namespace StationProcessor

open Fallible

universe u

variable {α : Type u}

/-- An access outside an array. -/
inductive Violation
  | outside
deriving DecidableEq

/-- What the map takes from the platform: the width of an `unsigned long` and `sizeof(Pair)`,
which is that of two pointers. -/
structure MapPlatform where
  longBits : ℕ
  sizeofPair : ℕ
  one_lt_sizeofPair : 1 < sizeofPair

def hostMap : MapPlatform := ⟨64, 16, by decide⟩

structure Bucket (α : Type u) where
  count : ℕ
  pairs : List (Bytes × α)

/-- `Map`, with at least one bucket. -/
structure Map (α : Type u) where
  count : ℕ
  count_pos : 0 < count
  buckets : ℕ → Bucket α

/-- `map_new`. -/
def mapNew (capacity : ℕ) (h : 0 < capacity) : Map α := ⟨capacity, h, fun _ => ⟨0, []⟩⟩

/-- `hash`, which adds signed characters. -/
def mapHash (plat : MapPlatform) (key : Bytes) : ℕ :=
  key.foldl (fun hash c => ((hash * 33 + toByte c.toNat : ℤ) % 2 ^ plat.longBits).toNat) 5381

/-- The bucket of a key in a map with this number of buckets. -/
def mapIndex (plat : MapPlatform) (count : ℕ) (key : Bytes) : ℕ := mapHash plat key % count

/-- Read the pair `pairs[i]`. -/
def Bucket.at (bucket : Bucket α) (i : ℕ) : Except Violation (Bytes × α) :=
  match bucket.pairs[i]? with
  | some pair => .ok pair
  | none => .error .outside

/-- The loop of `get_pair` over the pairs from `i` on, with the place and the value it finds. -/
def getPairFrom (bucket : Bucket α) (key : Bytes) : ℕ → ℕ → Except Violation (Option (ℕ × α))
  | 0, _ => .ok none
  | m + 1, i => do
    let pair ← bucket.at i
    if pair.1 = key then .ok (some (i, pair.2)) else getPairFrom bucket key m (i + 1)

/-- `get_pair`. -/
def getPair (bucket : Bucket α) (key : Bytes) : Except Violation (Option (ℕ × α)) :=
  getPairFrom bucket key bucket.count 0

/-- `map_get`. -/
def mapGet (plat : MapPlatform) (map : Map α) (key : Bytes) : Except Violation (Option α) := do
  let found ← getPair (map.buckets (mapIndex plat map.count key)) key
  return found.map Prod.snd

def Map.setBucket (map : Map α) (i : ℕ) (bucket : Bucket α) : Map α :=
  { map with buckets := Function.update map.buckets i bucket }

/-- `map_put`. A bucket without pairs gets a new array. -/
def mapPut (plat : MapPlatform) (map : Map α) (key : Bytes) (value : α) :
    Except Violation (Map α) := do
  let index := mapIndex plat map.count key
  let bucket := map.buckets index
  match ← getPair bucket key with
  | some (i, _) =>
    return map.setBucket index { bucket with pairs := bucket.pairs.set i (key, value) }
  | none =>
    if bucket.count = 0 then return map.setBucket index ⟨1, [(key, value)]⟩
    else
      return map.setBucket index
        ⟨bucket.count + 1, bucket.pairs.take bucket.count ++ [(key, value)]⟩

/-- `memmove(pair, pair+sizeof(Pair), length * sizeof(Pair))` for the pair at `i`: the pointer
is advanced by `sizeof(Pair)` pairs. -/
def moveDown (plat : MapPlatform) (pairs : List (Bytes × α)) (i length : ℕ) :
    Except Violation (List (Bytes × α)) :=
  if length = 0 then .ok pairs
  else if i + plat.sizeofPair + length ≤ pairs.length then
    .ok (pairs.take i ++ (pairs.drop (i + plat.sizeofPair)).take length
      ++ pairs.drop (i + length))
  else .error .outside

/-- The loop of `remove_pair` over the pairs from `i` on, with the array, `moves` and `found` as
they are after it. -/
def removeFrom (plat : MapPlatform) (n : ℕ) (key : Bytes) :
    ℕ → ℕ → List (Bytes × α) → ℕ → Bool → Except Violation (List (Bytes × α) × ℕ × Bool)
  | 0, _, pairs, moves, found => .ok (pairs, moves, found)
  | m + 1, i, pairs, moves, found => do
    let pair ← (Bucket.mk n pairs).at i
    if pair.1 = key then
      let pairs ← moveDown plat pairs i (n - i - 1)
      removeFrom plat n key m (i + 1) pairs (moves + 1) true
    else removeFrom plat n key m (i + 1) pairs moves found

/-- `remove_pair`. The array is shrunk to `count - moves` pairs when `count` is already without
the moves. Below zero that size wraps around; then no pair is left, and the array stays as it is
or grows. -/
def removePair (plat : MapPlatform) (bucket : Bucket α) (key : Bytes) :
    Except Violation (Bucket α × Bool) :=
  if bucket.count = 0 then .ok (bucket, false)
  else do
    let (pairs, moves, found) ←
      removeFrom plat bucket.count key bucket.count 0 bucket.pairs 0 false
    let count := bucket.count - moves
    return (⟨count, if moves ≤ count then pairs.take (count - moves) else pairs⟩, found)

/-- `map_remove`. -/
def mapRemove (plat : MapPlatform) (map : Map α) (key : Bytes) :
    Except Violation (Map α × Bool) := do
  let index := mapIndex plat map.count key
  let (bucket, found) ← removePair plat (map.buckets index) key
  return (map.setBucket index bucket, found)

/-- `map_get_count`. -/
def mapGetCount (map : Map α) : ℕ :=
  ((List.range map.count).map fun i => (map.buckets i).count).sum

/-! ### Enumeration -/

section Enum

variable {σ : Type u}

/-- What the callback of `map_enum` does with the entry it is called with, the `j`-th pair of a
bucket: it leaves something where the value points to, or removes the entry. -/
def applyOutcome (plat : MapPlatform) (map : Map α) (i j : ℕ) (key : Bytes) :
    Option α → Except Violation (Map α)
  | some value =>
    .ok (map.setBucket i
      { map.buckets i with pairs := (map.buckets i).pairs.set j (key, value) })
  | none => do
    let (map, _) ← mapRemove plat map key
    return map

/-- The inner loop of `map_enum`, from the pair `j` on, with the calls it makes and their outcomes.
The number of pairs was read before the loop. -/
def enumBucket (plat : MapPlatform) (visit : σ → Bytes → α → σ × Option α) (i : ℕ) :
    ℕ → ℕ → Map α → σ → Except Violation (Map α × σ × List (Bytes × α × Option α))
  | 0, _, map, s => .ok (map, s, [])
  | m + 1, j, map, s => do
    let pair ← (map.buckets i).at j
    let (s, outcome) := visit s pair.1 pair.2
    let map ← applyOutcome plat map i j pair.1 outcome
    let (map, s, visited) ← enumBucket plat visit i m (j + 1) map s
    return (map, s, (pair.1, pair.2, outcome) :: visited)

/-- The outer loop, from the bucket `i` on. -/
def enumFrom (plat : MapPlatform) (visit : σ → Bytes → α → σ × Option α) :
    ℕ → ℕ → Map α → σ → Except Violation (Map α × σ × List (Bytes × α × Option α))
  | 0, _, map, s => .ok (map, s, [])
  | m + 1, i, map, s => do
    let (map, s, visited) ← enumBucket plat visit i (map.buckets i).count 0 map s
    let (map, s, visited') ← enumFrom plat visit m (i + 1) map s
    return (map, s, visited ++ visited')

/-- `map_enum` for a callback that may remove the entry it is called with. -/
def mapEnum (plat : MapPlatform) (visit : σ → Bytes → α → σ × Option α) (map : Map α) (s : σ) :
    Except Violation (Map α × σ × List (Bytes × α × Option α)) :=
  enumFrom plat visit map.count 0 map s

/-- The same calls for a list of entries, without a map. -/
def visitAll (visit : σ → Bytes → α → σ × Option α) :
    σ → List (Bytes × α) → σ × List (Bytes × α × Option α)
  | s, [] => (s, [])
  | s, (key, value) :: entries =>
    let (s, outcome) := visit s key value
    let (s, visited) := visitAll visit s entries
    (s, (key, value, outcome) :: visited)

end Enum

/-- The entries that are not removed. -/
def kept (visited : List (Bytes × α × Option α)) : List (Bytes × α) :=
  visited.filterMap fun x => x.2.2.map fun value => (x.1, value)

/-! ### Buckets -/

/-- The pairs a bucket counts. -/
def Bucket.live (bucket : Bucket α) : List (Bytes × α) := bucket.pairs.take bucket.count

/-- The array of a bucket is as long as it counts, where there is one. -/
def Bucket.Exact (bucket : Bucket α) : Prop :=
  bucket.count ≠ 0 → bucket.pairs.length = bucket.count

/-- The array of a bucket is shorter than it counts. -/
def Bucket.Short (bucket : Bucket α) : Prop := bucket.pairs.length < bucket.count

variable {bucket : Bucket α} {key : Bytes} {v : α}

lemma exact_of_length (l : List (Bytes × α)) : (Bucket.mk l.length l).Exact := fun _ => rfl

lemma live_of_length {l : List (Bytes × α)} {n : ℕ} (h : l.length = n) :
    (Bucket.mk n l).live = l := List.take_of_length_le h.le

lemma Bucket.Exact.length_live (h : bucket.Exact) : bucket.live.length = bucket.count := by
  rw [Bucket.live, List.length_take]
  by_cases hcount : bucket.count = 0
  · simp [hcount]
  · simp [h hcount]

/-- A bucket with pairs is an array of just these. -/
lemma Bucket.Exact.eq_of_live_ne_nil (h : bucket.Exact) (hne : bucket.live ≠ []) :
    bucket = ⟨bucket.live.length, bucket.live⟩ := by
  have hcount : bucket.count ≠ 0 := by
    intro hzero
    exact hne (by simp [Bucket.live, hzero])
  have hpairs : bucket.live = bucket.pairs := by
    rw [Bucket.live, List.take_of_length_le (h hcount).le]
  rw [hpairs, h hcount]

@[simp] lemma at_length (n : ℕ) (a b : List (Bytes × α)) (p : Bytes × α) :
    (Bucket.mk n (a ++ p :: b)).at a.length = .ok p := by
  simp [Bucket.at]

lemma at_of_length_le {n i : ℕ} {pairs : List (Bytes × α)} (h : pairs.length ≤ i) :
    (Bucket.mk n pairs).at i = .error .outside := by
  simp [Bucket.at, List.getElem?_eq_none h]

/-- The loop of `get_pair` passes over pairs with other keys. -/
lemma getPairFrom_skip {n : ℕ} {a b : List (Bytes × α)} (hb : ∀ p ∈ b, p.1 ≠ key) (m : ℕ)
    (c : List (Bytes × α)) :
    getPairFrom ⟨n, a ++ (b ++ c)⟩ key (b.length + m) a.length
      = getPairFrom ⟨n, a ++ (b ++ c)⟩ key m (a.length + b.length) := by
  induction b generalizing a with
  | nil => simp
  | cons p b ih =>
    have hp : p.1 ≠ key := hb p List.mem_cons_self
    have hstep := ih (a := a ++ [p]) fun q hq => hb q (List.mem_cons_of_mem p hq)
    rw [List.append_assoc, List.length_append] at hstep
    rw [List.length_cons, Nat.add_right_comm, getPairFrom, List.cons_append, at_length, ok_bind,
      if_neg hp]
    simpa [Nat.add_assoc, Nat.add_comm 1] using hstep

/-- `get_pair` finds no key that is not there. -/
lemma Bucket.Exact.getPair_absent (h : bucket.Exact) (hkey : ∀ p ∈ bucket.live, p.1 ≠ key) :
    getPair bucket key = .ok none := by
  by_cases hne : bucket.live = []
  · have hcount : bucket.count = 0 := by
      rw [← h.length_live, hne, List.length_nil]
    rw [getPair, hcount, getPairFrom]
  · rw [h.eq_of_live_ne_nil hne]
    have hskip := getPairFrom_skip (n := bucket.live.length) (a := []) hkey 0 []
    simp only [List.nil_append, List.append_nil, List.length_nil, Nat.add_zero] at hskip
    exact hskip

/-- `get_pair` finds the pair with a key. -/
lemma getPair_present {a b : List (Bytes × α)} (ha : ∀ p ∈ a, p.1 ≠ key) {n : ℕ}
    (hn : n = a.length + (b.length + 1)) :
    getPair ⟨n, a ++ (key, v) :: b⟩ key = .ok (some (a.length, v)) := by
  have hskip := getPairFrom_skip (n := n) (a := []) ha (b.length + 1) ((key, v) :: b)
  simp only [List.nil_append, List.length_nil, Nat.zero_add, ← hn] at hskip
  rw [getPair, hskip, getPairFrom, at_length, ok_bind, if_pos rfl]

/-- `map_put` by what `get_pair` finds. -/
lemma mapPut_of_found {plat : MapPlatform} {map : Map α} {i : ℕ}
    (h : getPair (map.buckets (mapIndex plat map.count key)) key = .ok (some (i, v)))
    (value : α) : mapPut plat map key value
      = .ok (map.setBucket (mapIndex plat map.count key)
          { map.buckets (mapIndex plat map.count key) with
            pairs := (map.buckets (mapIndex plat map.count key)).pairs.set i (key, value) }) := by
  simp only [mapPut, h, ok_bind]
  rfl

lemma mapPut_of_new {plat : MapPlatform} {map : Map α}
    (h : getPair (map.buckets (mapIndex plat map.count key)) key = .ok none)
    (hexact : (map.buckets (mapIndex plat map.count key)).Exact) (value : α) :
    ∃ bucket : Bucket α, mapPut plat map key value
        = .ok (map.setBucket (mapIndex plat map.count key) bucket) ∧ bucket.Exact ∧
      bucket.live = (map.buckets (mapIndex plat map.count key)).live ++ [(key, value)] := by
  simp only [mapPut, h, ok_bind]
  generalize map.buckets (mapIndex plat map.count key) = bucket at *
  have hlength : bucket.live.length = bucket.count := hexact.length_live
  refine ⟨⟨bucket.count + 1, bucket.live ++ [(key, value)]⟩, ?_, ?_, ?_⟩
  · split_ifs with hcount
    · simp [Bucket.live, hcount]
      rfl
    · rfl
  · intro _
    simp [hlength]
  · exact live_of_length (by simp [hlength])

/-- The loop of `remove_pair` passes over pairs with other keys. -/
lemma removeFrom_skip (plat : MapPlatform) {n : ℕ} {a b : List (Bytes × α)}
    (hb : ∀ p ∈ b, p.1 ≠ key) (m : ℕ) (c : List (Bytes × α)) (moves : ℕ) (found : Bool) :
    removeFrom plat n key (b.length + m) a.length (a ++ (b ++ c)) moves found
      = removeFrom plat n key m (a.length + b.length) (a ++ (b ++ c)) moves found := by
  induction b generalizing a with
  | nil => simp
  | cons p b ih =>
    have hp : p.1 ≠ key := hb p List.mem_cons_self
    have hstep := ih (a := a ++ [p]) fun q hq => hb q (List.mem_cons_of_mem p hq)
    rw [List.append_assoc, List.length_append] at hstep
    rw [List.length_cons, Nat.add_right_comm, removeFrom, List.cons_append, at_length, ok_bind,
      if_neg hp]
    simpa [Nat.add_assoc, Nat.add_comm 1] using hstep

/-- Removing a key that is not there leaves the pairs. -/
lemma Bucket.Exact.removePair_absent (h : bucket.Exact) (hkey : ∀ p ∈ bucket.live, p.1 ≠ key)
    (plat : MapPlatform) :
    ∃ bucket' : Bucket α, removePair plat bucket key = .ok (bucket', false) ∧ bucket'.Exact ∧
      bucket'.live = bucket.live := by
  by_cases hne : bucket.live = []
  · have hcount : bucket.count = 0 := by
      rw [← h.length_live, hne, List.length_nil]
    exact ⟨bucket, by rw [removePair, if_pos hcount], h, rfl⟩
  · have heq := h.eq_of_live_ne_nil hne
    generalize bucket.live = l at *
    subst heq
    have hskip := removeFrom_skip plat (n := l.length) (a := []) hkey 0 [] 0 false
    simp only [List.nil_append, List.append_nil, List.length_nil, Nat.add_zero] at hskip
    refine ⟨⟨l.length, l⟩, ?_, exact_of_length l, live_of_length rfl⟩
    rw [removePair, if_neg (by simpa using hne), hskip]
    simp [removeFrom]

/-- The only pair of a bucket is removed. -/
lemma removePair_alone (plat : MapPlatform) (key : Bytes) (v : α) :
    removePair plat ⟨1, [(key, v)]⟩ key = .ok (⟨0, [(key, v)]⟩, true) := by
  simp [removePair, removeFrom, Bucket.at, moveDown]

/-- Removing a pair with others after it reads outside the array. -/
lemma removePair_inside (plat : MapPlatform) {a b : List (Bytes × α)} (ha : ∀ p ∈ a, p.1 ≠ key)
    (hb : b ≠ []) {n : ℕ} (hn : n = a.length + (b.length + 1)) :
    removePair plat ⟨n, a ++ (key, v) :: b⟩ key = .error .outside := by
  have hskip := removeFrom_skip plat (n := n) (a := []) ha (b.length + 1) ((key, v) :: b) 0 false
  have hlen := List.length_pos_iff.mpr hb
  have hsize := plat.one_lt_sizeofPair
  simp only [List.nil_append, List.length_nil, Nat.zero_add, ← hn] at hskip
  have hmove : moveDown plat (a ++ (key, v) :: b) a.length (n - a.length - 1)
      = .error .outside := by
    rw [moveDown, if_neg (by omega), if_neg]
    simp only [List.length_append, List.length_cons]
    omega
  rw [removePair, if_neg (show n ≠ 0 by omega), hskip, removeFrom, at_length, ok_bind, if_pos rfl,
    hmove]
  rfl

/-- Removing the last of several pairs cuts off the pair before it, too. -/
lemma removePair_last (plat : MapPlatform) {a : List (Bytes × α)} (ha : ∀ p ∈ a, p.1 ≠ key)
    (hne : a ≠ []) {n : ℕ} (hn : n = a.length + 1) :
    removePair plat ⟨n, a ++ [(key, v)]⟩ key
      = .ok (⟨a.length, a.take (a.length - 1)⟩, true) := by
  have hskip := removeFrom_skip plat (n := n) (a := []) ha 1 [(key, v)] 0 false
  have hlen := List.length_pos_iff.mpr hne
  simp only [List.nil_append, List.length_nil, Nat.zero_add, ← hn] at hskip
  have hmove : moveDown plat (a ++ [(key, v)]) a.length (n - a.length - 1)
      = .ok (a ++ [(key, v)]) := by
    rw [moveDown, if_pos (by omega)]
  rw [removePair, if_neg (show n ≠ 0 by omega), hskip, removeFrom, at_length, ok_bind, if_pos rfl,
    hmove, ok_bind, removeFrom]
  have htake : (a ++ [(key, v)]).take (a.length - 1) = a.take (a.length - 1) :=
    List.take_append_of_le_length (Nat.sub_le _ _)
  simp [hn, htake, Nat.one_le_iff_ne_zero.mpr hlen.ne']

end StationProcessor
