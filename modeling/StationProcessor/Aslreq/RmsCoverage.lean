import StationProcessor.Aslreq.RmsRequests

/-!
# The records of an RMS request

A request covers its range when the loop of `process_rmsreq` visits the slots from the first to the
last one in the order of the ring, each once, and ends with the last one or with the requested
number of samples. That takes a multiple of the number of slots in the variable that is never set,
and a range that is not the whole ring.
-/

namespace StationProcessor

/-! ### The slots of a range -/

/-- A disk loop of a size that `ParseDiskLoopConfig` accepts, and two slots that `GetRecordRange`
returns for it. -/
structure RmsLoop (n c : ℕ) where
  ring : SlotRing (Record n) c
  capacity_le : (c : ℤ) ≤ maxLoopSize n
  first : ℕ
  last : ℕ
  first_lt : first < ring.slots.length
  last_lt : last < ring.slots.length

/-- What the variables hold that are not set. -/
structure UnsetVariables where
  iEmpty : ℤ
  fits : FitsInt iEmpty
  logMsg : Bytes

namespace RmsLoop

variable {n c : ℕ} (src : RmsLoop n c) (req : RmsRequest) (unset : UnsetVariables)

def size : ℕ := src.ring.slots.length

def range : RecordRange := recordRange src.first src.last src.size

lemma size_pos : 0 < src.size := src.ring.length_pos

/-- The number of slots from the first to the last one. -/
def count : ℕ := (src.last + src.size - src.first) % src.size + 1

/-- The slot that is `i` slots behind the first one. -/
def slotAt (i : ℕ) : ℕ := (src.first + i) % src.size

/-- The slots from the first to the last one, in the order of the ring. -/
def slots : List ℕ := (List.range src.count).map src.slotAt

lemma slotAt_lt (i : ℕ) : src.slotAt i < src.ring.slots.length := Nat.mod_lt _ src.size_pos

/-- The record in that slot. -/
def record (i : ℕ) : Record n := src.ring.slots.get ⟨src.slotAt i, src.slotAt_lt i⟩

/-- `process_rmsreq` on this disk loop. -/
def run (fuel : ℕ) : Option RmsResult :=
  req.processRmsreq (.ok src.range) (some src.ring.slots) unset.iEmpty unset.logMsg fuel

/-- The slots from the first one on were visited in their order, each once, as long as samples were
missing, and the request ended with the last slot or with the requested number of samples. -/
structure Covers (result : RmsResult) : Prop where
  finished : result.stop = .finished
  order : result.state.visited.map RmsVisit.slot <+: src.slots
  once : (result.state.visited.map RmsVisit.slot).Nodup
  missing : ∀ v ∈ result.state.visited, v.iSample < req.iSamples
  stops : result.state.visited.map RmsVisit.slot = src.slots ∨
    req.iSamples ≤ result.state.text.iSample

/-- The request ends and covers its range. -/
def RequestCovers : Prop := ∃ fuel result, src.run req unset fuel = some result ∧
  src.Covers req result

/-- What the scan of the first `k` records of the range leaves. -/
def scanned : ℕ → RmsText
  | 0 => ⟨0, unset.logMsg, []⟩
  | k + 1 => req.scanRecord (src.record k) (scanned k)

/-- Samples are missing after the first `k` records of the range. -/
def Missing (k : ℕ) : Prop := (src.scanned req unset k).iSample < req.iSamples

/-- What the range and the unset variables must be like: `iEmpty` is a multiple of the number of
slots, either not negative while the range is not the whole ring, or negative while the range starts
in the first of several slots and one record is enough. The records fit their buffer, and the sums
an `int`. -/
structure CoversWhen : Prop where
  multiple : (src.size : ℤ) ∣ unset.iEmpty
  start : (0 ≤ unset.iEmpty ∧ src.count ≠ src.size) ∨
    (unset.iEmpty < 0 ∧ src.first = 0 ∧ src.size ≠ 1 ∧ (src.last = 0 ∨ ¬ src.Missing req unset 1))
  buffers : ∀ k < src.count, src.Missing req unset k → FitsBuffers (src.record k)
  sums : ∀ k ≤ src.count, src.Missing req unset k →
    k + src.first + unset.iEmpty + src.size < 2 ^ 31

variable {src req unset} {k : ℕ}

/-! ### Turns of the loop -/

open RmsRequest

lemma range_iFirst : src.range.iFirst = src.first := rfl

lemma range_iLoopSize : src.range.iLoopSize = src.size := rfl

lemma recordLength_pos (src : RmsLoop n c) : 0 < n := by
  have hle := src.capacity_le
  rcases Nat.eq_zero_or_pos n with rfl | hn
  · simp only [maxLoopSize, Nat.cast_zero, Int.ediv_zero] at hle
    omega
  · exact hn

lemma size_le (src : RmsLoop n c) : (src.size : ℤ) ≤ maxLoopSize n :=
  (Int.ofNat_le.mpr src.ring.length_le).trans src.capacity_le

/-- The place of a record in the file fits an `int`. -/
lemma fitsInt_slot (src : RmsLoop n c) {slot : ℕ} (h : slot < src.size) :
    FitsInt ((slot : ℤ) * n) := by
  have hn : (0 : ℤ) < n := Int.natCast_pos.mpr src.recordLength_pos
  have hle := src.size_le
  rw [maxLoopSize, le_sub_iff_add_le, Int.le_ediv_iff_mul_le hn] at hle
  have hslot : (slot : ℤ) * n ≤ (src.size + 2) * n := by gcongr; omega
  have h0 : 0 ≤ (slot : ℤ) * n := by positivity
  exact ⟨by linarith, by linarith⟩

lemma run_eq (fuel : ℕ) : src.run req unset fuel =
    req.rmsLoop src.range src.ring.slots unset.iEmpty fuel ⟨0, src.scanned req unset 0, []⟩ := by
  have hfirst := src.first_lt
  have hcount : ¬ src.range.iCount < 1 := by
    simp only [range, size, recordRange]
    split <;> omega
  exact if_neg hcount

/-- The state after the first `k` records of the range. -/
def stateAt (src : RmsLoop n c) (req : RmsRequest) (unset : UnsetVariables) (k : ℕ) : RmsState where
  iTry := k
  text := src.scanned req unset k
  visited := (List.range k).map fun i => ⟨src.slotAt i, (src.scanned req unset i).iSample⟩

lemma slots_visited (k : ℕ) : (src.stateAt req unset k).visited.map RmsVisit.slot
    = (List.range k).map src.slotAt := by
  simp [stateAt, Function.comp_def]

/-- Turn `k` of the loop visits the next slot of the range. -/
structure GoesOn (src : RmsLoop n c) (req : RmsRequest) (unset : UnsetVariables) (k : ℕ) :
    Prop where
  missing : src.Missing req unset k
  sums : SumsFit src.range unset.iEmpty k
  before : slotBefore src.range unset.iEmpty k ≠ src.last
  slot : recordSlot src.range unset.iEmpty k = src.slotAt k
  buffers : FitsBuffers (src.record k)

/-- The loop ends after `k` turns. -/
def StopsAt (src : RmsLoop n c) (req : RmsRequest) (unset : UnsetVariables) (k : ℕ) : Prop :=
  src.Missing req unset k →
    SumsFit src.range unset.iEmpty k ∧ slotBefore src.range unset.iEmpty k = src.last

lemma getElem?_slotAt (k : ℕ) : src.ring.slots[src.slotAt k]? = some (src.record k) :=
  List.getElem?_eq_getElem (src.slotAt_lt k)

lemma GoesOn.turn (h : src.GoesOn req unset k) (fuel : ℕ) :
    req.rmsLoop src.range src.ring.slots unset.iEmpty (fuel + 1) (src.stateAt req unset k)
      = req.rmsLoop src.range src.ring.slots unset.iEmpty fuel (src.stateAt req unset (k + 1)) := by
  have hfits := src.fitsInt_slot (src.slotAt_lt k)
  have hplace : ¬ (src.slotAt k : ℤ) * n < 0 := not_lt.mpr (by positivity)
  have hmissing : (src.stateAt req unset k).text.iSample < req.iSamples := h.missing
  rw [rmsLoop_turn hmissing h.sums h.before]
  have hrecord : req.rmsRecord src.range src.ring.slots unset.iEmpty (src.stateAt req unset k)
      = .ok (src.stateAt req unset (k + 1)) := by
    simp only [rmsRecord, show (src.stateAt req unset k).iTry = k from rfl, h.slot]
    simp only [hfits, hplace, not_true_eq_false, if_false, Int.toNat_natCast, getElem?_slotAt,
      if_pos h.buffers]
    simp [stateAt, scanned, List.range_succ]
  rw [hrecord]

/-- Turns that visit the slots of the range lead to the state behind them. -/
lemma rmsLoop_walk (h : ∀ i < k, src.GoesOn req unset i) (fuel : ℕ) :
    src.run req unset (fuel + k)
      = req.rmsLoop src.range src.ring.slots unset.iEmpty fuel (src.stateAt req unset k) := by
  induction k generalizing fuel with
  | zero => rw [run_eq]; rfl
  | succ k ih =>
    rw [← Nat.add_assoc, Nat.add_right_comm, ih fun i hi => h i (hi.trans (Nat.lt_succ_self k))]
    exact (h k (Nat.lt_succ_self k)).turn fuel

/-! ### The order of the visits -/

lemma count_le (src : RmsLoop n c) : src.count ≤ src.size :=
  Nat.mod_lt _ src.size_pos

lemma slotAt_injective {i j : ℕ} (hi : i < src.size) (hj : j < src.size)
    (h : src.slotAt i = src.slotAt j) : i = j := by
  have hmod : i ≡ j [MOD src.size] := Nat.ModEq.add_left_cancel' src.first h
  exact hmod.eq_of_lt_of_lt hi hj

lemma nodup_slots (src : RmsLoop n c) : src.slots.Nodup := by
  refine List.Nodup.map_on (fun i hi j hj h => ?_) List.nodup_range
  rw [List.mem_range] at hi hj
  exact slotAt_injective (hi.trans_le src.count_le) (hj.trans_le src.count_le) h

lemma take_slots (h : k ≤ src.count) :
    (List.range k).map src.slotAt <+: src.slots := by
  refine List.IsPrefix.map _ ?_
  rw [← min_eq_left h, ← List.take_range]
  exact List.take_prefix _ _

/-- A request covers its range when its turns visit the slots of the range until the last one or
until no samples are missing. -/
lemma covers_of_turns (hk : k ≤ src.count) (hgoes : ∀ i < k, src.GoesOn req unset i)
    (hstops : src.StopsAt req unset k) (hend : k = src.count ∨ ¬ src.Missing req unset k) :
    src.RequestCovers req unset := by
  have hbefore : ∀ v ∈ (src.stateAt req unset k).visited, v.iSample < req.iSamples := by
    intro v hv
    obtain ⟨i, hi, rfl⟩ := List.mem_map.mp hv
    exact (hgoes i (List.mem_range.mp hi)).missing
  have horder := @slots_visited n c src req unset k
  have hwalk := rmsLoop_walk hgoes 1
  have hcovers : ∀ result : RmsResult, result.stop = .finished →
      result.state.visited = (src.stateAt req unset k).visited →
      result.state.text.iSample = (src.scanned req unset k).iSample → src.Covers req result := by
    intro result hstop hvisited htext
    refine ⟨hstop, ?_, ?_, ?_, ?_⟩
    · rw [hvisited, horder]
      exact take_slots hk
    · rw [hvisited, horder]
      exact (take_slots hk).sublist.nodup src.nodup_slots
    · rwa [hvisited]
    · rw [hvisited, horder, htext]
      refine hend.imp (fun heq => ?_) not_lt.mp
      rw [heq, slots]
  rcases le_or_gt req.iSamples (src.stateAt req unset k).text.iSample with henough | hmissing
  · rw [rmsLoop_enough henough] at hwalk
    exact ⟨_, _, hwalk, hcovers _ rfl rfl rfl⟩
  · obtain ⟨hsums, hlast⟩ := hstops hmissing
    rw [rmsLoop_last hmissing hsums hlast] at hwalk
    exact ⟨_, _, hwalk, hcovers _ rfl rfl rfl⟩

/-- The turns go on up to some slot of the range. -/
lemma exists_goesOn (src : RmsLoop n c) (req : RmsRequest) (unset : UnsetVariables) :
    ∃ k ≤ src.count, (∀ i < k, src.GoesOn req unset i) ∧
      (k < src.count → ¬ src.GoesOn req unset k) := by
  classical
  have hex : ∃ k, k = src.count ∨ ¬ src.GoesOn req unset k := ⟨_, Or.inl rfl⟩
  refine ⟨Nat.find hex, Nat.find_min' hex (Or.inl rfl), fun i hi => ?_, fun hlt => ?_⟩
  · have hmin := Nat.find_min hex hi
    push Not at hmin
    exact hmin.2
  · exact (Nat.find_spec hex).resolve_left hlt.ne

/-- A request that covers its range visits its slots in turns, until the last one or until no
samples are missing. -/
lemma turns_of_covers (h : src.RequestCovers req unset) :
    ∃ k ≤ src.count, (∀ i < k, src.GoesOn req unset i) ∧ src.StopsAt req unset k ∧
      (k = src.count ∨ ¬ src.Missing req unset k) := by
  obtain ⟨fuel, result, hrun, hcovers⟩ := h
  obtain ⟨k, hk, hgoes, hmax⟩ := exists_goesOn src req unset
  refine ⟨k, hk, hgoes, ?_⟩
  by_cases hmissing : src.Missing req unset k
  swap
  · exact ⟨fun h => absurd h hmissing, Or.inr hmissing⟩
  -- the run continues in the state behind these turns
  rw [run_eq] at hrun
  have hrest : req.rmsLoop src.range src.ring.slots unset.iEmpty (fuel + 1)
      (src.stateAt req unset k) = some result := by
    rw [← rmsLoop_walk hgoes, run_eq, Nat.add_assoc]
    exact rmsLoop_mono hrun _
  have hsample : (src.stateAt req unset k).text.iSample < req.iSamples := hmissing
  by_cases hsums : SumsFit src.range unset.iEmpty k
  swap
  · rw [rmsLoop_undefined hsample hsums] at hrest
    cases hrest
    exact absurd hcovers.finished (by simp)
  by_cases hlast : slotBefore src.range unset.iEmpty k = src.last
  · refine ⟨fun _ => ⟨hsums, hlast⟩, Or.inl ?_⟩
    rw [rmsLoop_last hsample hsums hlast] at hrest
    cases hrest
    have hall := hcovers.stops.resolve_right (not_le.mpr hsample)
    have hlength := congrArg List.length hall
    simpa [RmsState.send, stateAt, slots] using hlength
  · rw [rmsLoop_turn hsample hsums hlast] at hrest
    rcases @rmsRecord_cases req n src.range src.ring.slots unset.iEmpty
      (src.stateAt req unset k) src.recordLength_pos with
      ⟨result', hrecord, hstop, -⟩ | ⟨r, slot, hslot, hread, hbuffers, hrecord⟩
    · rw [hrecord] at hrest
      cases hrest
      exact absurd hcovers.finished hstop
    · rw [hrecord] at hrest
      have hvisited := ((visited_kept src.recordLength_pos hrest).map RmsVisit.slot).trans
        hcovers.order
      simp only [List.map_append, slots_visited, List.map_cons, List.map_nil] at hvisited
      have hlength := hvisited.length_le
      have hlt : k < src.count := by simpa [slots] using hlength
      have hnext : src.slotAt k = slot := by
        have hget := @List.IsPrefix.getElem _ _ _ hvisited k (by simp)
        simpa [slots] using hget.symm
      subst hnext
      have hsame : r = src.record k := by
        rw [getElem?_slotAt] at hread
        exact (Option.some.inj hread).symm
      exact absurd ⟨hmissing, hsums, hlast, hslot, hsame ▸ hbuffers⟩ (hmax hlt)

/-! ### The place of a turn -/

lemma slotAt_count (src : RmsLoop n c) : src.slotAt (src.count - 1) = src.last := by
  have hfirst : src.first < src.size := src.first_lt
  have hlast : src.last < src.size := src.last_lt
  rw [slotAt, count, Nat.add_sub_cancel, Nat.add_mod_mod,
    show src.first + (src.last + src.size - src.first) = src.last + src.size by omega,
    Nat.add_mod_right, Nat.mod_eq_of_lt hlast]

/-- With a multiple that is not negative a turn finds the next slot of the range. -/
lemma recordSlot_of_multiple {e : ℕ} (he : unset.iEmpty = src.size * e) (k : ℕ) :
    recordSlot src.range unset.iEmpty k = src.slotAt k := by
  have hsum : (k + src.range.iFirst + unset.iEmpty : ℤ)
      = ((src.first + k + src.size * e : ℕ) : ℤ) := by
    rw [range_iFirst, he]
    push_cast
    ring
  rw [recordSlot, hsum, range_iLoopSize, ← Int.ofNat_tmod, Nat.add_mul_mod_self_left, slotAt]

lemma slotBefore_of_multiple {e : ℕ} (he : unset.iEmpty = src.size * e) (k : ℕ) :
    slotBefore src.range unset.iEmpty k = src.slotAt (k + src.size - 1) := by
  have hpos := src.size_pos
  have hsum : (k + src.range.iFirst + unset.iEmpty + src.range.iLoopSize - 1 : ℤ)
      = ((src.first + (k + src.size - 1) + src.size * e : ℕ) : ℤ) := by
    rw [range_iFirst, range_iLoopSize, he]
    push_cast [Nat.cast_sub (show 1 ≤ k + src.size by omega)]
    ring
  rw [slotBefore, hsum, range_iLoopSize, ← Int.ofNat_tmod, Nat.add_mul_mod_self_left, slotAt]

/-- The loop finds the end of the range behind its last slot, and at once when the range is the
whole ring. -/
lemma slotBefore_eq_last_iff {e : ℕ} (he : unset.iEmpty = src.size * e) (hk : k ≤ src.count) :
    slotBefore src.range unset.iEmpty k = src.last ↔
      k = src.count ∨ (k = 0 ∧ src.count = src.size) := by
  have hpos := src.size_pos
  have hle := src.count_le
  have hcount : 0 < src.count := Nat.succ_pos _
  rw [slotBefore_of_multiple he, ← src.slotAt_count, Nat.cast_inj]
  rcases Nat.eq_zero_or_pos k with rfl | hk0
  · constructor
    · intro h
      have heq := slotAt_injective (by omega) (by omega) h
      exact Or.inr ⟨rfl, by omega⟩
    · intro h
      congr 1
      omega
  · rw [show k + src.size - 1 = k - 1 + src.size by omega, slotAt, ← Nat.add_assoc,
      Nat.add_mod_right, ← slotAt]
    constructor
    · intro h
      have heq := slotAt_injective (by omega) (by omega) h
      exact Or.inl (by omega)
    · intro h
      congr 1
      omega

/-- Below zero the remainders of C are not positive. -/
lemma tmod_nonpos {x m : ℤ} (hx : x ≤ 0) : x.tmod m ≤ 0 := by
  have hneg := Int.tmod_nonneg m (Int.neg_nonneg.mpr hx)
  rw [Int.neg_tmod] at hneg
  linarith

/-- A turn that finds the first slot of the range: a multiple, and a negative one only where the
range starts in slot `0`. -/
lemma multiple_of_first (h : recordSlot src.range unset.iEmpty 0 = src.slotAt 0) :
    (src.size : ℤ) ∣ unset.iEmpty ∧ (unset.iEmpty < 0 → src.first = 0) := by
  have hfirst : src.first < src.size := src.first_lt
  rw [recordSlot, range_iFirst, range_iLoopSize, slotAt, Nat.add_zero, Nat.mod_eq_of_lt hfirst,
    Nat.cast_zero, zero_add] at h
  have hdiv := Int.tmod_add_mul_tdiv (src.first + unset.iEmpty) src.size
  rw [h] at hdiv
  have hmultiple : (src.size : ℤ) ∣ unset.iEmpty := ⟨_, (add_left_cancel hdiv).symm⟩
  refine ⟨hmultiple, fun hneg => ?_⟩
  have hle : (src.size : ℤ) ≤ -unset.iEmpty :=
    Int.le_of_dvd (by linarith) (Int.dvd_neg.mpr hmultiple)
  have hsum : (src.first : ℤ) + unset.iEmpty ≤ 0 := by linarith [Int.ofNat_lt.mpr hfirst]
  have hnonpos := tmod_nonpos (m := src.size) hsum
  rw [h] at hnonpos
  exact_mod_cast hnonpos.antisymm (Int.natCast_nonneg _)

/-- With a negative multiple the first turn finds slot `0` and the second one none. -/
lemma turns_of_negative (hfirst : src.first = 0) (hmultiple : (src.size : ℤ) ∣ unset.iEmpty)
    (hneg : unset.iEmpty < 0) :
    recordSlot src.range unset.iEmpty 0 = 0 ∧ recordSlot src.range unset.iEmpty 1 ≤ 0 ∧
      slotBefore src.range unset.iEmpty 0 ≤ 0 ∧
      (slotBefore src.range unset.iEmpty 0 = 0 ↔ src.size = 1) ∧
      slotBefore src.range unset.iEmpty 1 = 0 := by
  have hpos := src.size_pos
  have hle : (src.size : ℤ) ≤ -unset.iEmpty :=
    Int.le_of_dvd (by linarith) (Int.dvd_neg.mpr hmultiple)
  simp only [recordSlot, slotBefore, range_iFirst, range_iLoopSize, hfirst, Nat.cast_zero,
    Nat.cast_one, add_zero, zero_add]
  refine ⟨?_, tmod_nonpos (by linarith), tmod_nonpos (by linarith), ?_, ?_⟩
  · exact Int.tmod_eq_zero_of_dvd hmultiple
  · rw [← Int.dvd_iff_tmod_eq_zero, dvd_sub_right (hmultiple.add dvd_rfl)]
    exact_mod_cast Nat.dvd_one
  · apply Int.tmod_eq_zero_of_dvd
    obtain ⟨e, he⟩ := hmultiple
    exact ⟨e + 1, by rw [he]; ring⟩

lemma sumsFit_iff (h : unset.iEmpty < 0 → src.first = 0) (hk : k ≤ src.count) :
    SumsFit src.range unset.iEmpty k ↔ k + src.first + unset.iEmpty + src.size < 2 ^ 31 := by
  have hfits := unset.fits.1
  have hsize := src.size_le
  have hmax := maxLoopSize_lt n
  have hcount := src.count_le
  rw [SumsFit, range_iFirst, range_iLoopSize]
  constructor
  · intro hsums
    exact hsums.2.2.2
  · intro hlt
    rcases lt_or_ge unset.iEmpty 0 with hneg | hpos
    · rw [h hneg] at hlt ⊢
      refine ⟨⟨?_, ?_⟩, ⟨?_, ?_⟩, ⟨?_, ?_⟩⟩ <;> push_cast at * <;> linarith
    · refine ⟨⟨?_, ?_⟩, ⟨?_, ?_⟩, ⟨?_, ?_⟩⟩ <;> linarith

/-! ### The condition -/

lemma missing_zero (src : RmsLoop n c) (req : RmsRequest) (unset : UnsetVariables) :
    src.Missing req unset 0 := req.iSamples_pos

/-- Once no samples are missing, none are missing later. -/
lemma missing_of_le {i : ℕ} (h : i ≤ k) (hk : src.Missing req unset k) :
    src.Missing req unset i := by
  refine lt_of_le_of_lt ?_ hk
  induction k, h using Nat.le_induction with
  | base => exact le_rfl
  | succ k hik ih =>
    have hstep := @iSample_le_scanRecord req n (src.record k) (src.scanned req unset k)
    exact (ih (hstep.trans_lt hk)).trans hstep

/-- Turns up to the last slot or to the requested number of samples need what the condition says. -/
lemma coversWhen_of_turns (hk : k ≤ src.count) (hgoes : ∀ i < k, src.GoesOn req unset i)
    (hstops : src.StopsAt req unset k) (hend : k = src.count ∨ ¬ src.Missing req unset k) :
    src.CoversWhen req unset := by
  have hmissing := missing_zero src req unset
  have hcount : 0 < src.count := Nat.succ_pos _
  have hk0 : 0 < k := by
    rcases Nat.eq_zero_or_pos k with rfl | hk0
    · exact absurd (hend.resolve_right (not_not.mpr hmissing)) hcount.ne
    · exact hk0
  obtain ⟨hmultiple, hfirst⟩ := multiple_of_first (hgoes 0 hk0).slot
  refine ⟨hmultiple, ?_, fun i hi hm => ?_, fun i hi hm => ?_⟩
  · rcases lt_or_ge unset.iEmpty 0 with hneg | hpos
    · obtain ⟨-, hsecond, -, hbefore, hbefore'⟩ :=
        turns_of_negative (hfirst hneg) hmultiple hneg
      have hlast := (hgoes 0 hk0).before
      have hsize : src.size ≠ 1 := by
        intro hsize
        have hlt : src.last < src.size := src.last_lt
        rw [hbefore.mpr hsize] at hlast
        exact hlast (by exact_mod_cast (by omega : 0 = src.last))
      refine Or.inr ⟨hneg, hfirst hneg, hsize, ?_⟩
      -- a second record is not found, unless the first slot is the last one
      by_contra hmore
      obtain ⟨hlast0, hmissing1⟩ := not_or.mp hmore
      rw [not_not] at hmissing1
      rcases Nat.lt_or_ge 1 k with hk1 | hk1
      · have hslot := (hgoes 1 hk1).slot
        have hpos := src.size_pos
        rw [slotAt, hfirst hneg, Nat.mod_eq_of_lt (by omega)] at hslot
        rw [hslot] at hsecond
        norm_num at hsecond
      · obtain rfl : k = 1 := by omega
        have heq := (hstops hmissing1).2
        rw [hbefore'] at heq
        exact hlast0 (by exact_mod_cast heq.symm)
    · obtain ⟨e, he⟩ := hmultiple
      obtain ⟨e, rfl⟩ := Int.eq_ofNat_of_zero_le (show 0 ≤ e by
        have hsize : (0 : ℤ) < src.size := Int.natCast_pos.mpr src.size_pos
        exact nonneg_of_mul_nonneg_right (he ▸ hpos) hsize)
      refine Or.inl ⟨hpos, fun hwhole => (hgoes 0 hk0).before ?_⟩
      exact (slotBefore_eq_last_iff he (Nat.zero_le _)).mpr (Or.inr ⟨rfl, hwhole⟩)
  · refine (hgoes i ?_).buffers
    by_contra hle
    exact hend.elim (fun heq => by omega) fun h => h (missing_of_le (not_lt.mp hle) hm)
  · rw [← sumsFit_iff hfirst hi]
    rcases Nat.lt_trichotomy i k with hlt | rfl | hgt
    · exact (hgoes i hlt).sums
    · exact (hstops hm).1
    · exact hend.elim (fun heq => by omega) fun h => absurd (missing_of_le hgt.le hm) h

/-- What the condition says is enough for turns up to the last slot or to the requested number of
samples. -/
lemma turns_of_coversWhen (h : src.CoversWhen req unset) :
    ∃ k ≤ src.count, (∀ i < k, src.GoesOn req unset i) ∧ src.StopsAt req unset k ∧
      (k = src.count ∨ ¬ src.Missing req unset k) := by
  classical
  have hcount : 0 < src.count := Nat.succ_pos _
  have hfirst : unset.iEmpty < 0 → src.first = 0 := by
    rcases h.start with ⟨hpos, -⟩ | ⟨-, hfirst, -⟩
    · exact fun hneg => absurd hneg (not_lt.mpr hpos)
    · exact fun _ => hfirst
  have hsums : ∀ i ≤ src.count, src.Missing req unset i → SumsFit src.range unset.iEmpty i :=
    fun i hi hm => (sumsFit_iff hfirst hi).mpr (h.sums i hi hm)
  rcases h.start with ⟨hpos, hwhole⟩ | ⟨hneg, hzero, hsize, henough⟩
  · obtain ⟨e, he⟩ := h.multiple
    obtain ⟨e, rfl⟩ := Int.eq_ofNat_of_zero_le (show 0 ≤ e by
      have hsize : (0 : ℤ) < src.size := Int.natCast_pos.mpr src.size_pos
      exact nonneg_of_mul_nonneg_right (he ▸ hpos) hsize)
    have hex : ∃ k, k = src.count ∨ ¬ src.Missing req unset k := ⟨_, Or.inl rfl⟩
    have hk := Nat.find_min' hex (Or.inl rfl)
    refine ⟨Nat.find hex, hk, fun i hi => ?_, fun hm => ?_, Nat.find_spec hex⟩
    · have hmin := Nat.find_min hex hi
      obtain ⟨hne, hm⟩ := not_or.mp hmin
      rw [not_not] at hm
      refine ⟨hm, hsums i (by omega) hm, ?_, recordSlot_of_multiple he i, h.buffers i (by omega) hm⟩
      rw [Ne, slotBefore_eq_last_iff he (by omega)]
      exact not_or.mpr ⟨hne, fun hw => hwhole hw.2⟩
    · have heq := (Nat.find_spec hex).resolve_right (not_not.mpr hm)
      refine ⟨hsums _ hk hm, ?_⟩
      rw [slotBefore_eq_last_iff he hk]
      exact Or.inl heq
  · obtain ⟨hslot, -, hbefore, hbefore0, hbefore1⟩ := turns_of_negative hzero h.multiple hneg
    have hm := missing_zero src req unset
    refine ⟨1, hcount, fun i hi => ?_, fun hm1 => ?_, ?_⟩
    · obtain rfl : i = 0 := by omega
      refine ⟨hm, hsums 0 hcount.le hm, fun heq => ?_, ?_, h.buffers 0 hcount hm⟩
      · have hle : (src.last : ℤ) ≤ 0 := heq ▸ hbefore
        exact hsize (hbefore0.mp (by omega))
      · rw [hslot, slotAt, hzero, Nat.zero_mod, Nat.cast_zero]
    · refine ⟨hsums 1 hcount hm1, ?_⟩
      rw [hbefore1, henough.resolve_right (not_not.mpr hm1), Nat.cast_zero]
    · refine henough.imp (fun hlast => ?_) id
      rw [count, hzero, hlast, Nat.sub_zero, Nat.zero_add, Nat.mod_self]

/-- A request covers its range if and only if the unset variable and the range are like that. -/
theorem requestCovers_iff (src : RmsLoop n c) (req : RmsRequest) (unset : UnsetVariables) :
    src.RequestCovers req unset ↔ src.CoversWhen req unset := by
  constructor
  · intro h
    obtain ⟨k, hk, hgoes, hstops, hend⟩ := turns_of_covers h
    exact coversWhen_of_turns hk hgoes hstops hend
  · intro h
    obtain ⟨k, hk, hgoes, hstops, hend⟩ := turns_of_coversWhen h
    exact covers_of_turns hk hgoes hstops hend

/-! ### A request for all records -/

/-- Three records in a loop of four slots, and a range of all of them. -/
def allSlots : RmsLoop 512 4 where
  ring := ⟨threeSlots, 2, by decide, by decide, by decide⟩
  capacity_le := by decide
  first := 0
  last := 2
  first_lt := by decide
  last_lt := by decide

/-- One sample from five seconds on. -/
def oneSample : RmsRequest where
  plat := hostConfig.plat
  loc := ascii "00"
  chan := ascii "BHZ"
  tBeginTime := fiveSeconds
  iSamples := 1
  iSamples_pos := Nat.one_pos
  iSamples_le := by decide
  bufFilename := ascii "LOG.buf"
  printRms := some

def zeroVariables : UnsetVariables := ⟨0, by decide, []⟩

/-- `GetRecordRange` returns the slots `0` and `2` of three, and no record is visited. -/
theorem allSlots_not_covered :
    adlRangeIndices hostConfig (sampleLoop 4 threeSlots) fiveSeconds
        { fiveSeconds with year := 3000 } true 0 0 = (none, 0, 2) ∧
      ¬ allSlots.RequestCovers oneSample zeroVariables := by
  constructor
  · decide +kernel
  · intro h
    obtain ⟨k, -, hgoes, -, hend⟩ := turns_of_covers h
    have hk : 0 < k := by
      rcases Nat.eq_zero_or_pos k with rfl | hk
      · exact absurd (hend.resolve_right (not_not.mpr (missing_zero _ _ _))) (by decide)
      · exact hk
    exact (hgoes 0 hk).before (by decide)

end RmsLoop

end StationProcessor
