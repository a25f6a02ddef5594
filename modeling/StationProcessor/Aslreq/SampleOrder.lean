import StationProcessor.Lib.Rotated
import StationProcessor.Aslreq.TransferSamples

/-!
# The order of the samples

A transfer is right when it ends, reads the decoded samples within their array only, and sends
samples in the order of the loop, from its oldest record to its newest. Nothing in `TransferSamples`
stops the walk at the newest record, so a request for more samples than there are behind its first
record sends older ones, and a loop without samples keeps it going. The counters are unbounded: a
walk that would overflow an `int` has no defined result.
-/

namespace StationProcessor

namespace SampleSource

open Rotated

variable {n c : ℕ} (src : SampleSource n c) (req : SampleRequest n)

/-- In the loop a sample is before another. -/
def Before (a b : ℕ × ℤ) : Prop :=
  Older src.ring.newest a.1 b.1 ∨ (a.1 = b.1 ∧ a.2 < b.2)

/-- The transfer ends, accesses only what was decoded, and sends samples in the order of the loop,
each once. -/
def TransfersRight : Prop :=
  ∃ fuel result, src.transfer req fuel = some result ∧
    (∀ a ∈ result.state.accesses, 0 ≤ a.index ∧ a.index < a.rectotal) ∧
    (sentKeys result.state).Pairwise src.Before

/-- The transfer does not end before record number `v`. -/
def Reaches (v : ℕ) : Prop := ∀ u < v, ¬ src.EndsAt req u

/-- The first record that samples are taken from does not start after the begin time, or no sample
is sent. -/
def SkipsForward : Prop :=
  limit req = 0 ∨ ∀ v r, src.PassedUpTo req v → src.visit req v = .gives r → 0 ≤ req.iSkip r

variable {src req} {u v w V : ℕ}

/-! ### Slots -/

lemma slotAt_lt_of_visit (h : src.visit req v ≠ .ends) :
    src.slotAt v < src.ring.slots.length := by
  by_contra hge
  apply h
  rw [visit, List.getElem?_eq_none (not_lt.mp hge)]

lemma mem_offers {a : ℕ × ℤ} : a ∈ src.offers req v ↔
    ∃ r, src.visit req v = .gives r ∧ a.1 = src.slotAt v ∧ src.start req v r ≤ a.2 ∧
      a.2 < (req.decoder.samples r).length := by
  rw [offers]
  cases hvisit : src.visit req v with
  | ends => simp
  | passes => simp
  | gives r =>
    simp only [List.mem_map, indices, List.mem_range, RecordVisit.gives.injEq, exists_eq_left']
    constructor
    · rintro ⟨-, ⟨k, hk, rfl⟩, rfl⟩
      exact ⟨rfl, by simp, by simp only; omega⟩
    · rintro ⟨hslot, hstart, hlt⟩
      refine ⟨a.2, ⟨(a.2 - src.start req v r).toNat, ?_, ?_⟩, ?_⟩
      · omega
      · omega
      · rw [← hslot]

/-- The first sample that a record offers. -/
lemma offers_eq_cons {r : Record n} (hvisit : src.visit req v = .gives r)
    (h : src.start req v r < (req.decoder.samples r).length) :
    ∃ rest, src.offers req v = (src.slotAt v, src.start req v r) :: rest := by
  obtain ⟨count, hcount⟩ := Nat.exists_eq_succ_of_ne_zero
    (show ((req.decoder.samples r).length - src.start req v r).toNat ≠ 0 by omega)
  simp only [offers, hvisit, hcount, Nat.succ_eq_add_one, indices_succ, List.map_cons]
  exact ⟨_, rfl⟩

lemma gives_of_offers (h : src.offers req v ≠ []) :
    ∃ r, src.visit req v = .gives r ∧ src.start req v r < (req.decoder.samples r).length := by
  obtain ⟨a, ha⟩ := List.exists_mem_of_ne_nil _ h
  obtain ⟨r, hvisit, -, hstart, hlt⟩ := mem_offers.mp ha
  exact ⟨r, hvisit, hstart.trans_lt hlt⟩

/-- Behind a record that samples are taken from, samples are taken from the start. -/
lemma start_eq_zero {r r' : Record n} (hvisit : src.visit req u = .gives r) (h : u < v) :
    src.start req v r' = 0 := by
  rw [start, if_neg]
  intro hpassed
  rw [hpassed u h] at hvisit
  cases hvisit

lemma offered_isPrefix (h : u ≤ v) : src.offered req u <+: src.offered req v := by
  induction v, h using Nat.le_induction with
  | base => exact List.prefix_rfl
  | succ v hle ih =>
    rw [offered_succ]
    exact ih.trans (List.prefix_append _ _)

lemma mem_offered {a : ℕ × ℤ} : a ∈ src.offered req v ↔ ∃ u < v, a ∈ src.offers req u := by
  simp [offered]

/-! ### The record that ends the transfer -/

lemma EndsAt.not_passes (h : src.EndsAt req v) : src.visit req v ≠ .passes := by
  intro hvisit
  rw [EndsAt, hvisit] at h
  exact h

lemma endsAt_of_ends (h : src.visit req v = .ends) : src.EndsAt req v := by
  rw [EndsAt, h]
  trivial

lemma Reaches.le (h : src.Reaches req v) (hends : src.EndsAt req V) : v ≤ V :=
  not_lt.mp fun hlt => h V hlt hends

lemma Reaches.mono (h : src.Reaches req v) (hle : u ≤ v) : src.Reaches req u :=
  fun t ht => h t (ht.trans_le hle)

lemma Reaches.slotAt_lt (h : src.Reaches req v) (hlt : u < v) :
    src.slotAt u < src.ring.slots.length :=
  slotAt_lt_of_visit fun hvisit => h u hlt (endsAt_of_ends hvisit)

lemma transferLoop_mono {range : RecordRange} {file : List (Record n)} {fuel : ℕ}
    {s : TransferState} {result : TransferResult}
    (h : req.transferLoop range file fuel s = some result) (k : ℕ) :
    req.transferLoop range file (fuel + k) s = some result := by
  induction fuel generalizing s with
  | zero => cases h
  | succ fuel ih =>
    rw [Nat.add_right_comm]
    rw [SampleRequest.transferLoop] at h ⊢
    split at h
    · rename_i hasked
      rw [if_pos hasked]
      split at h
      · exact h
      · exact ih h
    · rename_i hasked
      rw [if_neg hasked]
      exact h

/-- Every result of a transfer is the same. -/
lemma transfer_unique {fuel fuel' : ℕ} {result result' : TransferResult}
    (h : src.transfer req fuel = some result) (h' : src.transfer req fuel' = some result') :
    result = result' := by
  rw [transfer_eq] at h h'
  have hlong := transferLoop_mono h fuel'
  rw [Nat.add_comm, transferLoop_mono h' fuel] at hlong
  exact (Option.some.inj hlong).symm

/-- The indices that are accessed are those of the samples that are sent. -/
lemma ReadsSent.forall_index {s : TransferState} (h : ReadsSent s) {p : ℤ → Prop} :
    (∀ a ∈ s.accesses, p a.index) ↔ ∀ a ∈ sentKeys s, p a.2 := by
  have hsent : (sentKeys s).map Prod.snd = s.accesses.map SampleAccess.index := by
    rw [h.index_eq, sentKeys, List.map_map]
    rfl
  rw [← List.forall_mem_map (f := SampleAccess.index) (P := p), ← hsent, List.forall_mem_map]

/-- A transfer that ends with record number `V` is right when what it sends is. -/
lemma transfersRight_iff (hasked : 0 < req.iSamples) (hreach : src.Reaches req V)
    (hends : src.EndsAt req V) :
    src.TransfersRight req ↔
      (∀ a ∈ (src.offered req (V + 1)).take (limit req), 0 ≤ a.2) ∧
        ((src.offered req (V + 1)).take (limit req)).Pairwise src.Before := by
  obtain ⟨result, hresult, hkeys, hreads⟩ := transfer_ends hasked hreach hends
  rw [← hkeys]
  constructor
  · rintro ⟨fuel, result', hresult', haccess, hpairwise⟩
    obtain rfl := transfer_unique hresult' (hresult 0)
    exact ⟨hreads.forall_index.mp fun a ha => (haccess a ha).1, hpairwise⟩
  · rintro ⟨hindex, hpairwise⟩
    refine ⟨_, result, hresult 0, fun a ha => ?_, hpairwise⟩
    exact ⟨hreads.forall_index.mpr hindex a ha, hreads.lt a ha⟩

/-- The samples before a record that offers some, and its first one, are sent. -/
lemma sent_isPrefix (hasked : 0 < req.iSamples) (hreach : src.Reaches req V) (hle : v ≤ V)
    {r : Record n} (hvisit : src.visit req v = .gives r)
    (hstart : src.start req v r < (req.decoder.samples r).length) (hpos : 0 < limit req) :
    src.offered req v ++ [(src.slotAt v, src.start req v r)] <+:
      (src.offered req (V + 1)).take (limit req) := by
  obtain ⟨s, hs, -⟩ := transferLoop_walk hasked v (hreach.mono hle)
  have hroom : (src.offered req v).length < limit req := by
    rcases hs.under with hpassed | hlt
    · rwa [offered_of_passed hpassed]
    · exact hs.iSample ▸ hlt
  obtain ⟨rest, hoffers⟩ := offers_eq_cons hvisit hstart
  refine List.prefix_take_iff.mpr ⟨?_, by simpa using hroom⟩
  refine List.IsPrefix.trans ⟨rest, ?_⟩ (offered_isPrefix (Nat.succ_le_succ hle))
  rw [offered_succ, hoffers, List.append_assoc, List.singleton_append]

/-! ### Requests that fit -/

lemma SkipsForward.zero_le_start (h : src.SkipsForward req) (hpos : 0 < limit req) {r : Record n}
    (hvisit : src.visit req v = .gives r) : 0 ≤ src.start req v r := by
  rw [start]
  split_ifs with hpassed
  · exact h.resolve_left hpos.ne' v r hpassed hvisit
  · exact le_rfl

/-- A first record that starts too late is read before its first sample. -/
lemma TransfersRight.skip (h : src.TransfersRight req) (hasked : 0 < req.iSamples)
    (hreach : src.Reaches req V) (hends : src.EndsAt req V) : src.SkipsForward req := by
  refine or_iff_not_imp_left.mpr fun hzero v r hpassed hvisit => ?_
  have hle : v ≤ V := by
    refine not_lt.mp fun hlt => hends.not_passes (hpassed V hlt)
  have hstart : src.start req v r = req.iSkip r := if_pos hpassed
  by_contra hneg
  have hsent := sent_isPrefix hasked hreach hle hvisit (by omega) (Nat.pos_of_ne_zero hzero)
  have hmem := hsent.mem (List.mem_append_right _ (List.mem_singleton_self _))
  have hindex := ((transfersRight_iff hasked hreach hends).mp h).1 _ hmem
  rw [hstart] at hindex
  exact hneg hindex

/-- Of two records that offer samples the one that is read first is the older one. -/
lemma TransfersRight.older (h : src.TransfersRight req) (hasked : 0 < req.iSamples)
    (hreach : src.Reaches req V) (hends : src.EndsAt req V) (hpos : 0 < limit req) (hlt : u < v)
    (hle : v ≤ V) (hu : src.offers req u ≠ []) (hv : src.offers req v ≠ []) :
    Older src.ring.newest (src.slotAt u) (src.slotAt v) := by
  obtain ⟨r, hvisit, hstart⟩ := gives_of_offers hu
  obtain ⟨r', hvisit', hstart'⟩ := gives_of_offers hv
  have hpairwise := ((transfersRight_iff hasked hreach hends).mp h).2.sublist
    (sent_isPrefix hasked hreach hle hvisit' hstart' hpos).sublist
  have hfirst : (src.slotAt u, src.start req u r) ∈ src.offered req v :=
    mem_offered.mpr ⟨u, hlt, mem_offers.mpr ⟨r, hvisit, rfl, le_rfl, hstart⟩⟩
  have hbefore := (List.pairwise_append.mp hpairwise).2.2 _ hfirst _ (List.mem_singleton_self _)
  refine hbefore.resolve_right fun hsame => ?_
  have hindex : src.start req u r < 0 := start_eq_zero hvisit hlt ▸ hsame.2
  have hskip := (h.skip hasked hreach hends).zero_le_start hpos hvisit
  exact absurd hindex (not_lt.mpr hskip)

end SampleSource

/-! ### A loop that wraps -/

end StationProcessor
