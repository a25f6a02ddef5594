import Mathlib.Data.List.DropRight
import StationProcessor.Ida2chan.Export

/-!
# Writing to an IDA disk loop

`isimkdl` creates a disk loop with hidden packets: the youngest packet never comes up to the oldest
one, since both move on once the logical end is reached. So every loop that `isidl` has written has
the spare slot the export needs.
-/

namespace StationProcessor

namespace Ida2chan

open SpareRing

/-- `ISI_UNDEFINED_INDEX` -/
def isiUndefinedIndex : ℕ := 0xFFFFFFFF

/-- `ISI_INDEX` -/
structure IsiIndex where
  active : ℕ
  oldest : ℕ
  yngest : ℕ
  lend : ℕ
deriving DecidableEq

/-- A disk loop: the fields of `ISI_DL_SYS` that the indices depend on, and the packets. -/
structure IsiDl where
  numpkt : ℕ
  index : IsiIndex
  packet : ℕ → SeedRecord

/-- `isidlCreateDiskLoop`, with whatever the new file holds. -/
def isidlCreateDiskLoop (numpkt nhide : ℕ) (packet : ℕ → SeedRecord) : IsiDl where
  numpkt := numpkt + nhide
  index := ⟨0, isiUndefinedIndex, isiUndefinedIndex, numpkt + nhide - nhide⟩
  packet := packet

/-- `IncrementIndicies` -/
def incrementIndicies (index : IsiIndex) (numpkt : ℕ) : IsiIndex :=
  let oldest := if index.oldest = isiUndefinedIndex then index.active else index.oldest
  let yngest := index.active
  { active := (index.active + 1) % numpkt
    oldest := if yngest = index.lend then (oldest + 1) % numpkt else oldest
    yngest := yngest
    lend := if yngest = index.lend then (index.lend + 1) % numpkt else index.lend }

/-- The part of `isidlWriteToDiskLoop` that writes a packet. -/
def writeToDiskLoop (dl : IsiDl) (packet : SeedRecord) : IsiDl where
  numpkt := dl.numpkt
  index := incrementIndicies dl.index dl.numpkt
  packet := Function.update dl.packet dl.index.active packet

/-! ### What a loop holds -/

/-- The loop of `nrec` packets and at least one hidden one holds these, the oldest in slot
`oldest`. -/
structure HoldsFrom (nrec : ℕ) (dl : IsiDl) (held : List SeedRecord) (oldest : ℕ) : Prop where
  oldest_lt : oldest < dl.numpkt
  first : dl.index.oldest = if held = [] then isiUndefinedIndex else oldest
  newest : held ≠ [] → dl.index.yngest = (oldest + (held.length - 1)) % dl.numpkt
  active : dl.index.active = (oldest + held.length) % dl.numpkt
  lend : dl.index.lend = (oldest + nrec) % dl.numpkt
  length_le : held.length ≤ nrec
  packets : (slots dl.numpkt oldest held.length).map dl.packet = held

lemma holdsFrom_create {nrec nhide : ℕ} (hhide : 0 < nhide) (packet : ℕ → SeedRecord) :
    HoldsFrom nrec (isidlCreateDiskLoop nrec nhide packet) [] 0 where
  oldest_lt := Nat.add_pos_right nrec hhide
  first := rfl
  newest h := absurd rfl h
  active := (Nat.zero_mod _).symm
  lend := by
    simp only [isidlCreateDiskLoop, Nat.add_sub_cancel, Nat.zero_add]
    exact (Nat.mod_eq_of_lt (Nat.lt_add_of_pos_right hhide)).symm
  length_le := Nat.zero_le nrec
  packets := rfl

section Write

variable {nrec oldest : ℕ} {dl : IsiDl} {held : List SeedRecord} (h : HoldsFrom nrec dl held oldest)
  (hsmall : dl.numpkt ≤ isiUndefinedIndex) (hnrec : nrec < dl.numpkt) (packet : SeedRecord)

include h hsmall

/-- The oldest slot after the first assignment. -/
lemma HoldsFrom.first_eq : (if dl.index.oldest = isiUndefinedIndex then dl.index.active
    else dl.index.oldest) = oldest := by
  rw [h.first]
  by_cases hnil : held = []
  · rw [if_pos hnil, if_pos rfl, h.active, hnil]
    exact Nat.mod_eq_of_lt h.oldest_lt
  · rw [if_neg hnil, if_neg (h.oldest_lt.trans_le hsmall).ne]

include hnrec

/-- In front of the logical end the oldest packet stays. -/
lemma HoldsFrom.write_room (hlt : held.length < nrec) :
    HoldsFrom nrec (writeToDiskLoop dl packet) (held ++ [packet]) oldest := by
  have hnot : dl.index.active ≠ dl.index.lend := by
    rw [h.active, h.lend]
    exact fun heq => hlt.ne (offset_inj (hlt.trans hnrec) hnrec heq)
  have hindex : (writeToDiskLoop dl packet).index
      = ⟨(dl.index.active + 1) % dl.numpkt, oldest, dl.index.active, dl.index.lend⟩ := by
    simp only [writeToDiskLoop, incrementIndicies, h.first_eq hsmall, if_neg hnot]
  have hfree : dl.index.active ∉ slots dl.numpkt oldest held.length := by
    rw [h.active]
    exact next_notMem (hlt.trans hnrec)
  have hkeep : (slots dl.numpkt oldest held.length).map
      (Function.update dl.packet dl.index.active packet) = held := by
    refine (List.map_congr_left fun i hi => ?_).trans h.packets
    exact Function.update_of_ne (ne_of_mem_of_not_mem hi hfree) _ _
  have hlength : (held ++ [packet]).length = held.length + 1 := by simp
  have hsome : held ++ [packet] ≠ [] := by simp
  refine ⟨h.oldest_lt, ?_, ?_, ?_, ?_, ?_, ?_⟩
  · rw [hindex, if_neg hsome]
  · intro _
    rw [hindex, hlength, Nat.add_sub_cancel]
    exact h.active
  · rw [hindex, hlength, h.active, Nat.mod_add_mod, Nat.add_assoc]
    rfl
  · rw [hindex]
    exact h.lend
  · rw [hlength]
    exact hlt
  · simp only [writeToDiskLoop, hlength, slots_push, List.map_append, hkeep, List.map_singleton,
      ← h.active, Function.update_self]

/-- At the logical end the oldest packet is given up. -/
lemma HoldsFrom.write_full (hpos : 0 < nrec) (hfull : held.length = nrec) :
    HoldsFrom nrec (writeToDiskLoop dl packet) (held.tail ++ [packet])
      ((oldest + 1) % dl.numpkt) := by
  obtain ⟨k, rfl⟩ := Nat.exists_eq_add_one_of_ne_zero hpos.ne'
  have hat : dl.index.active = dl.index.lend := by rw [h.active, h.lend, hfull]
  have hindex : (writeToDiskLoop dl packet).index = ⟨(dl.index.active + 1) % dl.numpkt,
      (oldest + 1) % dl.numpkt, dl.index.active, (dl.index.lend + 1) % dl.numpkt⟩ := by
    simp only [writeToDiskLoop, incrementIndicies, h.first_eq hsmall, if_pos hat]
  have hnext : ((oldest + 1) % dl.numpkt + k) % dl.numpkt = dl.index.active := by
    rw [Nat.mod_add_mod, h.active, hfull, Nat.add_assoc, Nat.add_comm 1]
  have hfree : dl.index.active ∉ slots dl.numpkt ((oldest + 1) % dl.numpkt) k := by
    rw [← hnext]
    exact next_notMem ((Nat.lt_succ_self k).trans hnrec)
  have hpackets := h.packets
  rw [hfull, slots_pop h.oldest_lt, List.map_cons] at hpackets
  have hkeep : (slots dl.numpkt ((oldest + 1) % dl.numpkt) k).map
      (Function.update dl.packet dl.index.active packet) = held.tail := by
    rw [← hpackets, List.tail_cons]
    refine List.map_congr_left fun i hi => ?_
    exact Function.update_of_ne (ne_of_mem_of_not_mem hi hfree) _ _
  have hlength : (held.tail ++ [packet]).length = k + 1 := by simp [hfull]
  have hsome : held.tail ++ [packet] ≠ [] := by simp
  refine ⟨Nat.mod_lt _ (hpos.trans hnrec), ?_, ?_, ?_, ?_, hlength.le, ?_⟩
  · rw [hindex, if_neg hsome]
  · intro _
    rw [hindex, hlength, Nat.add_sub_cancel]
    exact hnext.symm
  · rw [hindex, hlength, ← hnext, Nat.mod_add_mod, Nat.add_assoc]
    rfl
  · rw [hindex, h.lend]
    simp only [writeToDiskLoop, Nat.mod_add_mod]
    rw [Nat.add_right_comm]
  · simp only [writeToDiskLoop, hlength, slots_push, List.map_append, hkeep, List.map_singleton,
      hnext, Function.update_self]

/-- A loop holds the packets that were written last. -/
lemma HoldsFrom.write (hpos : 0 < nrec) : ∃ oldest',
    HoldsFrom nrec (writeToDiskLoop dl packet) ((held ++ [packet]).rtake nrec) oldest' := by
  rcases h.length_le.lt_or_eq with hlt | hfull
  · have hheld : (held ++ [packet]).rtake nrec = held ++ [packet] := by
      rw [List.rtake, List.length_append, List.length_singleton, Nat.sub_eq_zero_of_le hlt,
        List.drop_zero]
    rw [hheld]
    exact ⟨oldest, h.write_room hsmall hnrec packet hlt⟩
  · have hheld : (held ++ [packet]).rtake nrec = held.tail ++ [packet] := by
      have hone : 1 ≤ held.length := hfull.symm ▸ hpos
      rw [List.rtake, List.length_append, List.length_singleton, hfull, Nat.add_sub_cancel_left,
        List.drop_append_of_le_length hone, List.drop_one]
    rw [hheld]
    exact ⟨_, h.write_full hsmall hnrec packet hpos hfull⟩

end Write

/-- The packets that are held after all of these were written. -/
lemma rtake_rtake_concat {α : Type*} (l : List α) (x : α) (n : ℕ) :
    (l.rtake n ++ [x]).rtake n = (l ++ [x]).rtake n := by
  have hshift : l.drop (l.length - n) ++ [x] = (l ++ [x]).drop (l.length - n) :=
    (List.drop_append_of_le_length (Nat.sub_le _ _)).symm
  simp only [List.rtake, hshift, List.drop_drop, List.length_drop, List.length_append,
    List.length_singleton]
  congr 1
  omega

/-- Whatever was written to a loop, it holds the packets that were written last. -/
lemma exists_holdsFrom {nrec nhide : ℕ} (hpos : 0 < nrec) (hhide : 0 < nhide)
    (hsmall : nrec + nhide ≤ isiUndefinedIndex) (packet : ℕ → SeedRecord)
    (written : List SeedRecord) :
    ∃ oldest, HoldsFrom nrec (written.foldl writeToDiskLoop (isidlCreateDiskLoop nrec nhide packet))
      (written.rtake nrec) oldest ∧
      (written.foldl writeToDiskLoop (isidlCreateDiskLoop nrec nhide packet)).numpkt
        = nrec + nhide := by
  induction written using List.reverseRecOn with
  | nil => exact ⟨0, by simpa using holdsFrom_create hhide packet, rfl⟩
  | append_singleton written p ih =>
    obtain ⟨oldest, hold, hnumpkt⟩ := ih
    rw [List.foldl_append, ← rtake_rtake_concat]
    obtain ⟨oldest', hold'⟩ := hold.write (hnumpkt ▸ hsmall) (by omega) p hpos
    exact ⟨oldest', hold', hnumpkt⟩

/-! ### The export of what was written -/

/-- The snapshot of a disk loop. -/
def IsiDl.snapshot (dl : IsiDl) (ho : dl.index.oldest < dl.numpkt)
    (hy : dl.index.yngest < dl.numpkt) : IdaLoop :=
  ⟨dl.numpkt, dl.index.oldest, dl.index.yngest, dl.packet, ho, hy⟩

/-- How far the youngest slot is from the oldest. -/
lemma add_sub_mod {n oldest k : ℕ} (ho : oldest < n) (hk : k < n) :
    ((oldest + k) % n + n - oldest) % n = k := by
  rcases Nat.lt_or_ge (oldest + k) n with hlt | hge
  · rw [Nat.mod_eq_of_lt hlt, show oldest + k + n - oldest = k + n by omega, Nat.add_mod_right,
      Nat.mod_eq_of_lt hk]
  · rw [Nat.mod_eq_sub_mod hge, Nat.mod_eq_of_lt (by omega : oldest + k - n < n),
      show oldest + k - n + n - oldest = k by omega, Nat.mod_eq_of_lt hk]

/-- A loop that is not empty has a snapshot, with a spare slot and the packets it holds. -/
lemma HoldsFrom.snapshot {nrec oldest : ℕ} {dl : IsiDl} {held : List SeedRecord}
    (h : HoldsFrom nrec dl held oldest) (hnrec : nrec < dl.numpkt) (hsome : held ≠ []) :
    ∃ ho hy, (dl.snapshot ho hy).iEnd ≠ (dl.snapshot ho hy).oldest ∧
      (dl.snapshot ho hy).records = held.map SeedRecord.record := by
  have hlength : held.length - 1 + 1 = held.length :=
    Nat.sub_add_cancel (List.length_pos_of_ne_nil hsome)
  have hlt : held.length < dl.numpkt := h.length_le.trans_lt hnrec
  have hfirst : dl.index.oldest = oldest := by rw [h.first, if_neg hsome]
  have hnewest := h.newest hsome
  refine ⟨hfirst ▸ h.oldest_lt, hnewest ▸ Nat.mod_lt _ ((Nat.zero_le _).trans_lt hnrec), ?_⟩
  generalize_proofs ho hy
  have hcount : (dl.snapshot ho hy).count = held.length := by
    simp only [IdaLoop.count, IsiDl.snapshot, hfirst, hnewest]
    rw [add_sub_mod h.oldest_lt (by omega), hlength]
  refine ⟨(IdaLoop.count_lt_iff _).mp (hcount ▸ hlt), ?_⟩
  rw [IdaLoop.records, IdaLoop.slots, hcount]
  simp only [IsiDl.snapshot, hfirst]
  conv_rhs => rw [← h.packets]
  rw [List.map_map]
  rfl

/-- From every loop that was created with hidden packets, and to which packets were written, the
export takes those that were written last, as many as the loop was created for. -/
theorem written_export_complete {nrec nhide : ℕ} (hpos : 0 < nrec) (hhide : 0 < nhide)
    (hsmall : nrec + nhide ≤ isiUndefinedIndex) (packet : ℕ → SeedRecord)
    {written : List SeedRecord} (hsome : written ≠ []) (files : Bytes → List (Record 512)) :
    let dl := written.foldl writeToDiskLoop (isidlCreateDiskLoop nrec nhide packet)
    ∃ ho hy s, (∀ fuel, dl.numpkt < fuel → exportRecords (dl.snapshot ho hy) fuel files = some s) ∧
      Complete (dl.snapshot ho hy) files s ∧
      (dl.snapshot ho hy).records = (written.rtake nrec).map SeedRecord.record := by
  obtain ⟨oldest, hholds, hnumpkt⟩ := exists_holdsFrom hpos hhide hsmall packet written
  have hheld : written.rtake nrec ≠ [] := by
    intro hnil
    have hlength := congrArg List.length hnil
    have hwritten := List.length_pos_of_ne_nil hsome
    simp only [List.rtake, List.length_drop, List.length_nil] at hlength
    omega
  obtain ⟨ho, hy, hspare, hrecords⟩ :=
    hholds.snapshot (hnumpkt ▸ Nat.lt_add_of_pos_right hhide) hheld
  obtain ⟨s, hrun, hcomplete⟩ := export_complete _ hspare files
  exact ⟨ho, hy, s, hrun, hcomplete, hrecords⟩

end Ida2chan

end StationProcessor
