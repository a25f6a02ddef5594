import StationProcessor.Ofcweb.OFCb2000

/-!
# Fragments

`MakeOpaqueSeed` marks the fragments of a message in two bits of `data_flags`; `ofadump` and
`GetLastTimeCSV` look at two others, and `OFCb2000` takes the middle fragments for the last one.
So the readers agree with it about messages of one record only.
-/

namespace StationProcessor

namespace Ofcweb

/-- What the readers make of the records of a message: the message, once, complete at its last
record; and what they hold fits. -/
structure OpaqueAgree (recordSize : ℕ) (data : Bytes) (records : List Bytes) : Prop where
  dump : dumpRecords records = some [(records.length - 1, data)]
  ofc : readRecords records = some [(records.length - 1, data)]
  header : ∀ bs, numberedBlockettes 0 records = some bs → ∀ p ∈ bs, readsHeader p.2 → p.1 = 0
  room : ∀ bs, numberedBlockettes 0 records = some bs → ∀ p ∈ bs, 56 + shortAt p.2 4 ≤ recordSize

lemma zipIdx_map_range {α : Type} (f : ℕ → α) (n : ℕ) :
    ((List.range n).map f).zipIdx = (List.range n).map fun i => (f i, i) := by
  refine List.ext_getElem (by simp) ?_
  intro i h1 h2
  simp

lemma dataFlags_and (count i : ℕ) : dataFlags count i &&& (0x0c : UInt8) = 0x00 := by
  rw [dataFlags]
  split_ifs <;> rfl

lemma dataFlags_zero_and (count : ℕ) : dataFlags count 0 &&& (0x28 : UInt8) = 0 := by
  rw [dataFlags, if_pos rfl]
  split_ifs <;> rfl

/-- A blockette of `MakeOpaqueSeed` is complete for `ofadump`. -/
lemma dumpBlockette_eq {b : Blockette} {s : Bytes} (h : StartsWith s b)
    (hflags : b.flags &&& (0x0c : UInt8) = 0x00) (dataComplete : Bool) :
    ∃ dataComplete', dumpBlockette dataComplete s = (dataComplete', some b.data) := by
  simp only [dumpBlockette, h.flags, h.data, hflags, if_true]
  split_ifs
  · exact ⟨_, rfl⟩
  · exact ⟨_, rfl⟩
  · exact ⟨_, rfl⟩

section Fragments

variable {recordSize multi count : ℕ} {channel data : Bytes} {idstring : CString}
  {records : List Bytes} {nbs : List (ℕ × Bytes)} {B : ℕ → Blockette} {is : List ℕ}

/-- Numbered blockettes, those of `B` with these numbers. -/
def NumberedBy (B : ℕ → Blockette) (nbs : List (ℕ × Bytes)) (is : List ℕ) : Prop :=
  List.Forall₂ (fun p i => p.1 = i ∧ StartsWith p.2 (B i)) nbs is

lemma NumberedBy.exists_of_mem (h : NumberedBy B nbs is) {p : ℕ × Bytes} (hp : p ∈ nbs) :
    p.1 ∈ is ∧ StartsWith p.2 (B p.1) := by
  induction h with
  | nil => cases hp
  | @cons q i nbs is hq _ ih =>
    rcases List.mem_cons.mp hp with rfl | hp
    · exact ⟨hq.1 ▸ List.mem_cons_self, hq.1 ▸ hq.2⟩
    · exact ⟨List.mem_cons_of_mem _ (ih hp).1, (ih hp).2⟩

lemma NumberedBy.exists_mem (h : NumberedBy B nbs is) {i : ℕ} (hi : i ∈ is) :
    ∃ p ∈ nbs, p.1 = i ∧ StartsWith p.2 (B i) := by
  induction h with
  | nil => cases hi
  | @cons p j nbs is hp _ ih =>
    rcases List.mem_cons.mp hi with rfl | hi
    · exact ⟨p, List.mem_cons_self, hp⟩
    · obtain ⟨q, hq, hqi⟩ := ih hi
      exact ⟨q, List.mem_cons_of_mem _ hq, hqi⟩

/-- `ofadump` takes every fragment for a message. -/
lemma dumpMessages_eq (h : NumberedBy B nbs is)
    (hflags : ∀ i ∈ is, (B i).flags &&& (0x0c : UInt8) = 0x00) (dataComplete : Bool) :
    dumpMessages dataComplete nbs = is.map fun i => (i, (B i).data) := by
  induction h generalizing dataComplete with
  | nil => rfl
  | @cons p i nbs is hp _ ih =>
    obtain ⟨j, s⟩ := p
    obtain ⟨rfl, hs⟩ := hp
    rw [List.forall_mem_cons] at hflags
    obtain ⟨dataComplete', hb⟩ := dumpBlockette_eq hs hflags.1 dataComplete
    simp only [dumpMessages, hb, ih hflags.2, List.map_cons]
    rfl

/-- `Continue` ends a message at fragments that others follow. -/
lemma continueAll_lt
    (h : List.Forall₂ (fun (p : ℕ × Bytes) i => p.1 = i ∧ (B i).size < 65536 ∧
      ∃ next, p.2 = (B i).toBytes next) nbs is)
    (hflags : ∀ i ∈ is, (B i).flags = 0x30 ∧ i + 1 < count ∨ (B i).flags = 0x20)
    {s : OFCb2000} {d : Bytes} (hs : s.continueData = some d) :
    ∃ es, continueAll s nbs = some es ∧ ∀ e ∈ es, e.1 + 1 < count := by
  induction h generalizing s d with
  | nil => exact ⟨[], rfl, by simp⟩
  | @cons p i nbs is hp _ ih =>
    obtain ⟨j, bs⟩ := p
    obtain ⟨hj, hsize, next, hbs⟩ := hp
    simp only at hj hbs
    subst hj hbs
    rw [List.forall_mem_cons] at hflags
    have hcontinue := continue_eq hsize next hs (hflags.1.imp_left And.left)
    let rawData := d ++ ((B j).data ++ List.replicate (B j).header.length 0)
    rcases hflags.1 with ⟨hmiddle, hlt⟩ | hlast
    · simp only [if_pos hmiddle] at hcontinue
      obtain ⟨es, hes, hall⟩ := ih hflags.2 (s := ⟨false, some rawData⟩) rfl
      refine ⟨(j, rawData) :: es, ?_, List.forall_mem_cons.mpr ⟨hlt, hall⟩⟩
      rw [continueAll, hcontinue]
      simp [rawData, hes]
    · have hnot : (B j).flags ≠ 0x30 := by
        rw [hlast]
        exact of_decide_eq_true rfl
      simp only [if_neg hnot] at hcontinue
      obtain ⟨es, hes, hall⟩ := ih hflags.2 (s := ⟨s.bContinuation, some rawData⟩) rfl
      refine ⟨es, ?_, hall⟩
      rw [continueAll, hcontinue]
      simp [rawData, hes]

/-- The blockettes of the records of a message. -/
lemma exists_numbered (h : Fragments recordSize channel data idstring multi records) :
    let count := numRecords data.length (freeSpace recordSize idstring)
    let B := opaqueBlockette multi data idstring (freeSpace recordSize idstring) count
    ∃ nbs, numberedBlockettes 0 records = some nbs ∧ NumberedBy B nbs (List.range count) ∧
      ∀ i ∈ List.range count, 56 + (B i).size ≤ recordSize := by
  intro count B
  obtain ⟨nbs, hnbs, hall⟩ := numberedBlockettes_packed 0
    (List.forall₂_map_right_iff.mpr h.packed)
  rw [zipIdx_map_range] at hall
  refine ⟨nbs, hnbs, List.forall₂_map_right_iff.mp hall, ?_⟩
  have hroom := h.packed.flip.imp fun i record hpacked => (⟨hpacked.room, trivial⟩ :
    56 + (B i).size ≤ recordSize ∧ True)
  exact ((List.forall₂_and_left _ _).mp hroom).1

lemma length_fragments (h : Fragments recordSize channel data idstring multi records) :
    records.length = numRecords data.length (freeSpace recordSize idstring) := by
  rw [h.packed.length_eq, List.length_range]

/-- A message takes one record if it fits. -/
lemma numRecords_eq_one_iff {free : ℕ} (hfree : 0 < free) (hdata : data ≠ []) :
    numRecords data.length free = 1 ↔ data.length ≤ free := by
  obtain ⟨hbelow, habove, hpos⟩ := numRecords_bounds hfree hdata
  constructor
  · intro hone
    rwa [hone, Nat.one_mul] at habove
  · intro hle
    by_contra hmany
    have hfirst : 1 * free ≤ (numRecords data.length free - 1) * free :=
      Nat.mul_le_mul_right free (by omega)
    rw [Nat.one_mul] at hfirst
    exact absurd hbelow (not_lt.mpr (hle.trans hfirst))

lemma dataPart_one (data : Bytes) (free : ℕ) : dataPart data free 1 0 = data := by
  simp [dataPart]

/-- `ofadump` agrees about messages of one record. -/
lemma dumpRecords_eq_iff (h : Fragments recordSize channel data idstring multi records)
    (hdata : data ≠ []) :
    dumpRecords records = some [(records.length - 1, data)] ↔
      data.length ≤ freeSpace recordSize idstring := by
  obtain ⟨nbs, hnbs, hall, -⟩ := exists_numbered h
  have hdump := dumpMessages_eq hall (fun i _ => dataFlags_and _ i) false
  rw [← numRecords_eq_one_iff h.free hdata, dumpRecords, hnbs, Option.map_some, hdump,
    length_fragments h]
  constructor
  · intro heq
    have hlen := congrArg List.length (Option.some.inj heq)
    simpa using hlen
  · intro hone
    rw [hone]
    simp [opaqueBlockette, dataPart_one]

/-- `GetLastTimeCSV` reads a header in every fragment. -/
lemma readsHeader_eq {b : Blockette} {s : Bytes} (h : StartsWith s b)
    (hflags : b.flags &&& (0x0c : UInt8) = 0x00) : readsHeader s = true := by
  rw [readsHeader, h.type, h.flags, hflags]
  rfl

lemma readsHeader_iff (h : Fragments recordSize channel data idstring multi records)
    (hdata : data ≠ []) :
    (∀ bs, numberedBlockettes 0 records = some bs → ∀ p ∈ bs, readsHeader p.2 → p.1 = 0) ↔
      data.length ≤ freeSpace recordSize idstring := by
  obtain ⟨nbs, hnbs, hall, -⟩ := exists_numbered h
  rw [← numRecords_eq_one_iff h.free hdata]
  have hpos := (numRecords_bounds h.free hdata).2.2
  constructor
  · intro hzero
    obtain ⟨p, hp, hlast, hstarts⟩ := hall.exists_mem
      (List.mem_range.mpr (Nat.sub_lt hpos Nat.one_pos))
    have hfirst := hzero nbs hnbs p hp (readsHeader_eq hstarts (dataFlags_and _ _))
    omega
  · intro hone bs hbs p hp _
    cases hnbs.symm.trans hbs
    have hmem := (hall.exists_of_mem hp).1
    rw [hone] at hmem
    exact Nat.lt_one_iff.mp (List.mem_range.mp hmem)

/-- `OFCb2000` agrees about messages of one record without an id string. -/
lemma readRecords_eq_iff (h : Fragments recordSize channel data idstring multi records)
    (hdata : data ≠ []) :
    readRecords records = some [(records.length - 1, data)] ↔
      data.length ≤ freeSpace recordSize idstring ∧ idstring.val = [] := by
  obtain ⟨nbs, hnbs, hall, -⟩ := exists_numbered h
  have hpos := (numRecords_bounds h.free hdata).2.2
  rw [← numRecords_eq_one_iff h.free hdata, readRecords, hnbs, length_fragments h]
  set count := numRecords data.length (freeSpace recordSize idstring) with hcount
  set B := opaqueBlockette multi data idstring (freeSpace recordSize idstring) count with hB
  -- the arrays of the blockettes
  have harrays : List.Forall₂ (fun (p : ℕ × Bytes) i => p.1 = i ∧ (B i).size < 65536 ∧
      ∃ next, p.2 = (B i).toBytes next)
      (nbs.map fun p => (p.1, p.2.take (shortAt p.2 4))) (List.range count) := by
    refine List.forall₂_map_left_iff.mpr (hall.imp ?_)
    rintro ⟨j, s⟩ i ⟨hj, hs⟩
    exact ⟨hj, hs.1, array_eq hs⟩
  obtain ⟨k, hk⟩ := Nat.exists_eq_add_one_of_ne_zero hpos.ne'
  rw [hk, List.range_succ_eq_map] at harrays
  obtain ⟨⟨j, first⟩, rest, ⟨hj, hsize, next, hfirst⟩, hrest, heq⟩ :=
    List.forall₂_cons_right_iff.mp harrays
  simp only at hj hfirst
  subst hj hfirst
  have hflags : (B 0).flags &&& (0x28 : UInt8) = 0 := dataFlags_zero_and count
  have hnew := newOFCb2000_eq hsize next hflags
  have hzeros : (B 0).header.length = idstring.val.length := by
    rw [hB, opaqueBlockette, length_headerField]
  cases k with
  | zero =>
    -- one record, for which there are no others
    have hnil := List.forall₂_nil_right_iff.mp hrest
    subst hnil
    have hdata : (B 0).data = data := by
      show dataPart data _ count 0 = data
      rw [hk]
      exact dataPart_one data _
    have hsingle :
        ¬((B 0).flags &&& (0x0c : UInt8) = 0x04 ∨ (B 0).flags &&& (0x30 : UInt8) = 0x10) := by
      show ¬(dataFlags count 0 &&& (0x0c : UInt8) = 0x04 ∨
        dataFlags count 0 &&& (0x30 : UInt8) = 0x10)
      rw [hk]
      exact of_decide_eq_true rfl
    rw [if_neg hsingle, hdata, hzeros] at hnew
    rw [hk]
    simp [heq, readMessages, hnew, continueAll]
  | succ k =>
    have hseries : (B 0).flags &&& (0x0c : UInt8) = 0x04 ∨
        (B 0).flags &&& (0x30 : UInt8) = 0x10 := by
      show dataFlags count 0 &&& (0x0c : UInt8) = 0x04 ∨ dataFlags count 0 &&& (0x30 : UInt8) = 0x10
      rw [dataFlags, if_pos (by omega), if_pos rfl]
      exact Or.inr rfl
    rw [if_pos hseries] at hnew
    have hothers : ∀ i ∈ (List.range (k + 1)).map Nat.succ,
        (B i).flags = 0x30 ∧ i + 1 < count ∨ (B i).flags = 0x20 := by
      intro i hi
      obtain ⟨l, -, rfl⟩ := List.mem_map.mp hi
      show dataFlags count l.succ = 0x30 ∧ l.succ + 1 < count ∨ dataFlags count l.succ = 0x20
      rw [dataFlags, if_pos (by omega), if_neg (Nat.succ_ne_zero l)]
      by_cases hmiddle : l.succ + 1 < count
      · rw [if_pos hmiddle]
        exact Or.inl ⟨rfl, hmiddle⟩
      · rw [if_neg hmiddle]
        exact Or.inr rfl
    obtain ⟨es, hes, hall⟩ := continueAll_lt hrest hothers
      (s := ⟨true, some ((B 0).data ++ List.replicate (B 0).header.length 0)⟩) rfl
    constructor
    · intro hread
      have hlist : es = [(count - 1, data)] := by
        simpa [heq, readMessages, hnew, hes] using hread
      have hlt := hall (count - 1, data) (by simp [hlist])
      omega
    · rintro ⟨hone, -⟩
      omega

end Fragments

/-- All readers agree with `MakeOpaqueSeed` about a message if and only if it fits into one record
and there is no id string. -/
theorem opaque_agree_iff {multi multi' seqno recordSize : ℕ} {data : Bytes} {name : OpaqueName}
    {channel : CString} {now : ℕ → Utc} {records : List Bytes}
    (h : makeOpaqueSeed multi data seqno name channel recordSize now = .ok (multi', records))
    (hdata : data ≠ []) :
    OpaqueAgree recordSize data records ↔
      data.length ≤ freeSpace recordSize name.idstring ∧ name.idstring.val = [] := by
  have hfragments := makeOpaqueSeed_fragments h hdata
  constructor
  · intro hagree
    exact (readRecords_eq_iff hfragments hdata).mp hagree.ofc
  · intro hone
    refine ⟨(dumpRecords_eq_iff hfragments hdata).mpr hone.1,
      (readRecords_eq_iff hfragments hdata).mpr hone,
      (readsHeader_iff hfragments hdata).mpr hone.1, ?_⟩
    intro bs hbs p hp
    obtain ⟨nbs, hnbs, hall, hroom⟩ := exists_numbered hfragments
    cases hnbs.symm.trans hbs
    obtain ⟨hmem, hstarts⟩ := hall.exists_of_mem hp
    rw [hstarts.size]
    exact hroom p.1 hmem

/-- A station whose messages have the given id string. -/
def stationName (idstring : CString) : OpaqueName :=
  ⟨⟨ascii "ANMO", zero_notMem_anmo⟩, ⟨ascii "IU", zero_notMem_iu⟩, ⟨ascii "90", by decide⟩,
    idstring⟩

def csvChannel : CString := ⟨ascii "OFC", zero_notMem_ofc⟩

def newYear : Utc := ⟨2024, 1, 0, 0, 0⟩

lemma makes_short : Makes 512 ⟨[], zero_notMem_nil⟩ [1] 9 where
  free := by decide
  memory := by decide
  code := rfl
  ends := by simp

/-- A message of one byte, without an id string. -/
theorem opaque_agree_iff_short : ∃ multi records,
    makeOpaqueSeed 0 [1] 1 (stationName ⟨[], zero_notMem_nil⟩) csvChannel 512 (fun _ => newYear)
      = .ok (multi, records) ∧ OpaqueAgree 512 [1] records := by
  have hmake : makeOpaqueSeed 0 [1] 1 (stationName ⟨[], zero_notMem_nil⟩) csvChannel 512
      (fun _ => newYear) = .ok (_, _) := makeOpaqueSeed_eq makes_short (List.cons_ne_nil _ _)
  exact ⟨_, _, hmake, (opaque_agree_iff hmake (List.cons_ne_nil _ _)).mpr ⟨by decide, rfl⟩⟩

/-- `FALCON_IDSTRING` -/
def falconIdstring : CString := ⟨ascii "FALC~", by decide⟩

lemma makes_long : Makes 512 falconIdstring (List.replicate 500 1) 9 where
  free := by decide
  memory := by
    rw [List.length_replicate]
    decide
  code := rfl
  ends := by decide

/-- About a message of 500 bytes the readers do not agree. -/
theorem opaque_disagree : ∃ multi records,
    makeOpaqueSeed 0 (List.replicate 500 1) 1 (stationName falconIdstring) csvChannel 512
      (fun _ => newYear) = .ok (multi, records) ∧
    ¬OpaqueAgree 512 (List.replicate 500 1) records := by
  have hne : List.replicate 500 (1 : UInt8) ≠ [] :=
    List.ne_nil_of_length_pos (by rw [List.length_replicate]; norm_num)
  have hmake : makeOpaqueSeed 0 (List.replicate 500 1) 1 (stationName falconIdstring) csvChannel
      512 (fun _ => newYear) = .ok (_, _) := makeOpaqueSeed_eq makes_long hne
  refine ⟨_, _, hmake, ?_⟩
  intro hagree
  have hfits := (dumpRecords_eq_iff (makeOpaqueSeed_fragments hmake hne) hne).mp hagree.dump
  rw [List.length_replicate] at hfits
  exact absurd hfits (by decide)

end Ofcweb

end StationProcessor
