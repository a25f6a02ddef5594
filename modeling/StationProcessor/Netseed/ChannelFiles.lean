import StationProcessor.Netseed.DirListing

/-!
# The files of a station

A station directory with the disk loops of its channels. Where `GetRecordRange` finds the records
of an interval, the loop of `cmd_DIRREQ` lists the channels that match and have such records.
-/

namespace StationProcessor.Netseed

open Gregorian Wildcard

variable {n : ℕ}

/-! ### Disk loops -/

/-- The time from the start of a record to its end has a moment in the interval. -/
def InInterval (a c : ℤ) (r : Bytes) : Prop :=
  a ≤ c ∧ (headerStart r).place ≤ c ∧ a ≤ (headerStart r).place + recordSpan r

instance (a c : ℤ) : DecidablePred (InInterval a c) := fun _ =>
  inferInstanceAs (Decidable (_ ∧ _ ∧ _))

/-- The disk loop of a channel with its codes as they are in a record, where a blank location is
of two spaces. Its records start in the years from 1950 on for which the time routines are made,
and its size is one that `ParseDiskLoopConfig` lets pass. -/
structure ChannelBuffer (n : ℕ) where
  location : Bytes
  channel : Bytes
  slots : List (Record n)
  newest : ℕ
  hlocation : location = ascii "  " ∨ location.length = 2 ∧ ∀ b ∈ location, isAlnum b = true
  hchannel : channel.length = 3 ∧ ∀ b ∈ channel, isAlnum b = true
  hrecords : ∀ r ∈ slots, (headerStart r.1).Valid ∧
    1950 ≤ (headerStart r.1).year ∧ (headerStart r.1).year ≤ 2099
  hoffsets : slots.length * n < 2 ^ 31

namespace ChannelBuffer

variable (b : ChannelBuffer n)

/-- The name of the file. -/
def fileName : Bytes :=
  (if b.location = ascii "  " then [] else b.location ++ [95]) ++ b.channel ++ ascii ".buf"

def entry : DirEntry := ⟨b.fileName, some (Blocks.layout b.slots)⟩

def record (i : ℕ) : Bytes := (b.slots.map (·.1)).getD i []

/-- The slots from the oldest record to the newest. -/
def order : List ℕ := (List.range b.slots.length).rotate (b.newest + 1)

/-- The slots of the records in an interval. -/
def hits (a c : ℤ) : List ℕ := b.order.filter fun i => InInterval a c (b.record i)

/-- The line about records of the channel. -/
def info (plat : Platform) (hits : List ℕ) : ChanInfo :=
  chanInfo plat b.location b.channel (b.record (hits.headD 0)) (b.record (hits.getLastD 0))
    hits.length

/-- The first and the last slot and the number of the records, and `-1` where there are none. -/
structure Ranges (range : RecordRange) (hits : List ℕ) : Prop where
  iFirst : range.iFirst = (hits.head?.map Int.ofNat).getD (-1)
  iLast : range.iLast = (hits.getLast?.map Int.ofNat).getD (-1)
  iCount : range.iCount = hits.length

end ChannelBuffer

/-- A file of a station directory. -/
inductive DirItem (n : ℕ)
  | buffer (b : ChannelBuffer n)
  | other (entry : DirEntry) (h : ¬ IsBuf entry.name)

def DirItem.entry : DirItem n → DirEntry
  | .buffer b => b.entry
  | .other entry _ => entry

def DirItem.buffer? : DirItem n → Option (ChannelBuffer n)
  | .buffer b => some b
  | .other _ _ => none

/-- The directory of a station, with one disk loop for each of its channels. -/
structure ChannelDirectory (n : ℕ) where
  items : List (DirItem n)
  distinct : ((items.filterMap DirItem.buffer?).map fun b => (b.location, b.channel)).Nodup

def ChannelDirectory.buffers (dir : ChannelDirectory n) : List (ChannelBuffer n) :=
  dir.items.filterMap DirItem.buffer?

/-- `GetRecordRange` finds the records of an interval, and refuses one that ends before it
starts or finds none in it. -/
def RangesRight (getRecordRange : Bytes → Bytes → Bytes → StdTime2 → StdTime2 →
    Except String RecordRange) (station : Bytes) (dir : ChannelDirectory n) : Prop :=
  ∀ b ∈ dir.buffers, ∀ t u, match getRecordRange station b.channel b.location t u with
    | .ok range => ChannelBuffer.Ranges range (b.hits t.place u.place)
    | .error _ => u.place < t.place

/-! ### Headers -/

variable {b : ChannelBuffer n}

lemma byteAt_take (r : Bytes) {i k : ℕ} (h : i < k) : byteAt (r.take k) i = byteAt r i := by
  simp only [byteAt, List.getD_eq_getElem?_getD, List.getElem?_take, if_pos h]

/-- The line is that of the records that begin with the headers. -/
lemma chanInfo_take (plat : Platform) (loc chan r r' : Bytes) (count : ℤ) :
    chanInfo plat loc chan (r.take sizeofSeedHeader) (r'.take sizeofSeedHeader) count
      = chanInfo plat loc chan r r' count := by
  have hbyte : ∀ r : Bytes, ∀ i < 48, byteAt (r.take sizeofSeedHeader) i = byteAt r i :=
    fun r i hi => byteAt_take r hi
  simp only [chanInfo, headerStart, sampleRateFactor, sampleRateMultiplier, ntohsAt, Nat.reduceAdd,
    hbyte, Nat.reduceLT]

lemma record_eq {i : ℕ} (hi : i < b.slots.length) : b.record i = b.slots[i].1 := by
  simp [ChannelBuffer.record, List.getD_eq_getElem?_getD, hi]

/-- The header of a slot is read. -/
lemma readSeedHeader_layout (hn : sizeofSeedHeader ≤ n) {i : ℕ} (hi : i < b.slots.length) :
    readSeedHeader n (Blocks.layout b.slots) i = some ((b.record i).take sizeofSeedHeader) := by
  have hslot : (i + 1) * n ≤ b.slots.length * n := Nat.mul_le_mul_right n hi
  have hoffsets := b.hoffsets
  have hseek : ((i : ℤ) * n).bmod (2 ^ 32) = ((i * n : ℕ) : ℤ) := by
    rw [Int.bmod_eq_of_le_mul_two] <;> push_cast <;> nlinarith
  have hdrop : (Blocks.layout b.slots).drop (i * n)
      = b.slots[i].toList ++ Blocks.layout (b.slots.drop (i + 1)) := by
    rw [Blocks.layout_eq_around b.slots hi,
      Blocks.drop_append_of_length (Blocks.length_layout_take b.slots hi.le)]
  have hlength : b.slots[i].toList.length = n := List.Vector.toList_length _
  have hnotneg : ¬ ((i * n : ℕ) : ℤ) < 0 := by omega
  have hheader : (b.slots[i].toList ++ Blocks.layout (b.slots.drop (i + 1))).take sizeofSeedHeader
      = (b.record i).take sizeofSeedHeader := by
    rw [record_eq hi, List.take_append_of_le_length (hn.trans_eq hlength.symm)]
    rfl
  have hfull : ¬ ((b.record i).take sizeofSeedHeader).length < sizeofSeedHeader := by
    rw [record_eq hi, List.length_take]
    have : b.slots[i].1.length = n := b.slots[i].2
    omega
  simp only [readSeedHeader, hseek, if_neg hnotneg, Int.toNat_natCast, hdrop, hheader, if_neg hfull]

lemma lt_of_mem_hits {a c : ℤ} {i : ℕ} (h : i ∈ b.hits a c) : i < b.slots.length := by
  have hmem : i ∈ b.order := (List.mem_filter.mp h).1
  simpa [ChannelBuffer.order] using hmem

/-! ### Names -/

lemma isBuf_append {stem : Bytes} (h : stem ≠ []) : IsBuf (stem ++ ascii ".buf") := by
  have hlength : (stem ++ ascii ".buf").length = stem.length + 4 := List.length_append
  have hpos := List.length_pos_iff.mpr h
  constructor
  · rw [hlength]
    omega
  · rw [hlength, Nat.add_sub_cancel, List.drop_left]

lemma ChannelBuffer.isBuf (b : ChannelBuffer n) : IsBuf b.fileName := by
  refine isBuf_append fun hnil => ?_
  have hlength := b.hchannel.1
  rw [(List.append_eq_nil_iff.mp hnil).2] at hlength
  cases hlength

/-- The name of a file gives the channel. -/
lemma entryChannel_fileName (b : ChannelBuffer n) :
    entryChannel b.fileName = (b.location, b.channel) := by
  obtain ⟨x, y, z, hxyz⟩ := List.length_eq_three.mp b.hchannel.1
  have hz : z ≠ 95 := by
    rintro rfl
    have := b.hchannel.2 95 (by simp [hxyz])
    exact absurd this (by decide)
  unfold entryChannel ChannelBuffer.fileName
  by_cases hblank : b.location = ascii "  "
  · simp [hblank, hxyz, hz]
  · obtain ⟨hlength, -⟩ := b.hlocation.resolve_left hblank
    obtain ⟨p, q, hpq⟩ := List.length_eq_two.mp hlength
    rw [if_neg hblank]
    simp [hpq, hxyz]

/-! ### The listing -/

/-- Whether the location and the channel match. -/
def DirSearch.selects (s : DirSearch) (b : ChannelBuffer n) : Bool :=
  wild.check s.rqlocation b.location && wild.check s.rqchannel b.channel

/-- The records of a channel that are searched for. -/
def DirSearch.found (s : DirSearch) (b : ChannelBuffer n) : List ℕ :=
  b.hits s.rqstart.place s.rqfinish.place

/-- The line that an item of the directory gets. -/
def DirSearch.line (s : DirSearch) (item : DirItem n) : Option ChanInfo :=
  item.buffer?.bind fun b =>
    if s.selects b ∧ s.found b ≠ [] then some (b.info s.plat (s.found b)) else none

/-- The line of a channel whose name matches. -/
lemma checkRange_buffer {s : DirSearch} (hn : sizeofSeedHeader ≤ n) (hsize : s.recordSize = n)
    {range : RecordRange} (hget : s.getRecordRange s.station b.channel b.location s.rqstart
      s.rqfinish = .ok range) (hranges : ChannelBuffer.Ranges range (s.found b)) :
    checkRange s b.location b.channel (some (Blocks.layout b.slots))
      = .ok (if s.found b ≠ [] then some (b.info s.plat (s.found b)) else none) := by
  obtain ⟨hfirst, hlast, hcount⟩ := hranges
  simp only [checkRange, hget, hsize]
  by_cases hnone : s.found b = []
  · rw [hnone] at hcount
    simp [hcount, hnone]
  · have hpos : ¬ ((s.found b).length : ℤ) < 1 := by
      have := List.length_pos_iff.mpr hnone
      omega
    rw [List.head?_eq_some_head hnone] at hfirst
    rw [List.getLast?_eq_some_getLast hnone] at hlast
    have hheader : ∀ i ∈ s.found b, readSeedHeader n (Blocks.layout b.slots) i
        = some ((b.record i).take sizeofSeedHeader) :=
      fun i hi => readSeedHeader_layout hn (lt_of_mem_hits hi)
    have hstart := hheader _ (List.head_mem hnone)
    have hfinish := hheader _ (List.getLast_mem hnone)
    have hinfo : b.info s.plat (s.found b) = chanInfo s.plat b.location b.channel
        (b.record ((s.found b).head hnone)) (b.record ((s.found b).getLast hnone))
        (s.found b).length := by
      rw [ChannelBuffer.info, List.headD_eq_head?_getD, List.head?_eq_some_head hnone,
        List.getLastD_eq_getLast?, List.getLast?_eq_some_getLast hnone]
      rfl
    simp only [Option.map_some, Option.getD_some, Int.ofNat_eq_natCast] at hfirst hlast
    simp only [hcount, if_neg hpos, hfirst, hlast, hstart, hfinish, chanInfo_take, hnone, ne_eq,
      not_false_eq_true, if_true, hinfo]

/-- The loop body, for a directory of which `GetRecordRange` finds the records. -/
lemma checkEntry_item {s : DirSearch} {dir : ChannelDirectory n} (hn : sizeofSeedHeader ≤ n)
    (hsize : s.recordSize = n) (hranges : RangesRight s.getRecordRange s.station dir)
    {item : DirItem n} (hitem : item ∈ dir.items) :
    checkEntry s item.entry = .ok (s.line item) ∨
      checkEntry s item.entry = .error .recordRange ∧ s.rqfinish.place < s.rqstart.place := by
  cases item with
  | other entry h =>
    left
    rw [DirItem.entry, checkEntry, if_neg h]
    rfl
  | buffer b =>
    have hb : b ∈ dir.buffers := List.mem_filterMap.mpr ⟨_, hitem, rfl⟩
    have hrange := hranges b hb s.rqstart s.rqfinish
    simp only [DirItem.entry, ChannelBuffer.entry, checkEntry, if_pos b.isBuf,
      entryChannel_fileName, DirSearch.line, DirItem.buffer?, Option.bind_some, DirSearch.selects]
    by_cases hmatch :
        (wild.check s.rqlocation b.location && wild.check s.rqchannel b.channel) = true
    · simp only [hmatch, if_true, true_and]
      cases hget : s.getRecordRange s.station b.channel b.location s.rqstart s.rqfinish with
      | ok range =>
        rw [hget] at hrange
        exact .inl (checkRange_buffer hn hsize hget hrange)
      | error err =>
        rw [hget] at hrange
        exact .inr ⟨by simp only [checkRange, hget], hrange⟩
    · left
      simp [hmatch]

/-- What the loop lists, with the lines so far; it gives up only for an interval that ends before
it starts. -/
lemma listChannels_items {s : DirSearch} (items : List (DirItem n)) (chaninfo : List ChanInfo)
    (hitems : ∀ item ∈ items, checkEntry s item.entry = .ok (s.line item) ∨
      checkEntry s item.entry = .error .recordRange ∧ s.rqfinish.place < s.rqstart.place)
    (hlength : chaninfo.length ≤ maxChan) :
    listChannels s (items.map DirItem.entry) chaninfo
        = .ok ((chaninfo ++ items.filterMap s.line).take maxChan) ∨
      listChannels s (items.map DirItem.entry) chaninfo = .error .recordRange ∧
        s.rqfinish.place < s.rqstart.place := by
  induction items generalizing chaninfo with
  | nil =>
    left
    rw [List.filterMap_nil, List.append_nil, List.take_of_length_le hlength]
    rfl
  | cons item items ih =>
    have hrest := fun other hother => hitems other (List.mem_cons_of_mem item hother)
    simp only [List.map_cons, listChannels]
    by_cases hfull : chaninfo.length < maxChan
    · rw [if_pos hfull]
      rcases hitems item List.mem_cons_self with hok | ⟨herror, hplace⟩
      · rw [hok]
        cases hline : s.line item with
        | none =>
          rw [List.filterMap_cons_none hline]
          exact ih chaninfo hrest hlength
        | some info =>
          have hnext : (chaninfo ++ [info]).length ≤ maxChan := by
            rw [List.length_append]
            exact hfull
          rw [List.filterMap_cons_some hline, ← List.singleton_append, ← List.append_assoc]
          exact ih (chaninfo ++ [info]) hrest hnext
      · rw [herror]
        exact .inr ⟨rfl, hplace⟩
    · left
      have heq : chaninfo.length = maxChan := by omega
      rw [if_neg hfull, List.take_append_of_le_length heq.ge, List.take_of_length_le hlength]

lemma found_eq_nil {s : DirSearch} (h : s.rqfinish.place < s.rqstart.place)
    (b : ChannelBuffer n) : s.found b = [] :=
  List.filter_eq_nil_iff.mpr fun _ _ hin => absurd (of_decide_eq_true hin).1 (not_le.mpr h)

/-- The channels that match and have a record in the interval. -/
def DirSearch.shown (s : DirSearch) (dir : ChannelDirectory n) : List (ChannelBuffer n) :=
  dir.buffers.filter fun b => s.selects b ∧ s.found b ≠ []

lemma filterMap_line (s : DirSearch) (items : List (DirItem n)) :
    items.filterMap s.line = ((items.filterMap DirItem.buffer?).filter
      fun b => s.selects b ∧ s.found b ≠ []).map fun b => b.info s.plat (s.found b) := by
  induction items with
  | nil => rfl
  | cons item items ih =>
    cases item with
    | other entry h => exact ih
    | buffer b =>
      have hbuffer : (DirItem.buffer b).buffer? = some b := rfl
      by_cases hshown : s.selects b = true ∧ s.found b ≠ []
      · have hline : s.line (.buffer b) = some (b.info s.plat (s.found b)) := if_pos hshown
        rw [List.filterMap_cons_some hline, List.filterMap_cons_some hbuffer,
          List.filter_cons_of_pos (by simpa using hshown), ih, List.map_cons]
      · have hline : s.line (.buffer b) = none := if_neg hshown
        rw [List.filterMap_cons_none hline, List.filterMap_cons_some hbuffer,
          List.filter_cons_of_neg (by simpa using hshown), ih]

/-- The lines of the reply. -/
theorem listed_listChannels {s : DirSearch} {dir : ChannelDirectory n} (hn : sizeofSeedHeader ≤ n)
    (hsize : s.recordSize = n) (hranges : RangesRight s.getRecordRange s.station dir) :
    listed (listChannels s (dir.items.map DirItem.entry) [])
      = ((s.shown dir).map fun b => b.info s.plat (s.found b)).take maxChan := by
  have hitems := fun item hitem => checkEntry_item hn hsize hranges (@id (item ∈ dir.items) hitem)
  rcases listChannels_items dir.items [] hitems (Nat.zero_le _) with hok | ⟨herror, hplace⟩
  · rw [hok, List.nil_append, filterMap_line]
    rfl
  · have hnone : s.shown dir = [] := by
      refine List.filter_eq_nil_iff.mpr fun b _ h => ?_
      exact absurd (found_eq_nil hplace b) (of_decide_eq_true h).2
    rw [herror, hnone]
    rfl

end StationProcessor.Netseed
