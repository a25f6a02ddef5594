import StationProcessor.Lib.SpareRing
import StationProcessor.Diskloop.ChannelKey

/-!
# Export of an IDA disk loop

`ida2chan` walks over the packets of a disk loop and appends each record to the file of its
channel. The walk ends at the slot behind the youngest packet, so it needs a slot that is not in
use.
-/

namespace StationProcessor

namespace Ida2chan

open SpareRing

/-! ### The names of channels and files -/

/-- `ParseSeedHeader` -/
def parseSeedHeader (record : Record 512) : ChannelName where
  station := ((record.toList.drop 8).take 5).takeWhile isAlnum
  location := (record.toList.drop 13).take 2
  channel := (record.toList.drop 15).take 3

/-- `buf_filename`; a blank location is left out. -/
def bufFilename (x : ChannelName) : Bytes :=
  ascii "./" ++ (cString x.station ++ 95 ::
    ((if x.location.headD 0 = 32 ∨ x.location.headD 0 = 0 then []
      else cString x.location ++ [95]) ++ cString x.channel)) ++ ascii ".seed"

/-- What SEED calls a channel: a station of letters and digits, a location that is blank or starts
with one of them, and a channel of three. -/
structure IsSeedName (x : ChannelName) : Prop where
  station : ∀ b ∈ x.station, isAlnum b = true
  location : x.location = [32, 32] ∨
    ∃ a b, x.location = [a, b] ∧ isAlnum a = true ∧ (isAlnum b = true ∨ b = 32)
  channel : x.channel.length = 3 ∧ ∀ b ∈ x.channel, isAlnum b = true

/-- A record whose header names a channel, with blanks behind the station. -/
structure SeedRecord where
  record : Record 512
  name : IsSeedName (parseSeedHeader record)
  blanks : ∀ b ∈ ((record.toList.drop 8).take 5).dropWhile isAlnum, b = 32

/-! ### The export -/

/-- What the snapshot of a disk loop says, and the packets in its slots. -/
structure IdaLoop where
  numpkt : ℕ
  oldest : ℕ
  yngest : ℕ
  packet : ℕ → SeedRecord
  oldest_lt : oldest < numpkt
  yngest_lt : yngest < numpkt

/-- `index`, with the slots read so far, and the records in the files. -/
structure ExportState where
  index : ℕ
  visited : List ℕ
  files : Bytes → List (Record 512)

/-- `iEnd` -/
def IdaLoop.iEnd (dl : IdaLoop) : ℕ := (dl.yngest + 1) % dl.numpkt

/-- Append a record to the file of its channel. -/
def appendRecord (files : Bytes → List (Record 512)) (record : Record 512) :
    Bytes → List (Record 512) :=
  let filename := bufFilename (parseSeedHeader record)
  Function.update files filename (files filename ++ [record])

/-- The loop of `main`. -/
def exportLoop (dl : IdaLoop) : ℕ → ExportState → Option ExportState
  | 0, _ => none
  | fuel + 1, s =>
    if s.index = dl.iEnd then some s
    else exportLoop dl fuel
      { index := (s.index + 1) % dl.numpkt
        visited := s.visited ++ [s.index]
        files := appendRecord s.files (dl.packet s.index).record }

/-- `main` after the snapshot. -/
def exportRecords (dl : IdaLoop) (fuel : ℕ) (files : Bytes → List (Record 512)) :
    Option ExportState :=
  exportLoop dl fuel ⟨dl.oldest, [], files⟩

/-! ### A complete export -/

/-- The number of slots in use. -/
def IdaLoop.count (dl : IdaLoop) : ℕ :=
  (dl.yngest + dl.numpkt - dl.oldest) % dl.numpkt + 1

/-- The slots in use, from the oldest to the youngest. -/
def IdaLoop.slots (dl : IdaLoop) : List ℕ := SpareRing.slots dl.numpkt dl.oldest dl.count

/-- The records of the loop, from the oldest to the youngest. -/
def IdaLoop.records (dl : IdaLoop) : List (Record 512) := dl.slots.map fun i => (dl.packet i).record

/-- Each slot in use was read once, in order, and to the file of each channel the records of that
channel were appended. -/
structure Complete (dl : IdaLoop) (files : Bytes → List (Record 512)) (s : ExportState) : Prop where
  visited : s.visited = dl.slots
  once : s.visited.Nodup
  youngest : s.visited.getLast? = some dl.yngest
  files : ∀ x, IsSeedName x → s.files (bufFilename x)
    = files (bufFilename x) ++ dl.records.filter fun record => parseSeedHeader record = x

/-! ### File names -/

namespace IsSeedName

variable {x y : ChannelName}

lemma station_eq (h : IsSeedName x) : cString x.station = x.station := by
  refine cString_of_notMem fun hmem => ?_
  exact absurd (h.station 0 hmem) (by decide)

lemma channel_eq (h : IsSeedName x) : cString x.channel = x.channel := by
  refine cString_of_notMem fun hmem => ?_
  exact absurd (h.channel.2 0 hmem) (by decide)

/-- The part of the file name behind the station. -/
lemma behind_station (h : IsSeedName x) :
    bufFilename x = ascii "./" ++ (x.station ++ 95 :: x.channel) ++ ascii ".seed" ∧
        x.location = [32, 32] ∨
      bufFilename x = ascii "./" ++ (x.station ++ 95 :: (x.location ++ 95 :: x.channel))
        ++ ascii ".seed" ∧ x.location.length = 2 := by
  rcases h.location with hblank | ⟨a, b, hloc, ha, hb⟩
  · left
    refine ⟨?_, hblank⟩
    rw [bufFilename, h.station_eq, h.channel_eq, hblank]
    rfl
  · right
    have hfirst : ¬ (x.location.headD 0 = 32 ∨ x.location.headD 0 = 0) := by
      rw [hloc]
      rintro (rfl | rfl)
      · exact absurd ha (by decide)
      · exact absurd ha (by decide)
    have hzero : 0 ∉ x.location := by
      rw [hloc]
      intro hmem
      rcases List.mem_pair.mp hmem with rfl | rfl
      · exact absurd ha (by decide)
      · rcases hb with hb | hb
        · exact absurd hb (by decide)
        · exact absurd hb (by decide)
    refine ⟨?_, by simp [hloc]⟩
    rw [bufFilename, h.station_eq, h.channel_eq, if_neg hfirst, cString_of_notMem hzero,
      List.append_assoc x.location, List.singleton_append]

/-- Different channels have different files. -/
lemma eq_of_bufFilename (hx : IsSeedName x) (hy : IsSeedName y)
    (h : bufFilename x = bufFilename y) : x = y := by
  have hbar : ∀ {z : ChannelName}, IsSeedName z → (95 : UInt8) ∉ z.station := by
    intro z hz hmem
    exact absurd (hz.station 95 hmem) (by decide)
  have hparts : ∀ {s t : Bytes}, x.station ++ 95 :: s = y.station ++ 95 :: t →
      x.station = y.station ∧ s = t := (append_separator_inj (hbar hx) (hbar hy)).mp
  have hsame : x.station = y.station → x.location = y.location → x.channel = y.channel → x = y := by
    intro hstation hlocation hchannel
    cases x
    cases y
    simp only [ChannelName.mk.injEq]
    exact ⟨hstation, hlocation, hchannel⟩
  have hxlen := hx.channel.1
  have hylen := hy.channel.1
  rcases hx.behind_station with ⟨hxname, hxloc⟩ | ⟨hxname, hxloc⟩ <;>
    rcases hy.behind_station with ⟨hyname, hyloc⟩ | ⟨hyname, hyloc⟩ <;>
    rw [hxname, hyname, List.append_left_inj, List.append_right_inj] at h <;>
    obtain ⟨hstation, hrest⟩ := hparts h
  · exact hsame hstation (hxloc.trans hyloc.symm) hrest
  · -- a blank location makes the name shorter
    have hlength := congrArg List.length hrest
    simp only [List.length_append, List.length_cons] at hlength
    omega
  · have hlength := congrArg List.length hrest
    simp only [List.length_append, List.length_cons] at hlength
    omega
  · obtain ⟨hlocation, hchannel⟩ := List.append_inj hrest (hxloc.trans hyloc.symm)
    exact hsame hstation hlocation (List.cons.inj hchannel).2

end IsSeedName

lemma appendRecord_bufFilename {x : ChannelName} (hx : IsSeedName x) (r : SeedRecord)
    (files : Bytes → List (Record 512)) :
    appendRecord files r.record (bufFilename x) = files (bufFilename x)
      ++ [r.record].filter fun record => parseSeedHeader record = x := by
  by_cases heq : parseSeedHeader r.record = x
  · simp [appendRecord, heq]
  · have hne : bufFilename x ≠ bufFilename (parseSeedHeader r.record) := fun h =>
      heq (hx.eq_of_bufFilename r.name h).symm
    simp [appendRecord, heq, Function.update_of_ne hne]

/-! ### The loop -/

namespace IdaLoop

variable (dl : IdaLoop)

lemma oldest_add : dl.oldest + (dl.yngest + dl.numpkt - dl.oldest) = dl.yngest + dl.numpkt := by
  have := dl.oldest_lt
  omega

/-- The walk ends behind the slots in use. -/
lemma iEnd_eq : dl.iEnd = (dl.oldest + dl.count) % dl.numpkt := by
  have hmod : (dl.oldest + (dl.yngest + dl.numpkt - dl.oldest) % dl.numpkt) + 1
      ≡ dl.yngest + 1 [MOD dl.numpkt] := by
    refine Nat.ModEq.add_right 1 (((Nat.mod_modEq _ _).add_left dl.oldest).trans ?_)
    rw [oldest_add]
    exact Nat.add_mod_right _ _
  exact hmod.symm

lemma count_le : dl.count ≤ dl.numpkt :=
  Nat.mod_lt _ ((Nat.zero_le _).trans_lt dl.oldest_lt)

/-- The loop is full exactly when the walk ends where it starts. -/
lemma count_lt_iff : dl.count < dl.numpkt ↔ dl.iEnd ≠ dl.oldest := by
  rw [iEnd_eq]
  constructor
  · intro hlt heq
    exact Nat.succ_ne_zero _ ((next_eq_oldest_iff hlt dl.oldest_lt).mp heq)
  · intro hne
    refine lt_of_le_of_ne dl.count_le fun hfull => hne ?_
    rw [hfull, Nat.add_mod_right, Nat.mod_eq_of_lt dl.oldest_lt]

lemma getLast?_slots : dl.slots.getLast? = some dl.yngest := by
  have hmod : (dl.oldest + (dl.yngest + dl.numpkt - dl.oldest) % dl.numpkt) % dl.numpkt
      = dl.yngest := by
    rw [Nat.add_mod_mod, oldest_add, Nat.add_mod_right, Nat.mod_eq_of_lt dl.yngest_lt]
  rw [slots, count, slots_push, List.getLast?_concat, hmod]

end IdaLoop

/-- The walk over `count` slots from `index` to the end. -/
lemma exportLoop_walk (dl : IdaLoop) {index count : ℕ} (hindex : index < dl.numpkt)
    (hcount : count < dl.numpkt) (hend : (index + count) % dl.numpkt = dl.iEnd)
    (visited : List ℕ) (files : Bytes → List (Record 512)) :
    ∃ files', (∀ fuel, count < fuel → exportLoop dl fuel ⟨index, visited, files⟩
        = some ⟨dl.iEnd, visited ++ SpareRing.slots dl.numpkt index count, files'⟩) ∧
      ∀ x, IsSeedName x → files' (bufFilename x) = files (bufFilename x)
        ++ ((SpareRing.slots dl.numpkt index count).map fun i => (dl.packet i).record).filter
          fun record => parseSeedHeader record = x := by
  induction count generalizing index visited files with
  | zero =>
    have hstop : index = dl.iEnd := by rw [← hend, Nat.add_zero, Nat.mod_eq_of_lt hindex]
    refine ⟨files, ?_, fun x _ => by simp⟩
    intro fuel hfuel
    obtain ⟨fuel, rfl⟩ := Nat.exists_eq_succ_of_ne_zero (Nat.ne_zero_of_lt hfuel)
    simp [exportLoop, hstop]
  | succ count ih =>
    have hgo : index ≠ dl.iEnd := by
      intro heq
      exact Nat.succ_ne_zero _ ((next_eq_oldest_iff hcount hindex).mp (hend.trans heq.symm))
    have hnext : ((index + 1) % dl.numpkt + count) % dl.numpkt = dl.iEnd := by
      rw [Nat.mod_add_mod, ← hend, Nat.add_right_comm, Nat.add_assoc]
    obtain ⟨files', hrun, hfiles⟩ := ih (Nat.mod_lt _ ((Nat.zero_le _).trans_lt hindex))
      ((Nat.lt_succ_self _).trans hcount) hnext (visited ++ [index])
      (appendRecord files (dl.packet index).record)
    rw [slots_pop hindex]
    refine ⟨files', ?_, ?_⟩
    · intro fuel hfuel
      obtain ⟨fuel, rfl⟩ := Nat.exists_eq_succ_of_ne_zero (Nat.ne_zero_of_lt hfuel)
      rw [exportLoop, if_neg hgo, hrun fuel (Nat.lt_of_succ_lt_succ hfuel)]
      simp
    · intro x hx
      rw [hfiles x hx, appendRecord_bufFilename hx, List.map_cons, List.append_assoc,
        ← List.filter_append]
      rfl

/-- With a slot that is not in use the export is complete. -/
theorem export_complete (dl : IdaLoop) (hspare : dl.iEnd ≠ dl.oldest)
    (files : Bytes → List (Record 512)) :
    ∃ s, (∀ fuel, dl.numpkt < fuel → exportRecords dl fuel files = some s) ∧
      Complete dl files s := by
  have hcount := dl.count_lt_iff.mpr hspare
  obtain ⟨files', hrun, hfiles⟩ :=
    exportLoop_walk dl dl.oldest_lt hcount dl.iEnd_eq.symm [] files
  refine ⟨_, fun fuel hfuel => hrun fuel (hcount.trans hfuel), ?_, ?_, ?_, hfiles⟩
  · rfl
  · exact slots_nodup dl.count_le
  · exact dl.getLast?_slots

/-- A record whose name is all digits. -/
def digitRecord : SeedRecord where
  record := logRecord 0 0
  name := ⟨List.all_eq_true.mp (by decide), Or.inr ⟨48, 48, by decide⟩, by decide,
    List.all_eq_true.mp (by decide)⟩
  blanks := by
    have hnone : (((logRecord 0 0).toList.drop 8).take 5).dropWhile isAlnum = [] := by decide
    simp [hnone]

/-- One packet in a loop of two. -/
def halfLoop : IdaLoop := ⟨2, 0, 0, fun _ => digitRecord, by decide, by decide⟩

theorem export_complete_half :
    ∃ s, (∀ fuel, halfLoop.numpkt < fuel →
      exportRecords halfLoop fuel (fun _ => []) = some s) ∧ Complete halfLoop (fun _ => []) s :=
  export_complete halfLoop (by decide) fun _ => []

/-- In a full loop nothing is exported. -/
lemma export_full (dl : IdaLoop) (hfull : dl.iEnd = dl.oldest)
    (files : Bytes → List (Record 512)) {fuel : ℕ} (hfuel : 0 < fuel) :
    exportRecords dl fuel files = some ⟨dl.oldest, [], files⟩ := by
  obtain ⟨fuel, rfl⟩ := Nat.exists_eq_succ_of_ne_zero hfuel.ne'
  exact if_pos hfull.symm

/-- A loop of one packet. -/
def fullLoop : IdaLoop := ⟨1, 0, 0, fun _ => digitRecord, by decide, by decide⟩

/-- Of a loop of one packet, which is always full, the packet is not read. -/
theorem export_not_complete :
    ¬ ∀ (dl : IdaLoop) (files : Bytes → List (Record 512)),
      ∃ s, (∀ fuel, dl.numpkt < fuel → exportRecords dl fuel files = some s) ∧
        Complete dl files s := by
  intro hall
  obtain ⟨s, hrun, hcomplete⟩ := hall fullLoop fun _ => []
  have hnone := hrun 2 (by decide)
  rw [export_full fullLoop (by decide) _ (by decide)] at hnone
  obtain rfl := Option.some.inj hnone
  exact absurd hcomplete.visited (by decide)

end Ida2chan

end StationProcessor
