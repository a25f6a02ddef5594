import StationProcessor.Lib.SlotRing
import StationProcessor.Diskloop.Context

/-!
# Runs of appends

A context tracks a ring of records when its file is the slots of the ring and its fields agree
with it. An append either rejects the record and changes nothing or pushes it onto the ring, so
after any run of appends the loop holds the end of the list of all accepted records.
-/

namespace StationProcessor

variable {n c : ℕ} {cfg : Config n} {ctx ctx' : DiskloopContext n}

/-- The `last_record_*` fields of a context are those of a record. -/
structure LastRecord (cfg : Config n) (ctx : DiskloopContext n) (r : Record n) : Prop where
  seqnum : ctx.lastRecordSeqnum = (parseSeedHeader cfg.plat r.toList).seqNum
  samples : ctx.lastRecordSamples = (parseSeedHeader cfg.plat r.toList).samples
  start : ctx.lastRecordStart = (parseSeedHeader cfg.plat r.toList).recStart
  endTime : ctx.lastRecordEnd = (parseSeedHeader cfg.plat r.toList).recEnd

/-- A context in agreement with a ring of records. -/
structure Tracks (cfg : Config n) (ctx : DiskloopContext n) (ring : SlotRing (Record n) c) :
    Prop where
  data : ctx.loopFp.data = Blocks.layout ring.slots
  capacity : ctx.capacity = c
  size : ctx.size = ring.slots.length
  index : ctx.index = ring.newest
  last : LastRecord cfg ctx ring.last

lemma LastRecord.of_sameLoop {r : Record n} (h : LastRecord cfg ctx r) (hs : SameLoop ctx' ctx) :
    LastRecord cfg ctx' r where
  seqnum := hs.seqnum.trans h.seqnum
  samples := hs.samples.trans h.samples
  start := hs.start.trans h.start
  endTime := hs.endTime.trans h.endTime

lemma Tracks.of_sameLoop {ring : SlotRing (Record n) c} (h : Tracks cfg ctx ring)
    (hs : SameLoop ctx' ctx) : Tracks cfg ctx' ring where
  data := hs.data.trans h.data
  capacity := hs.capacity.trans h.capacity
  size := hs.size.trans h.size
  index := hs.index.trans h.index
  last := h.last.of_sameLoop hs

/-! ### One append -/

/-- The overlap test of an append against the record before it. -/
def overlapsRecord (cfg : Config n) (prev r : Record n) : Bool :=
  overlaps cfg (parseSeedHeader cfg.plat prev.toList).samples
    (parseSeedHeader cfg.plat prev.toList).recEnd r

lemma LastRecord.overlaps {prev : Record n} (h : LastRecord cfg ctx prev) (r : Record n) :
    StationProcessor.overlaps cfg ctx.lastRecordSamples ctx.lastRecordEnd r
      = overlapsRecord cfg prev r := by
  rw [overlapsRecord, h.samples, h.endTime]

/-- The slot of an append is the next one of the ring. -/
lemma Tracks.newIndex {ring : SlotRing (Record n) c} (h : Tracks cfg ctx ring) :
    (if ctx.index + 1 ≥ ctx.capacity then 0 else ctx.index + 1) = (ring.next : ℤ) := by
  rw [h.index, h.capacity, SlotRing.next]
  split_ifs <;> omega

/-- Storing a record in the next slot pushes it onto the ring. -/
lemma Tracks.stored {ring : SlotRing (Record n) c} (h : Tracks cfg ctx ring) (r : Record n) :
    Tracks cfg (ctx.stored cfg ring.next r) (ring.push r) := by
  have hnewest := ring.newest_push r
  refine ⟨?_, h.capacity, ?_, ?_, ?_⟩
  · show Blocks.write ctx.loopFp.data (ring.next : ℤ).toNat r = _
    rw [h.data, Int.toNat_natCast]
    rcases ring.length_le.lt_or_eq with hlt | heq
    · rw [ring.next_of_filling hlt, Blocks.write_layout_append, (ring.push_of_filling r hlt).1]
    · rw [Blocks.write_layout_set _ (ring.next_lt.trans_eq heq.symm), (ring.push_of_full r heq).1]
  · show (if ctx.size < ctx.capacity ∧ ctx.size = (ring.next : ℤ) then ctx.size + 1 else ctx.size)
      = _
    rw [h.size, h.capacity, ring.length_push]
    have hle := ring.length_le
    rcases hle.lt_or_eq with hlt | heq
    · rw [if_pos ⟨by omega, by rw [ring.next_of_filling hlt]⟩]
      omega
    · rw [if_neg (by omega)]
      omega
  · show (ring.next : ℤ) = _
    rw [hnewest]
  · rw [ring.last_push]
    exact ⟨rfl, rfl, rfl, rfl⟩

/-- An append of an accepted record succeeds and pushes it onto the ring. -/
lemma Tracks.append {ring : SlotRing (Record n) c} (h : Tracks cfg ctx ring) {env : WriteEnv}
    (hok : env.fwriteOk = true) {r : Record n} (hr : overlapsRecord cfg ring.last r = false) :
    (adlWrite cfg env ctx (-1) r).1 = none ∧
      Tracks cfg (adlWrite cfg env ctx (-1) r).2 (ring.push r) := by
  rw [adlWrite_of_accepts ((h.last.overlaps r).trans hr) hok, h.newIndex]
  exact ⟨rfl, (h.stored r).of_sameLoop (flushIfDue_sameLoop env _)⟩

/-- An append of an overlapping record changes no field and no file. -/
lemma Tracks.reject {ring : SlotRing (Record n) c} (h : Tracks cfg ctx ring) (env : WriteEnv)
    {r : Record n} (hr : overlapsRecord cfg ring.last r = true) :
    adlWrite cfg env ctx (-1) r = (none, ctx) :=
  adlWrite_of_overlaps ((h.last.overlaps r).trans hr) env (-1)

/-! ### Runs -/

/-- The records of a run that are accepted, given the one before the run. -/
def accepted (cfg : Config n) (prev : Record n) : List (Record n) → List (Record n)
  | [] => []
  | r :: rs => if overlapsRecord cfg prev r then accepted cfg prev rs else r :: accepted cfg r rs

/-- Append the records one after the other. -/
def appendAll (cfg : Config n) (ctx : DiskloopContext n) (writes : List (WriteEnv × Record n)) :
    DiskloopContext n :=
  writes.foldl (fun ctx w => (adlWrite cfg w.1 ctx (-1) w.2).2) ctx

@[simp] lemma appendAll_nil : appendAll cfg ctx [] = ctx := rfl

@[simp] lemma appendAll_cons (w : WriteEnv × Record n) (writes : List (WriteEnv × Record n)) :
    appendAll cfg ctx (w :: writes)
      = appendAll cfg (adlWrite cfg w.1 ctx (-1) w.2).2 writes := rfl

/-- After any run the loop tracks a ring that holds the end of the log of accepted records. -/
theorem Tracks.appendAll {ring : SlotRing (Record n) c} {log : List (Record n)}
    (h : Tracks cfg ctx ring) (hlog : ring.toList = log.rtake c)
    (writes : List (WriteEnv × Record n)) (hok : ∀ w ∈ writes, w.1.fwriteOk = true) :
    ∃ ring' : SlotRing (Record n) c, Tracks cfg (appendAll cfg ctx writes) ring' ∧
      ring'.toList = (log ++ accepted cfg ring.last (writes.map Prod.snd)).rtake c := by
  induction writes generalizing ctx ring log with
  | nil => exact ⟨ring, h, by simpa [accepted] using hlog⟩
  | cons w writes ih =>
    have hok' : ∀ w ∈ writes, w.1.fwriteOk = true :=
      fun w' hw' => hok w' (List.mem_cons_of_mem w hw')
    rw [appendAll_cons, List.map_cons]
    rcases hr : overlapsRecord cfg ring.last w.2 with _ | _
    · obtain ⟨-, htracks⟩ := h.append (hok w List.mem_cons_self) hr
      obtain ⟨ring', hring', hlog'⟩ := ih htracks (ring.toList_push_rtake hlog w.2) hok'
      rw [ring.last_push] at hlog'
      exact ⟨ring', hring', by simp [accepted, hr, hlog']⟩
    · rw [h.reject w.1 hr]
      obtain ⟨ring', hring', hlog'⟩ := ih h hlog hok'
      exact ⟨ring', hring', by simp [accepted, hr, hlog']⟩

/-! ### A new loop -/

/-- The context of a loop whose files were just created: empty, with index `-1`. -/
def newLoop (loopName indexName : String) (capacity : ℤ) : DiskloopContext n where
  loopName := loopName
  indexName := indexName
  loopFp := Stream.ofFile []
  indexFp := Stream.ofFile (indexImage (-1) capacity)
  capacity := capacity
  size := 0
  index := -1
  hasWritten := false
  lastRecordSeqnum := 0
  lastRecordSamples := 0
  lastRecordStart := ⟨0, 0, 0, 0, 0, 0⟩
  lastRecordEnd := ⟨0, 0, 0, 0, 0, 0⟩
  lastFlush := ⟨0, 0⟩
  lastIndex := ⟨0, 0⟩

lemma length_indexLine (index capacity : ℤ) : (indexLine index capacity).length = 31 := by
  simp only [indexLine, List.length_append, List.rightpad, List.length_replicate,
    List.length_take, List.length_cons, List.length_nil]
  omega

lemma length_indexImage (index capacity : ℤ) : (indexImage index capacity).length = 93 := by
  simp only [indexImage, List.length_append, length_indexLine]

/-- The index file has its fixed length, and is up to date unless a write is pending. -/
structure IndexSaved (ctx : DiskloopContext n) : Prop where
  length : ctx.indexFp.data.length = 93
  current : ctx.hasWritten = false → ctx.indexFp.data = indexImage ctx.index ctx.capacity

lemma IndexSaved.flush (h : IndexSaved ctx) (now : Timeval) : IndexSaved (adlFlush ctx now) := by
  unfold adlFlush
  split_ifs
  · exact ⟨h.length, h.current⟩
  · exact h

lemma IndexSaved.writeIndex (h : IndexSaved ctx) (now : Timeval) :
    IndexSaved (adlWriteIndex ctx now) ∧
      (adlWriteIndex ctx now).indexFp.data = indexImage ctx.index ctx.capacity := by
  unfold adlWriteIndex
  rcases hw : ctx.hasWritten with _ | _
  · exact ⟨h, h.current hw⟩
  · have hdata : indexImage ctx.index ctx.capacity ++ ctx.indexFp.data.drop 93
        = indexImage ctx.index ctx.capacity := by
      rw [List.drop_eq_nil_of_le h.length.le, List.append_nil]
    refine ⟨⟨?_, fun _ => hdata⟩, hdata⟩
    show (indexImage ctx.index ctx.capacity ++ ctx.indexFp.data.drop 93).length = 93
    rw [hdata, length_indexImage]

lemma IndexSaved.stored (h : IndexSaved ctx) (newIndex : ℤ) (r : Record n) :
    IndexSaved (ctx.stored cfg newIndex r) :=
  ⟨h.length, fun hw => by simp [DiskloopContext.stored, DiskloopContext.setLast] at hw⟩

lemma IndexSaved.flushIfDue (h : IndexSaved ctx) (env : WriteEnv) :
    IndexSaved (flushIfDue env ctx) := by
  unfold StationProcessor.flushIfDue
  split_ifs
  · exact ((h.flush _).writeIndex _).1
  · exact h.flush _
  · exact h

/-- A write keeps the index file in its form. -/
lemma IndexSaved.write (h : IndexSaved ctx) (env : WriteEnv) (index : ℤ) (r : Record n) :
    IndexSaved (adlWrite cfg env ctx index r).2 := by
  rcases adlWrite_cases cfg env ctx index r with hsame | ⟨newIndex, hstored⟩
  · rwa [hsame]
  · rw [hstored]
    exact (h.stored newIndex r).flushIfDue env

lemma IndexSaved.appendAll (h : IndexSaved ctx) (cfg : Config n)
    (writes : List (WriteEnv × Record n)) :
    IndexSaved (appendAll cfg ctx writes) := by
  induction writes generalizing ctx with
  | nil => exact h
  | cons w writes ih => exact ih (h.write w.1 (-1) w.2)

/-- Closing leaves the records and the current index on disk. -/
lemma IndexSaved.close (h : IndexSaved ctx) (flushNow indexNow : Timeval) :
    adlClose ctx flushNow indexNow
      = ⟨some ctx.loopFp.data, some (indexImage ctx.index ctx.capacity)⟩ := by
  have hflush := adlFlush_sameLoop ctx flushNow
  have hindex := ((h.flush flushNow).writeIndex indexNow).2
  have hdata := ((adlWriteIndex_sameLoop (adlFlush ctx flushNow) indexNow).trans hflush).data
  unfold adlClose
  simp only [Stream.fflush, hdata, hindex, hflush.index, hflush.capacity]

end StationProcessor
