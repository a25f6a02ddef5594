import Mathlib.Data.UInt
import StationProcessor.Lib.Blocks
import StationProcessor.SeedHeader

/-!
# The context of an open disk loop

`diskloop_context_t` and the routines of `lib/disklooplib.c` that read, write, flush and close
one open loop. The parameter `n` of `DiskloopContext` is its `record_size`. Every access to a
file seeks first, so the position of a stream is not part of the state; offsets fit an `int`
because `ParseDiskLoopConfig` rejects loops of 2 GByte and more.
-/

namespace StationProcessor

open Decimal

/-- The static variables `ParseDiskLoopConfig` fills, for records of `n` bytes, and the
platform. -/
structure Config (n : ℕ) where
  plat : Platform
  recordSize_pos : 0 < n
  parseState : ℤ

/-- A 64-bit host with records of 512 bytes, its configuration parsed. -/
def hostConfig : Config 512 :=
  ⟨⟨64, fun _ => -2147483648, fun m => m.bmod (2 ^ 32)⟩, by decide, 1⟩

lemma trueSign_hostConfig : TrueSign hostConfig.plat.longBits := trueSign_long64

/-- `struct timeval`. -/
structure Timeval where
  sec : ℤ
  usec : ℤ
deriving DecidableEq

/-- `TIME_MICRO`. -/
def Timeval.micro (t : Timeval) : ℤ := t.sec * 1000000 + t.usec

/-- A stream: what its own process reads back, and what is on disk for the others. -/
structure Stream where
  data : Bytes
  disk : Bytes
deriving DecidableEq

/-- The stream `fopen` gives on a file with these contents. -/
def Stream.ofFile (file : Bytes) : Stream := ⟨file, file⟩

def Stream.fflush (s : Stream) : Stream := { s with disk := s.data }

/-- `diskloop_context_t`; its key is the channel the caller looks it up by. -/
structure DiskloopContext (n : ℕ) where
  loopName : String
  indexName : String
  loopFp : Stream
  indexFp : Stream
  capacity : ℤ
  size : ℤ
  index : ℤ
  hasWritten : Bool
  lastRecordSeqnum : ℤ
  lastRecordSamples : ℤ
  lastRecordStart : StdTime2
  lastRecordEnd : StdTime2
  lastFlush : Timeval
  lastIndex : Timeval
deriving DecidableEq

variable {n : ℕ}

/-- An open loop with these records in its file, the last slot written last. -/
def sampleLoop (capacity : ℤ) (slots : List (Record n)) : DiskloopContext n where
  loopName := "BHZ.buf"
  indexName := "BHZ.idx"
  loopFp := Stream.ofFile (Blocks.layout slots)
  indexFp := Stream.ofFile []
  capacity := capacity
  size := slots.length
  index := slots.length - 1
  hasWritten := false
  lastRecordSeqnum := 0
  lastRecordSamples := 0
  lastRecordStart := ⟨0, 0, 0, 0, 0, 0⟩
  lastRecordEnd := ⟨0, 0, 0, 0, 0, 0⟩
  lastFlush := ⟨0, 0⟩
  lastIndex := ⟨0, 0⟩

/-- What one `adl_write` gets from its environment: whether `fwrite` succeeds, and the clock
at its three readings. -/
structure WriteEnv where
  fwriteOk : Bool
  now : Timeval
  flushNow : Timeval
  indexNow : Timeval

/-- The `last_record_*` fields set from a parsed header. -/
def DiskloopContext.setLast (ctx : DiskloopContext n) (h : SeedHeader) : DiskloopContext n :=
  { ctx with
    lastRecordSeqnum := h.seqNum
    lastRecordSamples := h.samples
    lastRecordStart := h.recStart
    lastRecordEnd := h.recEnd }

/-! ### Reading -/

/-- `adl_read`; a negative index stands for the slot written last. -/
def adlRead (ctx : DiskloopContext n) (index : ℤ) : Except String (Record n) :=
  let index := if index < 0 then ctx.index else index
  if index ≥ ctx.capacity then
    .error ("adl_read: Requested index [" ++ toString index ++ "] is out of range")
  else if index * n < 0 then
    -- the seek before the start of the file fails, and `ftell` reports another position
    .error ("adl_read: Could not seek to requested index [" ++ toString index ++ "]")
  else match Blocks.read n ctx.loopFp.data index.toNat with
    | none => .error ("adl_read: Unable to read record at index " ++ toString index)
    | some r => .ok r

/-! ### The index file -/

/-- One line `"%-30.30s\n"` of `"%d %d"`. -/
def indexLine (index capacity : ℤ) : Bytes :=
  ((printInt index ++ 32 :: printInt capacity).take 30).rightpad 30 32 ++ [10]

/-- The three equal lines of an index file. -/
def indexImage (index capacity : ℤ) : Bytes :=
  indexLine index capacity ++ indexLine index capacity ++ indexLine index capacity

/-- `adl_flush`, with the clock reading it stores. -/
def adlFlush (ctx : DiskloopContext n) (now : Timeval) : DiskloopContext n :=
  if ctx.hasWritten then { ctx with loopFp := ctx.loopFp.fflush, lastFlush := now } else ctx

/-- `adl_write_index`: rewrite the index file in place and clear the write tracker. -/
def adlWriteIndex (ctx : DiskloopContext n) (now : Timeval) : DiskloopContext n :=
  if ctx.hasWritten then
    let image := indexImage ctx.index ctx.capacity
    { ctx with
      indexFp := Stream.fflush { ctx.indexFp with data := image ++ ctx.indexFp.data.drop 93 }
      lastIndex := now
      hasWritten := false }
  else ctx

/-! ### Writing -/

/-- `flush_interval` and `index_interval` in microseconds. -/
def flushInterval : ℤ := 60 * 1000000
def indexInterval : ℤ := 300 * 1000000

/-- Microseconds between two stamps, a difference of `uint64_t`; the `< 0` overflow checks of
the source compare this unsigned value and never hold. -/
def stampDiff (now since : Timeval) : ℤ := (now.micro - since.micro) % 2 ^ 64

/-- `delta_tms` of `adl_write`. -/
def deltaTms (cfg : Config n) (start lastEnd : StdTime2) : ℤ :=
  stDeltaToMs2 cfg.plat.longBits (stDiffTimes2 start lastEnd)

/-- The overlap test of `adl_write`, against the samples and end time of the last record. -/
def overlaps (cfg : Config n) (lastSamples : ℤ) (lastEnd : StdTime2) (r : Record n) : Bool :=
  let h := parseSeedHeader cfg.plat r.toList
  h.samples > 0 && lastSamples > 0 && sampleRateFactor r.toList ≠ 0 &&
    deltaTms cfg h.recStart lastEnd < -1

/-- The context after a record was written to a slot. -/
def DiskloopContext.stored (cfg : Config n) (ctx : DiskloopContext n) (newIndex : ℤ)
    (r : Record n) : DiskloopContext n :=
  DiskloopContext.setLast
    { ctx with
      loopFp := { ctx.loopFp with data := Blocks.write ctx.loopFp.data newIndex.toNat r }
      hasWritten := true
      size := if ctx.size < ctx.capacity ∧ ctx.size = newIndex then ctx.size + 1 else ctx.size
      index := newIndex }
    (parseSeedHeader cfg.plat r.toList)

/-- The end of `adl_write`: an index update is due every five minutes, else a flush every
minute. -/
def flushIfDue (env : WriteEnv) (ctx : DiskloopContext n) : DiskloopContext n :=
  if stampDiff env.now ctx.lastIndex ≥ indexInterval then
    adlWriteIndex (adlFlush ctx env.flushNow) env.indexNow
  else if stampDiff env.now ctx.lastFlush ≥ flushInterval then adlFlush ctx env.flushNow
  else ctx

/-- A successful write at the epoch, with no flush due. -/
def quietWrite : WriteEnv := ⟨true, ⟨0, 0⟩, ⟨0, 0⟩, ⟨0, 0⟩⟩

/-- `adl_write`: append when `index` is negative, else overwrite that slot. -/
def adlWrite (cfg : Config n) (env : WriteEnv) (ctx : DiskloopContext n) (index : ℤ)
    (r : Record n) : Option String × DiskloopContext n :=
  if overlaps cfg ctx.lastRecordSamples ctx.lastRecordEnd r then (none, ctx)
  else if 0 ≤ index ∧ index ≥ ctx.capacity then
    (some ("adl_write: Requested index [" ++ toString index ++ "] is out of range"), ctx)
  else
    let newIndex :=
      if index < 0 then if ctx.index + 1 ≥ ctx.capacity then 0 else ctx.index + 1 else index
    if !env.fwriteOk then
      (some ("adl_write: Unable to write to index " ++ toString newIndex), ctx)
    else (none, flushIfDue env (ctx.stored cfg newIndex r))

/-! ### Closing -/

/-- The contents of the `.buf` and `.idx` files of a channel; `none` where a file is missing. -/
structure ChannelFiles where
  buf : Option Bytes
  idx : Option Bytes
deriving DecidableEq

/-- `adl_close`: flush, update the index, close both streams. -/
def adlClose (ctx : DiskloopContext n) (flushNow indexNow : Timeval) : ChannelFiles :=
  let ctx := adlWriteIndex (adlFlush ctx flushNow) indexNow
  ⟨some ctx.loopFp.fflush.disk, some ctx.indexFp.fflush.disk⟩

/-! ### What flushing leaves alone -/

/-- Two contexts that differ at most in what is on disk, the write tracker and the stamps. -/
structure SameLoop (a b : DiskloopContext n) : Prop where
  data : a.loopFp.data = b.loopFp.data
  capacity : a.capacity = b.capacity
  size : a.size = b.size
  index : a.index = b.index
  seqnum : a.lastRecordSeqnum = b.lastRecordSeqnum
  samples : a.lastRecordSamples = b.lastRecordSamples
  start : a.lastRecordStart = b.lastRecordStart
  endTime : a.lastRecordEnd = b.lastRecordEnd

lemma SameLoop.refl (a : DiskloopContext n) : SameLoop a a := by
  constructor <;> rfl

lemma SameLoop.trans {a b c : DiskloopContext n} (h : SameLoop a b) (h' : SameLoop b c) :
    SameLoop a c where
  data := h.data.trans h'.data
  capacity := h.capacity.trans h'.capacity
  size := h.size.trans h'.size
  index := h.index.trans h'.index
  seqnum := h.seqnum.trans h'.seqnum
  samples := h.samples.trans h'.samples
  start := h.start.trans h'.start
  endTime := h.endTime.trans h'.endTime

lemma adlFlush_sameLoop (ctx : DiskloopContext n) (now : Timeval) :
    SameLoop (adlFlush ctx now) ctx := by
  unfold adlFlush
  split_ifs <;> constructor <;> rfl

lemma adlWriteIndex_sameLoop (ctx : DiskloopContext n) (now : Timeval) :
    SameLoop (adlWriteIndex ctx now) ctx := by
  unfold adlWriteIndex
  split_ifs <;> constructor <;> rfl

lemma flushIfDue_sameLoop (env : WriteEnv) (ctx : DiskloopContext n) :
    SameLoop (flushIfDue env ctx) ctx := by
  unfold flushIfDue
  split_ifs
  · exact (adlWriteIndex_sameLoop _ _).trans (adlFlush_sameLoop _ _)
  · exact adlFlush_sameLoop _ _
  · exact SameLoop.refl _

/-! ### The cases of a write -/

/-- A rejected record leaves everything as it was. -/
lemma adlWrite_of_overlaps {cfg : Config n} {ctx : DiskloopContext n} {r : Record n}
    (h : overlaps cfg ctx.lastRecordSamples ctx.lastRecordEnd r = true) (env : WriteEnv)
    (index : ℤ) : adlWrite cfg env ctx index r = (none, ctx) := by
  rw [adlWrite, if_pos h]

/-- An accepted append stores the record in the slot after the newest; flushing and the index
update change no field of the loop. -/
lemma adlWrite_of_accepts {cfg : Config n} {env : WriteEnv} {ctx : DiskloopContext n}
    {r : Record n} (h : overlaps cfg ctx.lastRecordSamples ctx.lastRecordEnd r = false)
    (hok : env.fwriteOk = true) :
    adlWrite cfg env ctx (-1) r = (none, flushIfDue env
      (ctx.stored cfg (if ctx.index + 1 ≥ ctx.capacity then 0 else ctx.index + 1) r)) := by
  unfold adlWrite
  rw [if_neg (by simp [h]), if_neg (by omega)]
  simp only [hok, Bool.not_true, Bool.false_eq_true, if_false, show (-1 : ℤ) < 0 by norm_num,
    if_true]

/-- A write leaves the context alone or stores the record in one slot. -/
lemma adlWrite_cases (cfg : Config n) (env : WriteEnv) (ctx : DiskloopContext n) (index : ℤ)
    (r : Record n) :
    (adlWrite cfg env ctx index r).2 = ctx ∨
      ∃ newIndex, adlWrite cfg env ctx index r
        = (none, flushIfDue env (ctx.stored cfg newIndex r)) := by
  unfold adlWrite
  by_cases hover : overlaps cfg ctx.lastRecordSamples ctx.lastRecordEnd r = true
  · exact Or.inl (by rw [if_pos hover])
  rw [if_neg hover]
  by_cases hrange : 0 ≤ index ∧ index ≥ ctx.capacity
  · exact Or.inl (by rw [if_pos hrange])
  rw [if_neg hrange]
  dsimp only
  by_cases hok : (!env.fwriteOk) = true
  · exact Or.inl (by rw [if_pos hok])
  · exact Or.inr ⟨_, by rw [if_neg hok]⟩

end StationProcessor
