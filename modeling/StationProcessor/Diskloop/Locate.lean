import StationProcessor.Diskloop.Context

/-!
# Searching an open disk loop by time

`adl_locate_index` and the routines built on it. The search bisects the file by start time,
tests in every step on which side of the seam between newest and oldest record it is, and then
chooses among the last pivot and its two neighbours.
-/

namespace StationProcessor

/-- The `INDEX_*` values of `whence`; `other` is any value without a case of its own. -/
inductive Whence
  | beforeExclusive
  | beforeInclusive
  | within
  | afterInclusive
  | afterExclusive
  | other (code : ℤ)
deriving DecidableEq

/-- `record_info_t`. -/
structure RecordInfo (n : ℕ) where
  buffer : Record n
  header : SeedHeader
  rateFactor : ℤ
  index : ℕ
deriving DecidableEq

variable {n : ℕ}

/-- `prepare_record_info`. -/
def prepareRecordInfo (cfg : Config n) (r : Record n) (index : ℕ) : RecordInfo n where
  buffer := r
  header := parseSeedHeader cfg.plat r.toList
  rateFactor := sampleRateFactor r.toList
  index := index

/-- Read the record at an index and prepare its information, with the message of a failure. -/
def readInfo (cfg : Config n) (ctx : DiskloopContext n) (index : ℕ) (message : String) :
    Except String (RecordInfo n) :=
  match adlRead ctx index with
  | .ok r => .ok (prepareRecordInfo cfg r index)
  | .error _ => .error message

/-! ### The bisection -/

/-- The variables of the search loop. -/
structure Search (n : ℕ) where
  minIndex : ℕ
  maxIndex : ℕ
  pivotIndex : ℕ
  thisRecord : RecordInfo n
deriving DecidableEq

/-- The body of the search loop; `first` and `last` are the start times of the first and the
last record of the file. -/
def searchStep (cfg : Config n) (ctx : DiskloopContext n) (time first last : StdTime2)
    (s : Search n) : Except String (Search n) := do
  let cmp := compareDccTimes cfg.plat.longBits
  let pivot := s.minIndex + (s.maxIndex - s.minIndex) / 2
  let r ← readInfo cfg ctx pivot ("adl_locate_index: Could not read record at index "
    ++ toString pivot ++ " from " ++ ctx.loopName)
  let start := r.header.recStart
  if cmp start time < 0 then
    if cmp start first < 0 ∧ cmp time last > 0 then
      return ⟨s.minIndex, pivot, pivot, r⟩
    else
      return ⟨pivot, s.maxIndex, pivot, r⟩
  else if cmp start time > 0 then
    if cmp start last > 0 ∧ cmp time first < 0 then
      return ⟨pivot, s.maxIndex, pivot, r⟩
    else
      return ⟨s.minIndex, pivot, pivot, r⟩
  else
    return ⟨pivot, pivot, pivot, r⟩

/-- `while ((max_index - min_index) > 1)`; a step at least halves the range, so `last_index`
steps are enough. -/
def searchLoop (cfg : Config n) (ctx : DiskloopContext n) (time first last : StdTime2) :
    ℕ → Search n → Except String (Search n)
  | 0, s => .ok s
  | fuel + 1, s =>
    if s.maxIndex - s.minIndex > 1 then do
      let s ← searchStep cfg ctx time first last s
      searchLoop cfg ctx time first last fuel s
    else .ok s

/-! ### The choice among the pivot and its neighbours -/

/-- One of the blocks that update `best_time` and `*index`: take the record when its time
qualifies and is better than the best time so far. -/
def considerRecord (cfg : Config n) (time : StdTime2) (timeOf : RecordInfo n → StdTime2)
    (qualifies better : ℤ → Bool) (best : Option (StdTime2 × ℕ)) (r : RecordInfo n) :
    Option (StdTime2 × ℕ) :=
  let cmp := compareDccTimes cfg.plat.longBits
  if qualifies (cmp (timeOf r) time) then
    match best with
    | none => some (timeOf r, r.index)
    | some (bestTime, i) =>
      if better (cmp (timeOf r) bestTime) then some (timeOf r, r.index) else some (bestTime, i)
  else best

/-- `*index` after the records were considered in turn, `-1` without a best one. -/
def bestIndex (cfg : Config n) (time : StdTime2) (timeOf : RecordInfo n → StdTime2)
    (qualifies better : ℤ → Bool) (records : List (RecordInfo n)) : ℤ :=
  match records.foldl (considerRecord cfg time timeOf qualifies better) none with
  | none => -1
  | some (_, i) => i

/-- Whether a record starts no later and ends no earlier than a time. -/
def spansTime (cfg : Config n) (time : StdTime2) (r : RecordInfo n) : Bool :=
  let cmp := compareDccTimes cfg.plat.longBits
  cmp r.header.recStart time ≤ 0 && cmp r.header.recEnd time ≥ 0

/-- The `switch` on `whence`. -/
def selectIndex (cfg : Config n) (time : StdTime2) (pivotIndex : ℕ)
    (before this after : RecordInfo n) : Whence → Except String ℤ
  | .beforeExclusive =>
    .ok (bestIndex cfg time (·.header.recEnd) (· < 0) (· > 0) [before, this, after])
  | .beforeInclusive =>
    .ok (bestIndex cfg time (·.header.recStart) (· ≤ 0) (· > 0) [before, this, after])
  | .within =>
    .ok (if spansTime cfg time this then pivotIndex
      else if spansTime cfg time before then before.index
      else if spansTime cfg time after then after.index
      else -1)
  | .afterInclusive =>
    .ok (bestIndex cfg time (·.header.recEnd) (· ≥ 0) (· < 0) [before, this, after])
  | .afterExclusive =>
    .ok (bestIndex cfg time (·.header.recStart) (· > 0) (· < 0) [before, this, after])
  | .other code =>
    .error ("adl_locate_index: invalid value for 'whence' [" ++ toString code ++ "]")

/-- The body of `adl_locate_index`: what it assigns to `*index`, or the error it runs into. -/
def locateIndex (cfg : Config n) (ctx : DiskloopContext n) (time : StdTime2) (whence : Whence) :
    Except String ℤ :=
  let fileSize := ctx.loopFp.data.length
  if fileSize < n then .ok (-1)
  else if fileSize < n * 2 then .ok 0
  else do
    let lastIndex := fileSize / n - 1
    let first ← readInfo cfg ctx 0
      ("adl_locate_index: Could not read first (start of file) record from " ++ ctx.loopName)
    let last ← readInfo cfg ctx lastIndex
      ("adl_locate_index: Could not read last (end of file) record from " ++ ctx.loopName)
    let s ← searchLoop cfg ctx time first.header.recStart last.header.recStart lastIndex
      ⟨0, lastIndex, 0, last⟩
    let indexBefore := if s.pivotIndex > 0 then s.pivotIndex - 1 else lastIndex
    let before ← readInfo cfg ctx indexBefore
      ("adl_locate_index: Could not record before selected (" ++ toString s.pivotIndex
        ++ " - 1 = " ++ toString indexBefore ++ ") from " ++ ctx.loopName)
    let indexAfter := if s.pivotIndex < lastIndex then s.pivotIndex + 1 else 0
    let after ← readInfo cfg ctx indexAfter
      ("adl_locate_index: Could not record after selected (" ++ toString s.pivotIndex
        ++ " + 1 = " ++ toString indexAfter ++ ") from " ++ ctx.loopName)
    selectIndex cfg time s.pivotIndex before s.thisRecord after whence

/-- `adl_locate_index`: its result and `*index`, given the old `*index`. The `done` label
returns `NULL`, so an error is not reported and leaves `*index` alone. -/
def adlLocateIndex (cfg : Config n) (ctx : DiskloopContext n) (time : StdTime2) (whence : Whence)
    (index : ℤ) : Option String × ℤ :=
  match locateIndex cfg ctx time whence with
  | .ok i => (none, i)
  | .error _ => (none, index)

/-! ### The routines built on the search -/

/-- `min_time`. -/
def minTime : StdTime2 := ⟨1, 1, 0, 0, 0, 1⟩

/-- `max_time`. -/
def maxTime : StdTime2 := ⟨32767, 365, 23, 59, 59, 9999⟩

/-- `adl_newest_index`. -/
def adlNewestIndex (cfg : Config n) (ctx : DiskloopContext n) (index : ℤ) : Option String × ℤ :=
  adlLocateIndex cfg ctx maxTime .beforeInclusive index

/-- `adl_range_indices`: the result, `*start_index` and `*end_index`. -/
def adlRangeIndices (cfg : Config n) (ctx : DiskloopContext n) (startTime endTime : StdTime2)
    (inclusive : Bool) (startIndex endIndex : ℤ) : Option String × ℤ × ℤ :=
  let startWhence := if inclusive then Whence.afterInclusive else .afterExclusive
  let endWhence := if inclusive then Whence.beforeInclusive else .beforeExclusive
  if compareDccTimes cfg.plat.longBits startTime endTime > 0 then
    (some "adl_range_indices: start time is newer than end time", startIndex, endIndex)
  else
    match adlLocateIndex cfg ctx startTime startWhence startIndex with
    | (none, startIndex) =>
      let (result, endIndex) := adlLocateIndex cfg ctx endTime endWhence endIndex
      (result, startIndex, endIndex)
    | (some result, startIndex) => (some result, startIndex, endIndex)

end StationProcessor
