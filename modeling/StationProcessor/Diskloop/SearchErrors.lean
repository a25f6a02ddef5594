import StationProcessor.Diskloop.SpanReports
import StationProcessor.Diskloop.Transfer

/-!
# Errors of the search

`adl_locate_index` and the routines over it, with reads that may fail at any place and with the
position of the stream. The `done` label of the search returns `NULL` instead of its result, so no
caller learns of an error.
-/

namespace StationProcessor

variable {n : ℕ}

/-! ### Reads that may fail -/

/-- The places that read the file of a loop. -/
inductive ReadPoint
  | first
  | last
  | pivot
  | before
  | after
  | record
  | header
deriving DecidableEq

/-- Which reads of a slot succeed at which place. -/
abbrev ReadEnv := ReadPoint → ℕ → Bool

/-- Calls on a stream: its position is the state, and is kept by an error. -/
abbrev StreamM := EStateM String ℕ

section Search

variable (env : ReadEnv) (cfg : Config n) (ctx : DiskloopContext n)

/-- `adl_read`, which restores the position it found. -/
def adlReadFrom (point : ReadPoint) (index : ℤ) : StreamM (Record n) := do
  let index := if index < 0 then ctx.index else index
  if index ≥ ctx.capacity then
    throw ("adl_read: Requested index [" ++ toString index ++ "] is out of range")
  else if index * n < 0 then
    throw ("adl_read: Could not seek to requested index [" ++ toString index ++ "]")
  else do
    let seekStore ← get
    set (index * n).toNat
    let record :=
      if env point index.toNat then Blocks.read n ctx.loopFp.data index.toNat else none
    set seekStore
    match record with
    | none => throw ("adl_read: Unable to read record at index " ++ toString index)
    | some r => return r

/-- Read the record at an index and prepare its information, with the message of a failure. -/
def readInfoFrom (point : ReadPoint) (index : ℕ) (message : String) :
    StreamM (RecordInfo n) := fun position =>
  match adlReadFrom env ctx point index position with
  | .ok r position => .ok (prepareRecordInfo cfg r index) position
  | .error _ position => .error message position

/-- `pivot_index` of a step of the search. -/
def Search.nextPivot (s : Search n) : ℕ := s.minIndex + (s.maxIndex - s.minIndex) / 2

/-- The step of the search after the record at the pivot was read. -/
def searchNext (time first last : StdTime2) (s : Search n) (r : RecordInfo n) : Search n :=
  let cmp := compareDccTimes cfg.plat.longBits
  let pivot := s.nextPivot
  let start := r.header.recStart
  if cmp start time < 0 then
    if cmp start first < 0 ∧ cmp time last > 0 then ⟨s.minIndex, pivot, pivot, r⟩
    else ⟨pivot, s.maxIndex, pivot, r⟩
  else if cmp start time > 0 then
    if cmp start last > 0 ∧ cmp time first < 0 then ⟨pivot, s.maxIndex, pivot, r⟩
    else ⟨s.minIndex, pivot, pivot, r⟩
  else ⟨pivot, pivot, pivot, r⟩

/-- `while ((max_index - min_index) > 1)`. -/
def searchLoopFrom (time first last : StdTime2) : ℕ → Search n → StreamM (Search n)
  | 0, s => pure s
  | fuel + 1, s =>
    if s.maxIndex - s.minIndex > 1 then do
      let r ← readInfoFrom env cfg ctx .pivot s.nextPivot
        ("adl_locate_index: Could not read record at index " ++ toString s.nextPivot ++ " from "
          ++ ctx.loopName)
      searchLoopFrom time first last fuel (searchNext cfg time first last s r)
    else pure s

/-- The end of `adl_locate_index`: read the neighbours of the pivot and choose by `whence`. -/
def chooseFrom (time : StdTime2) (whence : Whence) (lastIndex : ℕ) (s : Search n) :
    StreamM ℤ := do
  let indexBefore := if s.pivotIndex > 0 then s.pivotIndex - 1 else lastIndex
  let before ← readInfoFrom env cfg ctx .before indexBefore
    ("adl_locate_index: Could not record before selected (" ++ toString s.pivotIndex
      ++ " - 1 = " ++ toString indexBefore ++ ") from " ++ ctx.loopName)
  let indexAfter := if s.pivotIndex < lastIndex then s.pivotIndex + 1 else 0
  let after ← readInfoFrom env cfg ctx .after indexAfter
    ("adl_locate_index: Could not record after selected (" ++ toString s.pivotIndex
      ++ " + 1 = " ++ toString indexAfter ++ ") from " ++ ctx.loopName)
  match selectIndex cfg time s.pivotIndex before s.thisRecord after whence with
  | .ok index => return index
  | .error err => throw err

/-- The body of `adl_locate_index` up to its labels: what it assigns to `*index`, or the error. -/
def locateFrom (time : StdTime2) (whence : Whence) : StreamM ℤ := do
  let fileSize := ctx.loopFp.data.length
  set fileSize
  if fileSize < n then return -1
  else if fileSize < n * 2 then return 0
  else do
    let lastIndex := fileSize / n - 1
    let first ← readInfoFrom env cfg ctx .first 0
      ("adl_locate_index: Could not read first (start of file) record from " ++ ctx.loopName)
    let last ← readInfoFrom env cfg ctx .last lastIndex
      ("adl_locate_index: Could not read last (end of file) record from " ++ ctx.loopName)
    let s ← searchLoopFrom env cfg ctx time first.header.recStart last.header.recStart lastIndex
      ⟨0, lastIndex, 0, last⟩
    chooseFrom env cfg ctx time whence lastIndex s

/-- `adl_locate_index`: its result, `*index` given the old one, and the position of the stream. -/
def adlLocateIndexFrom (time : StdTime2) (whence : Whence) (index : ℤ) (position : ℕ) :
    (Option String × ℤ) × ℕ :=
  let seekStore := position
  match locateFrom env cfg ctx time whence position with
  | .ok index _ => ((none, index), seekStore)
  -- `result` is set at the `error` label, but `done` returns `NULL`
  | .error _ _ => ((none, index), seekStore)

end Search

/-! ### The routines over the search -/

/-- `adl_range_indices`, with the reads of its two searches. -/
def adlRangeIndicesFrom (startEnv endEnv : ReadEnv) (cfg : Config n) (ctx : DiskloopContext n)
    (startTime endTime : StdTime2) (inclusive : Bool) (startIndex endIndex : ℤ) (position : ℕ) :
    (Option String × ℤ × ℤ) × ℕ :=
  let startWhence := if inclusive then Whence.afterInclusive else .afterExclusive
  let endWhence := if inclusive then Whence.beforeInclusive else .beforeExclusive
  if compareDccTimes cfg.plat.longBits startTime endTime > 0 then
    ((some "adl_range_indices: start time is newer than end time", startIndex, endIndex), position)
  else
    match adlLocateIndexFrom startEnv cfg ctx startTime startWhence startIndex position with
    | ((none, startIndex), position) =>
      let ((result, endIndex), position) :=
        adlLocateIndexFrom endEnv cfg ctx endTime endWhence endIndex position
      ((result, startIndex, endIndex), position)
    | ((some result, startIndex), position) => ((some result, startIndex, endIndex), position)

/-- `GetRecordRange` after `adl_open`. -/
def getRecordRangeFrom (startEnv endEnv : ReadEnv) (cfg : Config n) (ctx : DiskloopContext n)
    (tBeginTime tEndTime : StdTime2) (startIndex endIndex : ℤ) (position : ℕ) :
    Except String RecordRange × ℕ :=
  match adlRangeIndicesFrom startEnv endEnv cfg ctx tBeginTime tEndTime true startIndex endIndex
    position with
  | ((some err, _, _), position) => (.error err, position)
  | ((none, startIndex, endIndex), position) =>
    (.ok (recordRange startIndex endIndex ctx.size), position)

/-- `ReadLast` after `adl_open`; `index` is its uninitialised variable. -/
def readLastFrom (env : ReadEnv) (cfg : Config n) (ctx : DiskloopContext n) (index : ℤ)
    (position : ℕ) : EStateM.Result String ℕ (Record n) :=
  match adlLocateIndexFrom env cfg ctx maxTime .beforeInclusive index position with
  | ((some err, _), position) => .error err position
  | ((none, index), position) => adlReadFrom env ctx .record index position

/-- The header `RangeSpans` reads, which may fail in any slot. -/
def readHeaderFrom (env : ReadEnv) (cfg : Config n) (ctx : DiskloopContext n) (index : ℤ) :
    Except String SeedHeader :=
  if headerOffset n index < 0 ∨ env .header index.toNat then readHeader cfg ctx index
  else .error ("RangeSpans: Unable to read header " ++ toString index ++ " in " ++ ctx.loopName)

/-- `DumpSpans` after `adl_open`, with `start_index` initialised to 0 and with a number of rounds
for the loop in `RangeSpans`, which restores the position it found. -/
def dumpSpansFrom (env : ReadEnv) (cfg : Config n) (ctx : DiskloopContext n) (position fuel : ℕ) :
    Except String (Option SpanReport) × ℕ :=
  match adlLocateIndexFrom env cfg ctx minTime .afterInclusive 0 position with
  | ((some err, _), position) => (.error err, position)
  | ((none, startIndex), position) =>
    (rangeSpans (readHeaderFrom env cfg ctx) cfg.plat.longBits ctx.size startIndex startIndex fuel,
      position)

/-! ### The model without failing reads -/

/-- A computation without a stream. -/
def onStream {α : Type} (x : Except String α) : StreamM α := fun position =>
  match x with
  | .ok a => .ok a position
  | .error err => .error err position

@[simp] lemma onStream_ok {α : Type} (a : α) : onStream (.ok a) = (pure a : StreamM α) := rfl

lemma get_bind_apply {α : Type} (f : ℕ → StreamM α) (position : ℕ) :
    (get >>= f) position = f position position := rfl

lemma set_bind_apply {α : Type} (position' : ℕ) (f : PUnit → StreamM α) (position : ℕ) :
    (set position' >>= f) position = f ⟨⟩ position' := rfl

lemma onStream_bind {α β : Type} (x : Except String α) (f : α → Except String β) :
    onStream (x >>= f) = onStream x >>= fun a => onStream (f a) := by
  cases x <;> rfl

section NoFailure

variable {cfg : Config n} {ctx : DiskloopContext n}

lemma adlReadFrom_true (point : ReadPoint) (index : ℤ) :
    adlReadFrom (fun _ _ => true) ctx point index = onStream (adlRead ctx index) := by
  funext position
  simp only [adlReadFrom, adlRead, onStream, if_true]
  generalize (if index < 0 then ctx.index else index) = i
  split_ifs
  · rfl
  · rfl
  · simp only [get_bind_apply, set_bind_apply]
    cases Blocks.read n ctx.loopFp.data i.toNat <;> rfl

lemma readInfoFrom_true (point : ReadPoint) (index : ℕ) (message : String) :
    readInfoFrom (fun _ _ => true) cfg ctx point index message
      = onStream (readInfo cfg ctx index message) := by
  funext position
  simp only [readInfoFrom, adlReadFrom_true, readInfo, onStream]
  cases adlRead ctx index <;> rfl

lemma searchStep_eq_next (time first last : StdTime2) (s : Search n) :
    searchStep cfg ctx time first last s
      = readInfo cfg ctx s.nextPivot ("adl_locate_index: Could not read record at index "
          ++ toString s.nextPivot ++ " from " ++ ctx.loopName) >>= fun r =>
        .ok (searchNext cfg time first last s r) := by
  refine bind_congr fun r => ?_
  simp only [searchNext]
  split_ifs <;> rfl

lemma searchLoopFrom_true (time first last : StdTime2) (fuel : ℕ) (s : Search n) :
    searchLoopFrom (fun _ _ => true) cfg ctx time first last fuel s
      = onStream (searchLoop cfg ctx time first last fuel s) := by
  induction fuel generalizing s with
  | zero => rfl
  | succ fuel ih =>
    simp only [searchLoopFrom, searchLoop]
    split_ifs
    · rw [onStream_bind, searchStep_eq_next, onStream_bind, readInfoFrom_true, bind_assoc]
      simp [ih]
    · rfl

lemma locateFrom_true (time : StdTime2) (whence : Whence) (position : ℕ) :
    locateFrom (fun _ _ => true) cfg ctx time whence position
      = onStream (locateIndex cfg ctx time whence) ctx.loopFp.data.length := by
  have hrest : ∀ x y : StreamM ℤ, x = y → x ctx.loopFp.data.length = y ctx.loopFp.data.length :=
    fun x y h => by rw [h]
  simp only [locateFrom, set_bind_apply]
  apply hrest
  simp only [locateIndex, chooseFrom, readInfoFrom_true, searchLoopFrom_true]
  split_ifs
  · rfl
  · rfl
  · rw [onStream_bind]
    refine bind_congr fun first => ?_
    rw [onStream_bind]
    refine bind_congr fun last => ?_
    rw [onStream_bind]
    refine bind_congr fun s => ?_
    rw [onStream_bind]
    refine bind_congr fun before => ?_
    rw [onStream_bind]
    refine bind_congr fun after => ?_
    cases selectIndex cfg time s.pivotIndex before s.thisRecord after whence <;> rfl

/-- Without failing reads the search is the one of `adlLocateIndex`, and keeps the position. -/
theorem adlLocateIndexFrom_true (time : StdTime2) (whence : Whence) (index : ℤ) (position : ℕ) :
    adlLocateIndexFrom (fun _ _ => true) cfg ctx time whence index position
      = (adlLocateIndex cfg ctx time whence index, position) := by
  simp only [adlLocateIndexFrom, locateFrom_true, adlLocateIndex, onStream]
  cases locateIndex cfg ctx time whence <;> rfl

end NoFailure

/-! ### The reads of a search -/

section Reads

variable (cfg : Config n) (ctx : DiskloopContext n)

/-- The reads of the search loop, from the records in the file. -/
def probes (time first last : StdTime2) : ℕ → Search n → List (ReadPoint × ℕ)
  | 0, _ => []
  | fuel + 1, s =>
    if s.maxIndex - s.minIndex > 1 then
      (.pivot, s.nextPivot) :: match Blocks.read n ctx.loopFp.data s.nextPivot with
        | some r =>
          probes time first last fuel
            (searchNext cfg time first last s (prepareRecordInfo cfg r s.nextPivot))
        | none => []
    else []

/-- The variables after the search loop, from the records in the file. -/
def searchEnd (time first last : StdTime2) : ℕ → Search n → Search n
  | 0, s => s
  | fuel + 1, s =>
    if s.maxIndex - s.minIndex > 1 then
      match Blocks.read n ctx.loopFp.data s.nextPivot with
      | some r =>
        searchEnd time first last fuel
          (searchNext cfg time first last s (prepareRecordInfo cfg r s.nextPivot))
      | none => s
    else s

/-- The reads of a search after its first and last record, and its two neighbours. -/
def laterReads (time : StdTime2) (lastIndex : ℕ) (first last : Record n) :
    List (ReadPoint × ℕ) :=
  let first := prepareRecordInfo cfg first 0
  let last := prepareRecordInfo cfg last lastIndex
  let pivot := (searchEnd cfg ctx time first.header.recStart last.header.recStart lastIndex
    ⟨0, lastIndex, 0, last⟩).pivotIndex
  probes cfg ctx time first.header.recStart last.header.recStart lastIndex ⟨0, lastIndex, 0, last⟩
    ++ [(.before, if pivot > 0 then pivot - 1 else lastIndex),
      (.after, if pivot < lastIndex then pivot + 1 else 0)]

/-- The reads of `adl_locate_index`: none for a file of less than two records. -/
def searchReads (time : StdTime2) : List (ReadPoint × ℕ) :=
  let fileSize := ctx.loopFp.data.length
  if fileSize < n * 2 then []
  else
    let lastIndex := fileSize / n - 1
    (.first, 0) :: (.last, lastIndex) ::
      match Blocks.read n ctx.loopFp.data 0, Blocks.read n ctx.loopFp.data lastIndex with
      | some first, some last => laterReads cfg ctx time lastIndex first last
      | _, _ => []

end Reads

/-- A read succeeds: the slot is within the capacity, the file holds a record there, and the file
system returns it. -/
def ReadSucceeds (env : ReadEnv) (ctx : DiskloopContext n) (read : ReadPoint × ℕ) : Prop :=
  (read.2 : ℤ) < ctx.capacity ∧ (Blocks.read n ctx.loopFp.data read.2).isSome ∧
    env read.1 read.2 = true

/-- One of the five values of `whence`. -/
def Whence.Known : Whence → Prop
  | .other _ => False
  | _ => True

/-- No failure point of a search is hit: all its reads succeed, and where it looks at `whence`
this is a known value. -/
def NoFailure (env : ReadEnv) (cfg : Config n) (ctx : DiskloopContext n) (time : StdTime2)
    (whence : Whence) : Prop :=
  (∀ read ∈ searchReads cfg ctx time, ReadSucceeds env ctx read) ∧
    (n * 2 ≤ ctx.loopFp.data.length → whence.Known)

/-- A computation that returns this value and keeps the position. -/
def Returns {α : Type} (x : StreamM α) (a : α) : Prop := ∀ position, x position = .ok a position

/-- A computation that fails. -/
def Fails {α : Type} (x : StreamM α) : Prop :=
  ∀ position, ∃ err position', x position = .error err position'

lemma Returns.bind_eq {α β : Type} {x : StreamM α} {a : α} (h : Returns x a)
    (f : α → StreamM β) : x >>= f = f a := by
  funext position
  show EStateM.bind x f position = _
  rw [EStateM.bind, h position]

lemma Fails.bind {α β : Type} {x : StreamM α} (h : Fails x) (f : α → StreamM β) :
    Fails (x >>= f) := by
  intro position
  obtain ⟨err, position', herr⟩ := h position
  refine ⟨err, position', ?_⟩
  show EStateM.bind x f position = _
  rw [EStateM.bind, herr]

section Outcome

variable (env : ReadEnv) (cfg : Config n) (ctx : DiskloopContext n)

/-- A read either returns the record of its slot or fails. -/
lemma readInfoFrom_cases (point : ReadPoint) (index : ℕ) (message : String) :
    (ReadSucceeds env ctx (point, index) ∧ ∃ r, Blocks.read n ctx.loopFp.data index = some r ∧
        Returns (readInfoFrom env cfg ctx point index message) (prepareRecordInfo cfg r index)) ∨
      (¬ ReadSucceeds env ctx (point, index) ∧
        Fails (readInfoFrom env cfg ctx point index message)) := by
  have hsign : ¬ (index : ℤ) < 0 := not_lt.mpr (by positivity)
  have hseek : ¬ (index : ℤ) * n < 0 := not_lt.mpr (by positivity)
  by_cases hcap : (index : ℤ) ≥ ctx.capacity
  · refine Or.inr ⟨fun h => absurd h.1 (not_lt.mpr hcap), fun position => ⟨message, position, ?_⟩⟩
    simp only [readInfoFrom, adlReadFrom, if_neg hsign, if_pos hcap]
    rfl
  have hread : ∀ position, readInfoFrom env cfg ctx point index message position
      = match (if env point index then Blocks.read n ctx.loopFp.data index else none) with
        | some r => .ok (prepareRecordInfo cfg r index) position
        | none => .error message position := by
    intro position
    simp only [readInfoFrom, adlReadFrom, if_neg hsign, if_neg hcap, if_neg hseek, get_bind_apply,
      set_bind_apply, Int.toNat_natCast]
    cases (if env point index then Blocks.read n ctx.loopFp.data index else none) <;> rfl
  have hsucceeds : ReadSucceeds env ctx (point, index) ↔
      (if env point index then Blocks.read n ctx.loopFp.data index else none).isSome := by
    simp only [ReadSucceeds, not_le.mp hcap, true_and]
    cases henv : env point index <;> simp
  rw [hsucceeds]
  cases hblock : (if env point index then Blocks.read n ctx.loopFp.data index else none) with
  | none =>
    exact Or.inr ⟨by simp, fun position => ⟨message, position, by rw [hread, hblock]⟩⟩
  | some r =>
    refine Or.inl ⟨by simp, r, ?_, fun position => by rw [hread, hblock]⟩
    exact (Option.ite_none_right_eq_some.mp hblock).2

/-- The search loop returns the ideal end of the search or fails. -/
lemma searchLoopFrom_cases (time first last : StdTime2) (fuel : ℕ) (s : Search n) :
    ((∀ read ∈ probes cfg ctx time first last fuel s, ReadSucceeds env ctx read) ∧
        Returns (searchLoopFrom env cfg ctx time first last fuel s)
          (searchEnd cfg ctx time first last fuel s)) ∨
      ((¬ ∀ read ∈ probes cfg ctx time first last fuel s, ReadSucceeds env ctx read) ∧
        Fails (searchLoopFrom env cfg ctx time first last fuel s)) := by
  induction fuel generalizing s with
  | zero => exact Or.inl ⟨by simp [probes], fun _ => rfl⟩
  | succ fuel ih =>
    simp only [probes, searchLoopFrom, searchEnd]
    split_ifs with hgap
    · rcases readInfoFrom_cases env cfg ctx .pivot s.nextPivot _ with
        ⟨hok, r, hr, hreturns⟩ | ⟨hno, hfails⟩
      · rw [hreturns.bind_eq]
        simp only [hr, List.forall_mem_cons, hok, true_and]
        exact ih _
      · exact Or.inr ⟨fun h => hno (h _ List.mem_cons_self), hfails.bind _⟩
    · exact Or.inl ⟨by simp, fun _ => rfl⟩

lemma selectIndex_cases (time : StdTime2) (pivot : ℕ) (before this after : RecordInfo n)
    (whence : Whence) :
    (whence.Known ∧ ∃ index, selectIndex cfg time pivot before this after whence = .ok index) ∨
      (¬ whence.Known ∧ ∃ err,
        selectIndex cfg time pivot before this after whence = .error err) := by
  cases whence with
  | other code => exact Or.inr ⟨id, _, rfl⟩
  | _ => exact Or.inl ⟨trivial, _, rfl⟩

/-- The end of the search either chooses an index or fails. -/
lemma chooseFrom_cases (time : StdTime2) (whence : Whence) (lastIndex : ℕ) (s : Search n) :
    let neighbours : Prop :=
      ReadSucceeds env ctx (.before, if s.pivotIndex > 0 then s.pivotIndex - 1 else lastIndex) ∧
        ReadSucceeds env ctx (.after, if s.pivotIndex < lastIndex then s.pivotIndex + 1 else 0)
    (neighbours ∧ whence.Known ∧
        ∃ index, Returns (chooseFrom env cfg ctx time whence lastIndex s) index) ∨
      (¬ (neighbours ∧ whence.Known) ∧
        Fails (chooseFrom env cfg ctx time whence lastIndex s)) := by
  intro neighbours
  unfold chooseFrom
  rcases readInfoFrom_cases env cfg ctx .before
    (if s.pivotIndex > 0 then s.pivotIndex - 1 else lastIndex) _ with
    ⟨hbefore, before, -, hreturns⟩ | ⟨hno, hfails⟩
  swap
  · exact Or.inr ⟨fun h => hno h.1.1, hfails.bind _⟩
  simp only [hreturns.bind_eq]
  rcases readInfoFrom_cases env cfg ctx .after
    (if s.pivotIndex < lastIndex then s.pivotIndex + 1 else 0) _ with
    ⟨hafter, after, -, hreturns⟩ | ⟨hno, hfails⟩
  swap
  · exact Or.inr ⟨fun h => hno h.1.2, hfails.bind _⟩
  simp only [hreturns.bind_eq]
  rcases selectIndex_cases cfg time s.pivotIndex _ s.thisRecord _ whence with
    ⟨hknown, index, hindex⟩ | ⟨hno, err, herr⟩
  · rw [hindex]
    exact Or.inl ⟨⟨hbefore, hafter⟩, hknown, index, fun _ => rfl⟩
  · rw [herr]
    exact Or.inr ⟨fun h => hno h.2, fun position => ⟨err, position, rfl⟩⟩

/-- The search either ends with an index or fails; it fails exactly at a failure point. -/
lemma locateFrom_cases (time : StdTime2) (whence : Whence) :
    (NoFailure env cfg ctx time whence ∧ ∃ index, ∀ position,
        locateFrom env cfg ctx time whence position = .ok index ctx.loopFp.data.length) ∨
      (¬ NoFailure env cfg ctx time whence ∧ Fails (locateFrom env cfg ctx time whence)) := by
  simp only [locateFrom, Fails, set_bind_apply, NoFailure, searchReads]
  by_cases hempty : ctx.loopFp.data.length < n
  · rw [if_pos hempty, if_pos (by omega)]
    exact Or.inl ⟨⟨by simp, fun h => absurd h (by omega)⟩, -1, fun _ => rfl⟩
  rw [if_neg hempty]
  by_cases hsingle : ctx.loopFp.data.length < n * 2
  · rw [if_pos hsingle, if_pos hsingle]
    exact Or.inl ⟨⟨by simp, fun h => absurd h (not_le.mpr hsingle)⟩, 0, fun _ => rfl⟩
  rw [if_neg hsingle, if_neg hsingle]
  have hlarge : n * 2 ≤ ctx.loopFp.data.length := not_lt.mp hsingle
  generalize ctx.loopFp.data.length / n - 1 = lastIndex
  rcases readInfoFrom_cases env cfg ctx .first 0 _ with
    ⟨hfirst, first, hblock, hreturns⟩ | ⟨hno, hfails⟩
  swap
  · exact Or.inr ⟨fun h => hno (h.1 _ List.mem_cons_self), fun _ => hfails.bind _ _⟩
  rw [hreturns.bind_eq]
  rcases readInfoFrom_cases env cfg ctx .last lastIndex _ with
    ⟨hlast, last, hblock', hreturns'⟩ | ⟨hno, hfails⟩
  swap
  · exact Or.inr ⟨fun h => hno (h.1 _ (by simp)), fun _ => hfails.bind _ _⟩
  rw [hreturns'.bind_eq]
  simp only [hblock, hblock', laterReads, List.forall_mem_cons, List.forall_mem_append, hfirst,
    hlast, true_and, hlarge, true_imp_iff]
  rcases searchLoopFrom_cases env cfg ctx time _ _ lastIndex _ with
    ⟨hprobes, hreturns⟩ | ⟨hno, hfails⟩
  swap
  · exact Or.inr ⟨fun h => hno h.1.1, fun _ => hfails.bind _ _⟩
  rw [hreturns.bind_eq]
  rcases chooseFrom_cases env cfg ctx time whence lastIndex _ with
    ⟨⟨hbefore, hafter⟩, hknown, index, hindex⟩ | ⟨hno, hfails⟩
  · refine Or.inl ⟨⟨⟨hprobes, hbefore, hafter, by simp⟩, hknown⟩, index, fun _ => hindex _⟩
  · refine Or.inr ⟨fun h => hno ⟨⟨h.1.2.1, h.1.2.2.1⟩, h.2⟩, fun _ => hfails _⟩

end Outcome

/-! ### Errors that reach the caller -/

/-- The search ends with this index. -/
def Located (env : ReadEnv) (cfg : Config n) (ctx : DiskloopContext n) (time : StdTime2)
    (whence : Whence) (index : ℤ) : Prop :=
  ∃ position position', locateFrom env cfg ctx time whence position = .ok index position'

/-- `adl_locate_index` reports a failure, returns an index of the search with `NULL`, and restores
the position. -/
structure LocateReports (env : ReadEnv) (cfg : Config n) (ctx : DiskloopContext n)
    (time : StdTime2) (whence : Whence) (index : ℤ) (position : ℕ) : Prop where
  error : Fails (locateFrom env cfg ctx time whence) →
    (adlLocateIndexFrom env cfg ctx time whence index position).1.1 ≠ none
  assigned : (adlLocateIndexFrom env cfg ctx time whence index position).1.1 = none →
    Located env cfg ctx time whence (adlLocateIndexFrom env cfg ctx time whence index position).1.2
  position : (adlLocateIndexFrom env cfg ctx time whence index position).2 = position

/-- The two values of `whence` in `adl_range_indices`. -/
def startWhence (inclusive : Bool) : Whence :=
  if inclusive then .afterInclusive else .afterExclusive

def endWhence (inclusive : Bool) : Whence :=
  if inclusive then .beforeInclusive else .beforeExclusive

/-- So does `adl_range_indices` for its two searches. -/
structure RangeReports (startEnv endEnv : ReadEnv) (cfg : Config n) (ctx : DiskloopContext n)
    (startTime endTime : StdTime2) (inclusive : Bool) (startIndex endIndex : ℤ) (position : ℕ) :
    Prop where
  error : Fails (locateFrom startEnv cfg ctx startTime (startWhence inclusive)) ∨
      Fails (locateFrom endEnv cfg ctx endTime (endWhence inclusive)) →
    (adlRangeIndicesFrom startEnv endEnv cfg ctx startTime endTime inclusive startIndex endIndex
      position).1.1 ≠ none
  assigned : ∀ first last, (adlRangeIndicesFrom startEnv endEnv cfg ctx startTime endTime inclusive
      startIndex endIndex position).1 = (none, first, last) →
    Located startEnv cfg ctx startTime (startWhence inclusive) first ∧
      Located endEnv cfg ctx endTime (endWhence inclusive) last
  position : (adlRangeIndicesFrom startEnv endEnv cfg ctx startTime endTime inclusive startIndex
    endIndex position).2 = position

/-- And `GetRecordRange`. -/
structure RecordRangeReports (startEnv endEnv : ReadEnv) (cfg : Config n)
    (ctx : DiskloopContext n) (startTime endTime : StdTime2) (startIndex endIndex : ℤ)
    (position : ℕ) : Prop where
  error : Fails (locateFrom startEnv cfg ctx startTime .afterInclusive) ∨
      Fails (locateFrom endEnv cfg ctx endTime .beforeInclusive) →
    ∃ err, (getRecordRangeFrom startEnv endEnv cfg ctx startTime endTime startIndex endIndex
      position).1 = .error err
  assigned : ∀ range, (getRecordRangeFrom startEnv endEnv cfg ctx startTime endTime startIndex
      endIndex position).1 = .ok range →
    ∃ first last, Located startEnv cfg ctx startTime .afterInclusive first ∧
      Located endEnv cfg ctx endTime .beforeInclusive last ∧
      range = recordRange first last ctx.size
  position : (getRecordRangeFrom startEnv endEnv cfg ctx startTime endTime startIndex endIndex
    position).2 = position

/-- And `ReadLast`, which returns the record at the index found. -/
structure ReadLastReports (env : ReadEnv) (cfg : Config n) (ctx : DiskloopContext n) (index : ℤ)
    (position : ℕ) : Prop where
  error : Fails (locateFrom env cfg ctx maxTime .beforeInclusive) →
    ∃ err, readLastFrom env cfg ctx index position = .error err position
  assigned : ∀ r position', readLastFrom env cfg ctx index position = .ok r position' →
    position' = position ∧ ∃ found, Located env cfg ctx maxTime .beforeInclusive found ∧
      adlReadFrom env ctx .record found position = .ok r position

/-- And `DumpSpans`, which reports the loop from the index found. -/
structure DumpSpansReports (env : ReadEnv) (cfg : Config n) (ctx : DiskloopContext n)
    (position : ℕ) : Prop where
  error : Fails (locateFrom env cfg ctx minTime .afterInclusive) →
    ∃ fuel err, (dumpSpansFrom env cfg ctx position fuel).1 = .error err
  assigned : ∀ fuel report, (dumpSpansFrom env cfg ctx position fuel).1 = .ok (some report) →
    ∃ found, Located env cfg ctx minTime .afterInclusive found ∧
      rangeSpans (readHeaderFrom env cfg ctx) cfg.plat.longBits ctx.size found found fuel
        = .ok (some report)
  position : ∀ fuel, (dumpSpansFrom env cfg ctx position fuel).2 = position

section Outcome

variable {env : ReadEnv} {cfg : Config n} {ctx : DiskloopContext n} {time : StdTime2}
  {whence : Whence}

lemma fails_iff : Fails (locateFrom env cfg ctx time whence) ↔
    ¬ NoFailure env cfg ctx time whence := by
  rcases locateFrom_cases env cfg ctx time whence with ⟨hok, index, hindex⟩ | ⟨hno, hfails⟩
  · refine iff_of_false (fun h => ?_) (not_not.mpr hok)
    obtain ⟨err, position', herr⟩ := h 0
    rw [hindex] at herr
    cases herr
  · exact iff_of_true hfails hno

/-- Without a failure the index is the one of the search. -/
lemma adlLocateIndexFrom_of_noFailure (h : NoFailure env cfg ctx time whence) :
    ∃ found, Located env cfg ctx time whence found ∧ ∀ index position,
      adlLocateIndexFrom env cfg ctx time whence index position = ((none, found), position) := by
  rcases locateFrom_cases env cfg ctx time whence with ⟨-, found, hfound⟩ | ⟨hno, -⟩
  · exact ⟨found, ⟨0, _, hfound 0⟩, fun index position => by rw [adlLocateIndexFrom, hfound]⟩
  · exact absurd h hno

/-- With a failure the index is the old one, and the result is `NULL` all the same. -/
lemma adlLocateIndexFrom_of_failure (h : ¬ NoFailure env cfg ctx time whence) (index : ℤ)
    (position : ℕ) :
    adlLocateIndexFrom env cfg ctx time whence index position = ((none, index), position) := by
  obtain ⟨err, position', herr⟩ := fails_iff.mpr h position
  rw [adlLocateIndexFrom, herr]

lemma noFailure_of_located {index : ℤ} (h : Located env cfg ctx time whence index) :
    NoFailure env cfg ctx time whence := by
  obtain ⟨position, position', hok⟩ := h
  by_contra hno
  obtain ⟨err, position'', herr⟩ := fails_iff.mpr hno position
  rw [herr] at hok
  cases hok

lemma locateReports_iff (index : ℤ) (position : ℕ) :
    LocateReports env cfg ctx time whence index position ↔ NoFailure env cfg ctx time whence := by
  constructor
  · intro h
    by_contra hno
    exact h.error (fails_iff.mpr hno) (by rw [adlLocateIndexFrom_of_failure hno])
  · intro h
    obtain ⟨found, hfound, hcall⟩ := adlLocateIndexFrom_of_noFailure h
    exact ⟨fun hfails => absurd h (fails_iff.mp hfails), fun _ => by rwa [hcall],
      by rw [hcall]⟩

/-- The search never returns anything but `NULL`. -/
lemma adlLocateIndexFrom_null (env : ReadEnv) (cfg : Config n) (ctx : DiskloopContext n)
    (time : StdTime2) (whence : Whence) (index : ℤ) :
    ∃ found, (NoFailure env cfg ctx time whence → Located env cfg ctx time whence found) ∧
      ∀ position, adlLocateIndexFrom env cfg ctx time whence index position
        = ((none, found), position) := by
  by_cases h : NoFailure env cfg ctx time whence
  · obtain ⟨found, hfound, hcall⟩ := adlLocateIndexFrom_of_noFailure h
    exact ⟨found, fun _ => hfound, hcall index⟩
  · exact ⟨index, fun hok => absurd hok h, adlLocateIndexFrom_of_failure h index⟩

end Outcome

section Callers

variable {startEnv endEnv env : ReadEnv} {cfg : Config n} {ctx : DiskloopContext n}
  {startTime endTime : StdTime2}

/-- The condition for the two searches of a range. -/
def RangeSearched (startEnv endEnv : ReadEnv) (cfg : Config n) (ctx : DiskloopContext n)
    (startTime endTime : StdTime2) (inclusive : Bool) : Prop :=
  compareDccTimes cfg.plat.longBits startTime endTime > 0 ∨
    NoFailure startEnv cfg ctx startTime (startWhence inclusive) ∧
      NoFailure endEnv cfg ctx endTime (endWhence inclusive)

/-- `adl_range_indices` refuses a range that ends before it starts, else returns `NULL`. -/
lemma adlRangeIndicesFrom_cases (startEnv endEnv : ReadEnv) (cfg : Config n)
    (ctx : DiskloopContext n) (startTime endTime : StdTime2) (inclusive : Bool)
    (startIndex endIndex : ℤ) :
    (compareDccTimes cfg.plat.longBits startTime endTime > 0 ∧ ∃ err, ∀ position,
        adlRangeIndicesFrom startEnv endEnv cfg ctx startTime endTime inclusive startIndex endIndex
          position = ((some err, startIndex, endIndex), position)) ∨
      (¬ compareDccTimes cfg.plat.longBits startTime endTime > 0 ∧ ∃ first last,
        (NoFailure startEnv cfg ctx startTime (startWhence inclusive) →
          Located startEnv cfg ctx startTime (startWhence inclusive) first) ∧
        (NoFailure endEnv cfg ctx endTime (endWhence inclusive) →
          Located endEnv cfg ctx endTime (endWhence inclusive) last) ∧ ∀ position,
        adlRangeIndicesFrom startEnv endEnv cfg ctx startTime endTime inclusive startIndex endIndex
          position = ((none, first, last), position)) := by
  by_cases horder : compareDccTimes cfg.plat.longBits startTime endTime > 0
  · exact Or.inl ⟨horder, _, fun position => by rw [adlRangeIndicesFrom, if_pos horder]⟩
  · obtain ⟨first, hfirst, hcall⟩ := adlLocateIndexFrom_null startEnv cfg ctx startTime
      (startWhence inclusive) startIndex
    obtain ⟨last, hlast, hcall'⟩ := adlLocateIndexFrom_null endEnv cfg ctx endTime
      (endWhence inclusive) endIndex
    refine Or.inr ⟨horder, first, last, hfirst, hlast, fun position => ?_⟩
    simp only [startWhence, endWhence] at hcall hcall'
    simp only [adlRangeIndicesFrom, if_neg horder, hcall, hcall']

lemma rangeReports_iff (inclusive : Bool) (startIndex endIndex : ℤ) (position : ℕ) :
    RangeReports startEnv endEnv cfg ctx startTime endTime inclusive startIndex endIndex position ↔
      RangeSearched startEnv endEnv cfg ctx startTime endTime inclusive := by
  rcases adlRangeIndicesFrom_cases startEnv endEnv cfg ctx startTime endTime inclusive startIndex
    endIndex with ⟨horder, err, hcall⟩ | ⟨horder, first, last, hfirst, hlast, hcall⟩
  · refine iff_of_true ⟨fun _ => ?_, fun _ _ h => ?_, ?_⟩ (Or.inl horder)
    · simp [hcall]
    · simp [hcall] at h
    · rw [hcall]
  · constructor
    · intro h
      obtain ⟨hs, he⟩ := h.assigned first last (by rw [hcall])
      exact Or.inr ⟨noFailure_of_located hs, noFailure_of_located he⟩
    · intro h
      obtain ⟨hs, he⟩ := h.resolve_left horder
      refine ⟨fun hfails => ?_, fun f l hfl => ?_, by rw [hcall]⟩
      · rw [fails_iff, fails_iff] at hfails
        exact absurd hfails (not_or.mpr ⟨not_not.mpr hs, not_not.mpr he⟩)
      · rw [hcall] at hfl
        obtain ⟨rfl, rfl⟩ := Prod.mk.inj (Prod.mk.inj hfl).2
        exact ⟨hfirst hs, hlast he⟩

lemma getRecordRangeFrom_error {startIndex endIndex a b : ℤ} {position position' : ℕ}
    {err : String}
    (h : adlRangeIndicesFrom startEnv endEnv cfg ctx startTime endTime true startIndex endIndex
      position = ((some err, a, b), position')) :
    getRecordRangeFrom startEnv endEnv cfg ctx startTime endTime startIndex endIndex position
      = (.error err, position') := by
  unfold getRecordRangeFrom
  rw [h]

lemma getRecordRangeFrom_ok {startIndex endIndex first last : ℤ} {position position' : ℕ}
    (h : adlRangeIndicesFrom startEnv endEnv cfg ctx startTime endTime true startIndex endIndex
      position = ((none, first, last), position')) :
    getRecordRangeFrom startEnv endEnv cfg ctx startTime endTime startIndex endIndex position
      = (.ok (recordRange first last ctx.size), position') := by
  unfold getRecordRangeFrom
  rw [h]

lemma recordRangeReports_iff (startIndex endIndex : ℤ) (position : ℕ) :
    RecordRangeReports startEnv endEnv cfg ctx startTime endTime startIndex endIndex position ↔
      RangeSearched startEnv endEnv cfg ctx startTime endTime true := by
  rcases adlRangeIndicesFrom_cases startEnv endEnv cfg ctx startTime endTime true startIndex
    endIndex with ⟨horder, err, hcall⟩ | ⟨horder, first, last, hfirst, hlast, hcall⟩
  · have hresult : getRecordRangeFrom startEnv endEnv cfg ctx startTime endTime startIndex endIndex
        position = (.error err, position) := getRecordRangeFrom_error (hcall position)
    refine iff_of_true ⟨fun _ => ⟨err, by rw [hresult]⟩, fun range h => ?_, ?_⟩ (Or.inl horder)
    · rw [hresult] at h
      cases h
    · rw [hresult]
  · have hresult : getRecordRangeFrom startEnv endEnv cfg ctx startTime endTime startIndex endIndex
        position = (.ok (recordRange first last ctx.size), position) :=
      getRecordRangeFrom_ok (hcall position)
    constructor
    · intro h
      obtain ⟨_, _, hs, he, -⟩ := h.assigned _ (by rw [hresult])
      exact Or.inr ⟨noFailure_of_located hs, noFailure_of_located he⟩
    · intro h
      obtain ⟨hs, he⟩ := h.resolve_left horder
      refine ⟨fun hfails => ?_, fun range hrange => ?_, by rw [hresult]⟩
      · have hno := not_or.mpr ⟨not_not.mpr hs, not_not.mpr he⟩
        exact absurd hfails (by rwa [fails_iff, fails_iff])
      · rw [hresult] at hrange
        exact ⟨first, last, hfirst hs, hlast he, (Except.ok.inj hrange).symm⟩

/-- A read of a slot returns its record or fails, and does not move the position. -/
lemma adlReadFrom_cases (env : ReadEnv) (ctx : DiskloopContext n) (point : ReadPoint)
    (index : ℤ) :
    (∃ r, Returns (adlReadFrom env ctx point index) r) ∨
      ∃ err, ∀ position, adlReadFrom env ctx point index position = .error err position := by
  unfold adlReadFrom
  generalize (if index < 0 then ctx.index else index) = i
  by_cases hcap : i ≥ ctx.capacity
  · exact Or.inr ⟨_, fun p => by simp only [if_pos hcap]; rfl⟩
  by_cases hseek : i * n < 0
  · exact Or.inr ⟨_, fun p => by simp only [if_neg hcap, if_pos hseek]; rfl⟩
  simp only [if_neg hcap, if_neg hseek, Returns, get_bind_apply, set_bind_apply]
  cases (if env point i.toNat then Blocks.read n ctx.loopFp.data i.toNat else none) with
  | none => exact Or.inr ⟨_, fun p => rfl⟩
  | some r => exact Or.inl ⟨r, fun p => rfl⟩

/-- The read of the record at an index fails. -/
def RecordFails (env : ReadEnv) (ctx : DiskloopContext n) (index : ℤ) : Prop :=
  Fails (adlReadFrom env ctx .record index)

lemma readLastFrom_eq {index found : ℤ} {position : ℕ}
    (h : adlLocateIndexFrom env cfg ctx maxTime .beforeInclusive index position
      = ((none, found), position)) :
    readLastFrom env cfg ctx index position = adlReadFrom env ctx .record found position := by
  simp only [readLastFrom, h]

lemma readLastReports_iff (index : ℤ) (position : ℕ) :
    ReadLastReports env cfg ctx index position ↔
      NoFailure env cfg ctx maxTime .beforeInclusive ∨ RecordFails env ctx index := by
  by_cases hok : NoFailure env cfg ctx maxTime .beforeInclusive
  · obtain ⟨found, hfound, hcall⟩ := adlLocateIndexFrom_of_noFailure hok
    have hread := readLastFrom_eq (hcall index position)
    refine iff_of_true ⟨fun hfails => absurd hok (fails_iff.mp hfails), fun r position' hr => ?_⟩
      (Or.inl hok)
    rw [hread] at hr
    rcases adlReadFrom_cases env ctx .record found with ⟨a, ha⟩ | ⟨err, herr⟩
    · rw [ha position] at hr
      cases hr
      exact ⟨rfl, found, hfound, ha position⟩
    · rw [herr position] at hr
      cases hr
  · have hread := readLastFrom_eq (adlLocateIndexFrom_of_failure hok index position)
    rcases adlReadFrom_cases env ctx .record index with ⟨a, ha⟩ | ⟨err, herr⟩
    · refine iff_of_false (fun h => ?_) (not_or.mpr ⟨hok, fun hfails => ?_⟩)
      · obtain ⟨err, herr⟩ := h.error (fails_iff.mpr hok)
        rw [hread, ha position] at herr
        cases herr
      · obtain ⟨err, position', herr⟩ := hfails position
        rw [ha position] at herr
        cases herr
    · refine iff_of_true ⟨fun _ => ⟨err, hread.trans (herr position)⟩, fun r position' hr => ?_⟩
        (Or.inr fun p => ⟨err, p, herr p⟩)
      rw [hread, herr position] at hr
      cases hr

/-! ### The headers of a span report -/

/-- The header of a slot lies in the file, and the file system returns it. -/
def HeaderReads (env : ReadEnv) (ctx : DiskloopContext n) (index : ℤ) : Prop :=
  Readable ctx index ∧ env .header index.toNat = true

/-- All headers of the slots from 0 on. -/
def HeadersRead (env : ReadEnv) (ctx : DiskloopContext n) : Prop :=
  ∀ slot : ℕ, (slot : ℤ) < max ctx.size 1 → HeaderReads env ctx slot

lemma readHeaderFrom_of_reads {index : ℤ} (h : HeaderReads env ctx index) :
    readHeaderFrom env cfg ctx index = .ok (slotHeader cfg ctx index) := by
  rw [readHeaderFrom, if_pos (Or.inr h.2), readHeader_of_readable cfg h.1]

lemma readHeaderFrom_of_not {index : ℤ} (h : ¬ HeaderReads env ctx index) :
    ∃ err, readHeaderFrom env cfg ctx index = .error err := by
  unfold readHeaderFrom
  split_ifs with hread
  · refine readHeader_of_not_readable cfg fun hreadable => h ⟨hreadable, ?_⟩
    exact hread.resolve_left (not_lt.mpr hreadable.1)
  · exact ⟨_, rfl⟩

/-- From slot 0 the loop comes to the slots below the size only. -/
lemma nextSlot_iterate_zero (size : ℤ) (k : ℕ) :
    ∃ slot : ℕ, (nextSlot size)^[k] 0 = slot ∧ (slot : ℤ) < max size 1 := by
  induction k with
  | zero => exact ⟨0, rfl, by simp⟩
  | succ k ih =>
    obtain ⟨slot, hslot, hlt⟩ := ih
    rw [Function.iterate_succ_apply', hslot, nextSlot]
    split_ifs with hwrap
    · exact ⟨0, rfl, by simp⟩
    · exact ⟨slot + 1, by push_cast; rfl, lt_max_of_lt_left (by push_cast; linarith)⟩

lemma nextSlot_iterate_zero_eq {size : ℤ} {k : ℕ} (hk : (k : ℤ) < max size 1) :
    (nextSlot size)^[k] 0 = k := by
  induction k with
  | zero => rfl
  | succ k ih =>
    push_cast at hk ⊢
    have hsize : (k : ℤ) + 1 < size := by
      rcases lt_max_iff.mp hk with h | h
      · exact h
      · linarith [Int.natCast_nonneg k]
    rw [Function.iterate_succ_apply', ih (lt_max_of_lt_left (by linarith)), nextSlot,
      if_neg (not_le.mpr hsize)]

/-- The report from slot 0 fails exactly when the header of a slot cannot be read. -/
lemma rangeSpans_zero_cases (env : ReadEnv) (cfg : Config n) (ctx : DiskloopContext n) :
    (HeadersRead env ctx ∧ ∀ fuel err,
        rangeSpans (readHeaderFrom env cfg ctx) cfg.plat.longBits ctx.size 0 0 fuel
          ≠ .error err) ∨
      (¬ HeadersRead env ctx ∧ ∃ d err, ∀ fuel,
        rangeSpans (readHeaderFrom env cfg ctx) cfg.plat.longBits ctx.size 0 0 fuel
          = if d < fuel then .error err else .ok none) := by
  classical
  by_cases hall : HeadersRead env ctx
  · refine Or.inl ⟨hall, fun fuel err herr => ?_⟩
    refine spanRun_no_error cfg (s := spanInit 0) (fun k => ?_) fuel err
      ((rangeSpans_error_iff _ 0 0 fuel err).mp herr)
    obtain ⟨slot, hslot, hlt⟩ := nextSlot_iterate_zero ctx.size k
    show readHeaderFrom env cfg ctx ((nextSlot ctx.size)^[k] 0)
      = .ok (slotHeader cfg ctx ((nextSlot ctx.size)^[k] 0))
    rw [hslot]
    exact readHeaderFrom_of_reads (hall slot hlt)
  · have hex : ∃ slot : ℕ, (slot : ℤ) < max ctx.size 1 ∧ ¬ HeaderReads env ctx slot := by
      simpa [HeadersRead] using hall
    obtain ⟨hlt, hno⟩ := Nat.find_spec hex
    set d := Nat.find hex
    have hslot : ∀ k ≤ d, (nextSlot ctx.size)^[k] 0 = k := fun k hk =>
      nextSlot_iterate_zero_eq (lt_of_le_of_lt (by exact_mod_cast hk) hlt)
    obtain ⟨err, herr⟩ := @readHeaderFrom_of_not n env cfg ctx _ hno
    have hread : ∀ k < d, readHeaderFrom env cfg ctx ((nextSlot ctx.size)^[k] 0)
        = .ok (slotHeader cfg ctx ((nextSlot ctx.size)^[k] 0)) := by
      intro k hk
      have hbefore := Nat.find_min hex hk
      rw [hslot k hk.le]
      refine readHeaderFrom_of_reads ?_
      by_contra hnot
      exact hbefore ⟨lt_trans (by exact_mod_cast hk) hlt, hnot⟩
    have hend : ∀ k, 0 < k → k ≤ d → (nextSlot ctx.size)^[k] 0 ≠ spanEnd ctx.size 0 0 := by
      intro k hk hkd
      rw [hslot k hkd, spanEnd, if_neg (not_not.mpr rfl)]
      exact_mod_cast hk.ne'
    have hfail : readHeaderFrom env cfg ctx ((nextSlot ctx.size)^[d] 0) = .error err := by
      rw [hslot d le_rfl, herr]
    refine Or.inr ⟨hall, d, err, fun fuel => ?_⟩
    rw [rangeSpans, spanRun_stuck cfg (s := spanInit 0) hread hend hfail fuel]
    split_ifs <;> rfl

lemma dumpSpansFrom_eq {found : ℤ} {position : ℕ}
    (h : adlLocateIndexFrom env cfg ctx minTime .afterInclusive 0 position
      = ((none, found), position)) (fuel : ℕ) :
    dumpSpansFrom env cfg ctx position fuel
      = (rangeSpans (readHeaderFrom env cfg ctx) cfg.plat.longBits ctx.size found found fuel,
        position) := by
  simp only [dumpSpansFrom, h]

lemma dumpSpansReports_iff (position : ℕ) :
    DumpSpansReports env cfg ctx position ↔
      NoFailure env cfg ctx minTime .afterInclusive ∨ ¬ HeadersRead env ctx := by
  by_cases hok : NoFailure env cfg ctx minTime .afterInclusive
  · obtain ⟨found, hfound, hcall⟩ := adlLocateIndexFrom_of_noFailure hok
    have hdump := dumpSpansFrom_eq (hcall 0 position)
    refine iff_of_true ⟨fun hfails => absurd hok (fails_iff.mp hfails), fun fuel report h => ?_,
      fun fuel => by rw [hdump]⟩ (Or.inl hok)
    exact ⟨found, hfound, by rwa [hdump] at h⟩
  · have hdump := dumpSpansFrom_eq (adlLocateIndexFrom_of_failure hok 0 position)
    rcases rangeSpans_zero_cases env cfg ctx with ⟨hall, hno⟩ | ⟨hnot, d, err, herr⟩
    · refine iff_of_false (fun h => ?_) (not_or.mpr ⟨hok, not_not.mpr hall⟩)
      obtain ⟨fuel, err, herr⟩ := h.error (fails_iff.mpr hok)
      rw [hdump] at herr
      exact hno fuel err herr
    · refine iff_of_true ⟨fun _ => ⟨d + 1, err, ?_⟩, fun fuel report h => ?_,
        fun fuel => by rw [hdump]⟩ (Or.inr hnot)
      · rw [hdump]
        exact (herr (d + 1)).trans (if_pos (Nat.lt_succ_self d))
      · rw [hdump] at h
        have hnone := (herr fuel).symm.trans h
        split_ifs at hnone
        cases hnone

end Callers

/-! ### The condition -/

/-- Each layer reports the errors of its searches exactly when there is none to report, or where
something else stops it: a range that ends before it starts, or a record or header that cannot be
read at the index that was not set. -/
theorem search_reports_iff (env startEnv endEnv : ReadEnv) (cfg : Config n)
    (ctx : DiskloopContext n) (time startTime endTime : StdTime2) (whence : Whence)
    (inclusive : Bool) (index startIndex endIndex : ℤ) (position : ℕ) :
    (LocateReports env cfg ctx time whence index position ↔
        NoFailure env cfg ctx time whence) ∧
      (RangeReports startEnv endEnv cfg ctx startTime endTime inclusive startIndex endIndex
          position ↔ RangeSearched startEnv endEnv cfg ctx startTime endTime inclusive) ∧
      (RecordRangeReports startEnv endEnv cfg ctx startTime endTime startIndex endIndex position ↔
        RangeSearched startEnv endEnv cfg ctx startTime endTime true) ∧
      (ReadLastReports env cfg ctx index position ↔
        NoFailure env cfg ctx maxTime .beforeInclusive ∨ RecordFails env ctx index) ∧
      (DumpSpansReports env cfg ctx position ↔
        NoFailure env cfg ctx minTime .afterInclusive ∨ ¬ HeadersRead env ctx) :=
  ⟨locateReports_iff index position, rangeReports_iff inclusive startIndex endIndex position,
    recordRangeReports_iff startIndex endIndex position, readLastReports_iff index position,
    dumpSpansReports_iff position⟩

/-- In a loop of three records where the first one cannot be read, the search reports nothing. -/
theorem search_reports_not :
    ¬ LocateReports (fun point _ => point ≠ .first) hostConfig threeRecords minTime
      .afterInclusive 7 0 := by
  rw [locateReports_iff]
  intro h
  have hlen : threeRecords.loopFp.data.length = 3 * 512 := Blocks.length_layout _
  have hfirst : (ReadPoint.first, 0) ∈ searchReads hostConfig threeRecords minTime := by
    rw [searchReads, if_neg (by rw [hlen]; decide)]
    exact List.mem_cons_self
  simpa using (h.1 _ hfirst).2.2

end StationProcessor
