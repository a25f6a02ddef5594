import StationProcessor.Diskloop.Append
import StationProcessor.Diskloop.Search

/-!
# Opening a disk loop

`adl_open` and the calls that open a loop before they use it. Opening creates missing files,
takes index and capacity from the index file, corrects the index by the length of the loop
file or, on a full loop, by comparing two records, and reads the newest record. The processes
run with the permissions to open and create their files.
-/

namespace StationProcessor

open Decimal

variable {n : ℕ}

/-- What `adl_open` derives from a station, location and channel: the file names, and the
result of `NumChanRecords`. -/
structure Channel where
  loopName : String
  indexName : String
  numChanRecords : Except String ℤ

/-- A channel whose loop holds `capacity` records. -/
def sampleChannel (capacity : ℤ) : Channel := ⟨"BHZ.buf", "BHZ.idx", .ok capacity⟩

/-! ### The files of a channel -/

/-- `NewBuffer`: truncate both files and write an index file without a current record. -/
def newBuffer (ch : Channel) : Option String × ChannelFiles :=
  match ch.numChanRecords with
  | .error err => (some err, ⟨some [], some []⟩)
  | .ok iMaxRecord => (none, ⟨some [], some (indexImage (-1) iMaxRecord)⟩)

/-- Start a new set of files where the loop file, and then where the index file is missing. -/
def ensureFiles (ch : Channel) (files : ChannelFiles) : Option String × ChannelFiles :=
  match (if files.buf.isNone then newBuffer ch else (none, files)) with
  | (some err, files) => (some err, files)
  | (none, files) => if files.idx.isNone then newBuffer ch else (none, files)

/-- The `int` a `%d` stores. -/
def intOfScan (plat : Platform) (m : ℤ) : ℤ :=
  if -2 ^ 31 ≤ m ∧ m < 2 ^ 31 then m else plat.scanHuge m

lemma intOfScan_of_fits {m : ℤ} (h0 : -1 ≤ m) (h : m < 2147483648) (plat : Platform) :
    intOfScan plat m = m := by
  rw [intOfScan, if_pos (by omega)]

/-- `sscanf(.., "%d %d", ..)`. -/
def scanPair (plat : Platform) (s : Bytes) : Option (ℤ × ℤ) := do
  let (flip, rest) ← scanInt (cString s)
  let (max, _) ← scanInt rest
  return (intOfScan plat flip, intOfScan plat max)

/-- `ParseIndexInfo`: the index and the capacity of the first line, or of the third where the
first two agree in neither. -/
def parseIndexInfo (plat : Platform) (idx : Bytes) : Except String (ℤ × ℤ) :=
  let indexbuf := idx.take 93
  if indexbuf.length ≠ 93 then .error "ParseIndexInfo:  Index data file size != 93 chars"
  else match scanPair plat indexbuf with
    | none => .error "ParseIndexInfo: format error in index file line 1"
    | some (flip1, max1) =>
      match scanPair plat (indexbuf.drop 31) with
      | none => .error "ParseIndexInfo: format error in index file line 2"
      | some (flip2, max2) =>
        if flip1 = flip2 ∨ max1 = max2 then .ok (flip1, max1)
        else match scanPair plat (indexbuf.drop 62) with
          | none => .error "ParseIndexInfo: format error in index file line 3"
          | some (flip3, max3) => .ok (flip3, max3)

/-! ### Finding the current record -/

def DiskloopContext.setPosition (ctx : DiskloopContext n) (size index : ℤ) : DiskloopContext n :=
  { ctx with size := size, index := index }

/-- Whether the start of a record is earlier than the start in the buffer `temp_B`. -/
def startsBefore (cfg : Config n) (r : Record n) (tempB : Bytes) : Bool :=
  stDeltaToMs2 cfg.plat.longBits (stDiffTimes2 (parseSeedHeader cfg.plat r.toList).recStart
    (parseSeedHeader cfg.plat tempB).recStart) < 0

/-- The check of a full loop: read the record of the index file and the one after it, and look
for the newest record where the second is newer. Both reads go to `temp_A`; `temp_B`, which the
comparison uses, is an uninitialised buffer of the stack. -/
def recoverIndex (cfg : Config n) (ctx : DiskloopContext n) (tempB : Bytes) :
    Except String (DiskloopContext n) :=
  let tmpIndex := if ctx.index ≥ ctx.capacity then 0 else ctx.index
  match adlRead ctx tmpIndex with
  | .error _ => .error ("adl_open: could not read newest record for " ++ ctx.indexName)
  | .ok tempA =>
    let tmpIndex := if tmpIndex + 1 ≥ ctx.capacity then 0 else tmpIndex + 1
    match adlRead ctx tmpIndex with
    | .error _ => .error ("adl_open: could read following record for " ++ ctx.indexName)
    | .ok _ =>
      if startsBefore cfg tempA tempB then
        .ok (ctx.setPosition ctx.size (adlNewestIndex cfg ctx ctx.index).2)
      else .ok ctx

/-- Size and index of a loop that is not full come from the length of its file. -/
def locateCurrent (cfg : Config n) (ctx : DiskloopContext n) (tempB : Bytes) :
    Except String (DiskloopContext n) :=
  let records : ℤ := ctx.loopFp.data.length / n
  if records < ctx.capacity then .ok (ctx.setPosition records (records - 1))
  else if ctx.index ≥ 0 then recoverIndex cfg ctx tempB
  else .ok ctx

/-- Fill the `last_record_*` fields. The seek to the record that follows in the source has the
offset this read has just reached. -/
def loadLast (cfg : Config n) (ctx : DiskloopContext n) : Except String (DiskloopContext n) :=
  match adlRead ctx ctx.index with
  | .error _ => .error ("adl_open: could not read newest record for " ++ ctx.indexName)
  | .ok temp => .ok (ctx.setLast (parseSeedHeader cfg.plat temp.toList))

/-- The context `calloc` gave, with names, streams, index and capacity set. -/
def rawContext (ch : Channel) (buf idx : Bytes) (index capacity : ℤ) : DiskloopContext n where
  loopName := ch.loopName
  indexName := ch.indexName
  loopFp := Stream.ofFile buf
  indexFp := Stream.ofFile idx
  capacity := capacity
  size := capacity
  index := index
  hasWritten := false
  lastRecordSeqnum := 0
  lastRecordSamples := 0
  lastRecordStart := ⟨0, 0, 0, 0, 0, 0⟩
  lastRecordEnd := ⟨0, 0, 0, 0, 0, 0⟩
  lastFlush := ⟨0, 0⟩
  lastIndex := ⟨0, 0⟩

/-- The creation of a context on existing files. -/
def openContext (cfg : Config n) (ch : Channel) (buf idx tempB : Bytes) :
    Except String (DiskloopContext n) :=
  match parseIndexInfo cfg.plat idx with
  | .error _ => .error ("adl_open: Index file format error in " ++ ch.indexName)
  | .ok (index, capacity) =>
    if index < -1 ∨ index ≥ capacity then
      .error ("adl_open: Invalid index -1 <= " ++ toString index ++ " < " ++ toString capacity
        ++ " in " ++ ch.indexName)
    else
      (locateCurrent cfg (rawContext ch buf idx index capacity) tempB).bind (loadLast cfg)

/-- `adl_open`, given the context the map holds for the channel, its files, and the bytes that
happen to be in `temp_B`; with the files as it leaves them. -/
def adlOpen (cfg : Config n) (ch : Channel) (cached : Option (DiskloopContext n))
    (files : ChannelFiles) (tempB : Bytes) : Except String (DiskloopContext n) × ChannelFiles :=
  if cfg.parseState = 0 then (.error "adl_open: ParseDiskLoopConfig not run yet", files)
  else match cached with
    | some ctx => (.ok ctx, files)
    | none =>
      match ensureFiles ch files with
      | (some err, files) => (.error err, files)
      | (none, files) =>
        (openContext cfg ch (files.buf.getD []) (files.idx.getD []) tempB, files)

/-! ### Calls that open first -/

/-- `WriteChan`: its result, the context the map then holds, and the files. -/
def writeChan (cfg : Config n) (ch : Channel) (cached : Option (DiskloopContext n))
    (files : ChannelFiles) (tempB : Bytes) (env : WriteEnv) (databuf : Record n) :
    Option String × Option (DiskloopContext n) × ChannelFiles :=
  match adlOpen cfg ch cached files tempB with
  | (.error err, files) => (some err, cached, files)
  | (.ok ctx, files) =>
    let (result, ctx) := adlWrite cfg env ctx (-1) databuf
    (result, some ctx, files)

section IndexInfo

variable {index capacity : ℤ}

lemma cString_of_ne_zero {s : Bytes} (h : ∀ b ∈ s, b ≠ 0) : cString s = s := by
  exact cString_of_notMem fun hmem => h 0 hmem rfl

/-- The text of an index line fits its 30 characters. -/
lemma length_printInt_le {a : ℤ} (h0 : -1 ≤ a) (h : a < 2147483648) : (printInt a).length ≤ 11 := by
  have hlen := length_natToDecimal_le (n := a.natAbs) (k := 10) (by norm_num)
    (lt_of_le_of_lt (show a.natAbs ≤ 2147483648 by omega) (by norm_num))
  unfold printInt
  split_ifs
  · rw [List.length_cons]
    omega
  · omega

lemma printInt_ne_zero (a : ℤ) : ∀ b ∈ printInt a, b ≠ 0 := by
  intro b hb hzero
  subst hzero
  have hdigit : (0 : UInt8) ∉ natToDecimal a.natAbs := fun h => by
    have := isDigit_of_mem_natToDecimal h
    simp [isDigit] at this
  unfold printInt at hb
  split_ifs at hb
  · rcases List.mem_cons.mp hb with h | h
    · exact absurd h (by decide)
    · exact hdigit h
  · exact hdigit hb

/-- An index line, spelled out. -/
lemma indexLine_eq (h1 : (printInt index).length ≤ 11) (h2 : (printInt capacity).length ≤ 11) :
    ∃ k, indexLine index capacity
      = printInt index ++ 32 :: (printInt capacity ++ (List.replicate k 32 ++ [10])) := by
  refine ⟨30 - (printInt index ++ 32 :: printInt capacity).length, ?_⟩
  have htake : (printInt index ++ 32 :: printInt capacity).take 30
      = printInt index ++ 32 :: printInt capacity := by
    apply List.take_of_length_le
    rw [List.length_append, List.length_cons]
    omega
  rw [indexLine, htake, List.rightpad]
  simp only [List.append_assoc, List.cons_append]

lemma indexLine_ne_zero (index capacity : ℤ) (h1 : (printInt index).length ≤ 11)
    (h2 : (printInt capacity).length ≤ 11) : ∀ b ∈ indexLine index capacity, b ≠ 0 := by
  obtain ⟨k, hline⟩ := indexLine_eq h1 h2
  rw [hline]
  intro b hb
  simp only [List.mem_append, List.mem_cons, List.mem_replicate, List.not_mem_nil,
    or_false] at hb
  rcases hb with h | rfl | h | ⟨-, rfl⟩ | rfl
  · exact printInt_ne_zero index b h
  · decide
  · exact printInt_ne_zero capacity b h
  · decide
  · decide

/-- A line that starts an index buffer is scanned back. -/
lemma scanPair_indexLine (plat : Platform) (h0 : -1 ≤ index) (hindex : index < 2147483648)
    (hcap0 : -1 ≤ capacity) (hcap : capacity < 2147483648) {rest : Bytes}
    (hrest : ∀ b ∈ rest, b ≠ 0) :
    scanPair plat (indexLine index capacity ++ rest) = some (index, capacity) := by
  have h1 := length_printInt_le h0 hindex
  have h2 := length_printInt_le hcap0 hcap
  have hc : cString (indexLine index capacity ++ rest) = indexLine index capacity ++ rest :=
    cString_of_ne_zero fun b hb => (List.mem_append.mp hb).elim
      (indexLine_ne_zero index capacity h1 h2 b) (hrest b)
  obtain ⟨k, hline⟩ := indexLine_eq h1 h2
  have hfirst : scanInt (indexLine index capacity ++ rest) = some (index,
      32 :: (printInt capacity ++ (List.replicate k 32 ++ [10]) ++ rest)) := by
    have := scanInt_printInt [] (32 :: (printInt capacity
      ++ (List.replicate k 32 ++ [10]) ++ rest)) (by simp) (by simp [NoDigit]; decide) index
    rw [hline]
    simpa using this
  have hnext : NoDigit (List.replicate k 32 ++ [10] ++ rest) := by
    cases k with
    | zero => simp [NoDigit]; decide
    | succ k => simp [NoDigit, List.replicate_succ]; decide
  have hsecond : scanInt (32 :: (printInt capacity ++ (List.replicate k 32 ++ [10]) ++ rest))
      = some (capacity, List.replicate k 32 ++ [10] ++ rest) := by
    have := scanInt_printInt [32] (List.replicate k 32 ++ [10] ++ rest)
      (by simp; decide) hnext capacity
    simpa using this
  rw [scanPair, hc, hfirst]
  simp only [bind, Option.bind, hsecond, pure, intOfScan_of_fits h0 hindex,
    intOfScan_of_fits hcap0 hcap]

/-- Two numbers printed into an index file are read back. -/
lemma parseIndexInfo_of_fits (plat : Platform) (h0 : -1 ≤ index) (hindex : index < 2147483648)
    (hcap0 : -1 ≤ capacity) (hcap : capacity < 2147483648) (tail : Bytes) :
    parseIndexInfo plat (indexImage index capacity ++ tail) = .ok (index, capacity) := by
  have h1 := length_printInt_le h0 hindex
  have h2 := length_printInt_le hcap0 hcap
  have hne := indexLine_ne_zero index capacity h1 h2
  have htake : (indexImage index capacity ++ tail).take 93 = indexImage index capacity :=
    Blocks.take_append_of_length (length_indexImage _ _)
  have hdrop : (indexImage index capacity).drop 31
      = indexLine index capacity ++ indexLine index capacity := by
    rw [indexImage, List.append_assoc,
      Blocks.drop_append_of_length (length_indexLine index capacity)]
  have hpair : scanPair plat (indexImage index capacity) = some (index, capacity) := by
    rw [indexImage, List.append_assoc]
    refine scanPair_indexLine plat h0 hindex hcap0 hcap fun b hb => ?_
    rcases List.mem_append.mp hb with h | h
    · exact hne b h
    · exact hne b h
  unfold parseIndexInfo
  simp only [htake, length_indexImage, ne_eq, not_true_eq_false, if_false, hpair, hdrop,
    scanPair_indexLine plat h0 hindex hcap0 hcap hne, true_or, if_true]

/-- `ParseIndexInfo` reads what `NewBuffer` and `adl_write_index` write. -/
lemma parseIndexInfo_indexImage (plat : Platform) (h0 : -1 ≤ index) (hlt : index < capacity)
    (hcap : capacity < 2147483648) :
    parseIndexInfo plat (indexImage index capacity) = .ok (index, capacity) := by
  have hread := parseIndexInfo_of_fits plat h0 (hlt.trans hcap) (h0.trans hlt.le) hcap []
  rwa [List.append_nil] at hread

end IndexInfo

end StationProcessor
