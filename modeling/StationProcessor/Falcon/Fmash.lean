import Mathlib.Data.List.TakeWhile
import StationProcessor.Falcon.Buffer
import StationProcessor.Falcon.RowMap
import StationProcessor.Falcon.Varint
import StationProcessor.Lib.BigEndian

/-!
# The FMash format

`fmash_csv_to_msh` of `falcon/fmash.c` packs up to an hour of the minute rows of a channel into a
message, and `fmash_msh_to_csv` unpacks one. A message has a fixed header, a map with a 3-bit
value for every minute, the description, and varints: the values of the first row, for every later
minute as many changes as its map value says, and the values of the last row.
-/

namespace StationProcessor

/-! ### The rows of a channel -/

/-- `csv_row_t`. -/
structure CsvRow where
  timestamp : ℤ
  average : Int32
  high : Int32
  low : Int32
  empty : Bool
deriving DecidableEq

/-- `csv_header_t`. -/
structure CsvHeader where
  description : CString
  channel : UInt16
deriving DecidableEq

/-- `csv_buffer_t`; `fileName` is `none` where the pointer is null. -/
structure CsvBuffer where
  fileName : Option CString
  header : CsvHeader
  list : List CsvRow
  startTime : ℤ
  endTime : ℤ
deriving DecidableEq

/-- An average, a high and a low. -/
structure Values where
  average : Int32
  high : Int32
  low : Int32
deriving DecidableEq

namespace CsvRow

def values (row : CsvRow) : Values := ⟨row.average, row.high, row.low⟩

end CsvRow

/-! ### `fmash_csv_to_msh` -/

def falconVersion : ℕ := 1
def maxRows : ℕ := 60
def tmMinute : ℤ := 60
def maxDescription : ℕ := 8
def rowMapSize : ℕ := 24

def typeAverage : Fin 4 := 1
def typeHigh : Fin 4 := 2
def typeLow : Fin 4 := 3

/-- `NO_CHANGE`, to which every change adds one. -/
def noChange : UInt8 := 0
def noData : UInt8 := 7

/-- The row map starts after version, start, end, channel and row count. -/
def rowmapOffset : ℕ := 14

/-- `htonl` of a time, whose upper bits are dropped. -/
def htonl (time : ℤ) : Bytes := BigEndian.encode 4 (time % 2 ^ 32).toNat

/-- The locals of `fmash_csv_to_msh`. The times are not set before the first row. -/
structure Encoder where
  buf : Buffer
  list : List CsvRow
  bufferedRow : Option CsvRow
  firstTime : Bool
  startTime : ℤ
  currentTime : ℤ
  last : Values
  rowCount : ℕ

/-- Write a varint that says which of the three values it is about. -/
def writeVarint (buf : Buffer) (type : Fin 4) (integer : Int32) : Buffer :=
  bufferWrite buf (setType (UInt8.ofNat type) (int32ToVarint integer))

/-- Write the three values one after the other. -/
def writeValues (buf : Buffer) (v : Values) : Buffer :=
  writeVarint (writeVarint (writeVarint buf typeAverage v.average) typeHigh v.high) typeLow v.low

/-- Write a change, unless there is none, and count it in `updated_rows`. -/
def writeDelta (s : Buffer × UInt8) (type : Fin 4) (delta : Int32) : Buffer × UInt8 :=
  if delta ≠ 0 then (writeVarint s.1 type delta, s.2 + 1) else s

/-- The last values after a row; a value is updated where its change is written. -/
def lastAfter (last : Values) (row : CsvRow) : Values :=
  if row.empty then last
  else
    { average := if row.average - last.average ≠ 0 then row.average else last.average
      high := if row.high - last.high ≠ 0 then row.high else last.high
      low := if row.low - last.low ≠ 0 then row.low else last.low }

/-- The changes of a row, and its value in the row map. -/
def writeRow (buf : Buffer) (last : Values) (row : CsvRow) : Buffer × UInt8 :=
  if row.empty then (buf, noData)
  else
    writeDelta (writeDelta (writeDelta (buf, noChange)
      typeAverage (row.average - last.average))
      typeHigh (row.high - last.high))
      typeLow (row.low - last.low)

/-- `map_3_set(buf->content + rowmap_offset, i, value)`. -/
def setRowMap (buf : Buffer) (i : ℕ) (value : UInt8) : Buffer where
  content := buf.content.take rowmapOffset ++ map3Set (buf.content.drop rowmapOffset) i value
  offset := buf.offset
  good := by
    rw [List.length_append, length_map3Set, ← List.length_append, List.take_append_drop]
    exact buf.good

/-- The buffered row, or else the next one of the list; the first row of all also gives the first
values. `none` is the `break`. -/
def nextRow (e : Encoder) : Option (CsvRow × Encoder) :=
  match e.bufferedRow with
  | some row => some (row, e)
  | none => match e.list with
    | [] => none
    | row :: rest =>
      if e.firstTime then
        some (row,
          { e with
            buf := writeValues e.buf row.values
            list := rest
            bufferedRow := some row
            firstTime := false
            startTime := row.timestamp
            currentTime := row.timestamp
            last := row.values })
      else some (row, { e with list := rest, bufferedRow := some row })

/-- One turn of the loop over the minutes. -/
def encodeMinute (e : Encoder) (i : ℕ) : Option Encoder :=
  (nextRow e).map fun (row, e) =>
    let e :=
      if e.currentTime = row.timestamp then
        { e with
          buf := setRowMap (writeRow e.buf e.last row).1 i (writeRow e.buf e.last row).2
          bufferedRow := none
          last := lastAfter e.last row }
      else { e with buf := setRowMap e.buf i noData }
    { e with currentTime := e.currentTime + tmMinute, rowCount := e.rowCount + 1 }

/-- The loop from minute `i` on. -/
def encodeLoop : ℕ → ℕ → Encoder → Encoder
  | 0, _, e => e
  | k + 1, i, e => match encodeMinute e i with
    | none => e
    | some e => encodeLoop k (i + 1) e

/-- `description_length`, an 8-bit number. -/
def descriptionLength (description : CString) : UInt8 :=
  let length := UInt8.ofNat description.val.length
  if length < UInt8.ofNat maxDescription then length else UInt8.ofNat maxDescription

/-- The buffer before the loop: room for the header, and the description. -/
def reserveHeader (csv : CsvBuffer) : Buffer :=
  let buf := bufferWrite bufferInit (htons falconVersion)
  let buf := bufferWrite buf (htonl 0)
  let buf := bufferWrite buf (htonl 0)
  let buf := bufferWrite buf (htons falconVersion)
  let buf := bufferWrite buf (htons falconVersion)
  let buf := bufferWrite buf (List.replicate rowMapSize 0)
  let length := descriptionLength csv.header.description
  let buf := bufferWrite buf [length]
  let buf := bufferWrite buf (csv.header.description.val.take length.toNat)
  bufferTerminate buf

/-- Fill in the header. -/
def writeHeader (buf : Buffer) (startTime endTime : ℤ) (channel rowCount : ℕ) : Buffer :=
  let buf := bufferSeek buf 2
  let buf := bufferWrite buf (htonl startTime)
  let buf := bufferWrite buf (htonl endTime)
  let buf := bufferWrite buf (htons channel)
  bufferWrite buf (htons rowCount)

/-- The start time of a buffer whose rows were encoded: that of the next row, or the end. -/
def nextStart (endTime : ℤ) : List CsvRow → ℤ
  | [] => endTime
  | row :: _ => row.timestamp

/-- What follows the loop: the row that did not fit goes back to the list, the last values and the
header are written. -/
def encodeEnd (csv : CsvBuffer) (e : Encoder) : Bytes × CsvBuffer :=
  let endTime := e.currentTime - tmMinute
  let list := e.bufferedRow.toList ++ e.list
  let buf := writeHeader (writeValues e.buf e.last) e.startTime endTime
    csv.header.channel.toNat e.rowCount
  (buf.content, { csv with list := list, startTime := nextStart endTime list })

/-- The locals before the loop. -/
def encodeStart (csv : CsvBuffer) : Encoder where
  buf := reserveHeader csv
  list := csv.list
  bufferedRow := none
  firstTime := true
  startTime := 0
  currentTime := 0
  last := ⟨0, 0, 0⟩
  rowCount := 0

/-- `fmash_csv_to_msh`: the message, and the buffer without the rows in it. `none` is the empty
list, for which the code uses times it never set. -/
def fmashCsvToMsh (csv : CsvBuffer) : Option (Bytes × CsvBuffer) :=
  let e := encodeLoop maxRows 0 (encodeStart csv)
  if e.firstTime then none else some (encodeEnd csv e)

/-! ### `fmash_msh_to_csv` -/

/-- Why a message is not unpacked. `overrun` is not the code's: it would read behind the message
or write behind the description. -/
inductive MshError where
  | tooNew
  | mismatchedAverage
  | mismatchedHigh
  | mismatchedLow
  | overrun
deriving DecidableEq

/-- The next bytes of a message and what follows them. -/
def readBytes (count : ℕ) (p : Bytes) : Except MshError (Bytes × Bytes) :=
  if p.length < count then .error .overrun else .ok (p.take count, p.drop count)

/-- The next varint and what follows it. -/
def readVarint (p : Bytes) : Except MshError (Int32 × Bytes) :=
  match varintToInt32 p with
  | none => .error .overrun
  | some (integer, bytes) => .ok (integer, p.drop bytes)

/-- Three varints. -/
def readValues (p : Bytes) : Except MshError (Values × Bytes) := do
  let (average, p) ← readVarint p
  let (high, p) ← readVarint p
  let (low, p) ← readVarint p
  return (⟨average, high, low⟩, p)

/-- One change: which of the last values it is about is in the two low bits of its first byte.
Without any, nothing is read. -/
def readDelta (s : Values × Bytes) : Except MshError (Values × Bytes) :=
  match s with
  | (_, []) => .error .overrun
  | (last, b :: p) => do
    if b &&& 0x3 = UInt8.ofNat typeAverage then
      let (delta, p) ← readVarint (b :: p)
      return ({ last with average := last.average + delta }, p)
    else if b &&& 0x3 = UInt8.ofNat typeHigh then
      let (delta, p) ← readVarint (b :: p)
      return ({ last with high := last.high + delta }, p)
    else if b &&& 0x3 = UInt8.ofNat typeLow then
      let (delta, p) ← readVarint (b :: p)
      return ({ last with low := last.low + delta }, p)
    else return (last, b :: p)

/-- The changes of a row. -/
def readDeltas : ℕ → Values × Bytes → Except MshError (Values × Bytes)
  | 0, s => .ok s
  | k + 1, s => do readDeltas k (← readDelta s)

/-- The locals of `fmash_msh_to_csv`. -/
structure Decoder where
  currentTime : ℤ
  last : Values
  p : Bytes
  list : List CsvRow
deriving DecidableEq

/-- The last values as a row. -/
def CsvRow.ofValues (timestamp : ℤ) (v : Values) : CsvRow :=
  { timestamp := timestamp, average := v.average, high := v.high, low := v.low, empty := false }

/-- One turn of the loop: a row for no change and for up to three of them, none for any other value
of the map. -/
def decodeMinute (rowmap : Bytes) (d : Decoder) (i : ℕ) : Except MshError Decoder := do
  let map := map3Get rowmap i
  let d ←
    if map ≤ 3 then do
      let (last, p) ← readDeltas map.toNat (d.last, d.p)
      pure { d with last := last, p := p, list := d.list ++ [.ofValues d.currentTime last] }
    else pure d
  return { d with currentTime := d.currentTime + tmMinute }

/-- The loop from minute `i` on. -/
def decodeLoop (rowmap : Bytes) : ℕ → ℕ → Decoder → Except MshError Decoder
  | 0, _, d => .ok d
  | k + 1, i, d => do decodeLoop rowmap k (i + 1) (← decodeMinute rowmap d i)

/-- `strncpy` of the description into `MAX_DESCRIPTION + 1` zeroed bytes. -/
def readDescription (p : Bytes) : Except MshError (CString × Bytes) := do
  let (length, p) ← readBytes 1 p
  let count := BigEndian.decode length
  let (text, p) ← readBytes count p
  if maxDescription + 1 < count ∨ count = maxDescription + 1 ∧ (0 : UInt8) ∉ text then
    .error .overrun
  else return (⟨cString text, fun h => by simpa using List.mem_takeWhile_imp h⟩, p.drop 1)

/-- `fmash_msh_to_csv`. -/
def fmashMshToCsv (rawMsh : Bytes) : Except MshError CsvBuffer := do
  let (version, p) ← readBytes 2 rawMsh
  if falconVersion < BigEndian.decode version % 2 ^ 15 then .error .tooNew
  else
    let (startTime, p) ← readBytes 4 p
    let (endTime, p) ← readBytes 4 p
    let (channel, p) ← readBytes 2 p
    let (rowCount, rowmap) ← readBytes 2 p
    let (_, p) ← readBytes rowMapSize rowmap
    let (description, p) ← readDescription p
    let (first, p) ← readValues p
    let d ← decodeLoop rowmap (BigEndian.decode rowCount) 0
      { currentTime := BigEndian.decode startTime, last := first, p := p, list := [] }
    let (final, _) ← readValues d.p
    if final.average ≠ d.last.average then .error .mismatchedAverage
    else if final.high ≠ d.last.high then .error .mismatchedHigh
    else if final.low ≠ d.last.low then .error .mismatchedLow
    else
      .ok
        { fileName := none
          header := ⟨description, UInt16.ofNat (BigEndian.decode channel)⟩
          list := d.list
          startTime := BigEndian.decode startTime
          endTime := BigEndian.decode endTime }

end StationProcessor
