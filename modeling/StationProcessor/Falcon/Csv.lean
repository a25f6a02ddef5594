import StationProcessor.Falcon.FmashDecode

/-!
# From csv files to messages

`csv_parse_file`, `csv_archive` and the part of `csv_poll` that keeps a buffer for every file, of
`falcon/csv.c`. A file is given by what the regular expressions find in it. Rows are collected in
the buffer of their file, and go out in messages as soon as they span an hour.
-/

namespace StationProcessor

/-! ### Files -/

/-- A line of readings. The date has two digits for the year, and no seconds: `mktime` makes a
whole minute of it that fits 32 bits. -/
structure CsvLine where
  timestamp : ℤ
  average : Int32
  high : Int32
  low : Int32
  whole : tmMinute ∣ timestamp
  fits : 0 < timestamp ∧ timestamp < 2 ^ 32

/-- A file: its channel and description, where the patterns for them match, and its lines. -/
structure CsvFile where
  channel : Option UInt16
  description : Option CString
  lines : List CsvLine

def CsvLine.row (line : CsvLine) : CsvRow :=
  { timestamp := line.timestamp, average := line.average, high := line.high, low := line.low,
    empty := false }

/-- Whether a line is newer than what the buffer holds and than the time of the last run. -/
def accepts (csvBuffer : CsvBuffer) (initialTime : ℤ) (line : CsvLine) : Bool :=
  csvBuffer.endTime < line.timestamp ∧ (initialTime = 0 ∨ line.timestamp > initialTime)

/-- One turn of the loop of `csv_parse_file`. -/
def addLine (initialTime : ℤ) (csvBuffer : CsvBuffer) (line : CsvLine) : CsvBuffer :=
  if accepts csvBuffer initialTime line then
    { csvBuffer with
      startTime := if csvBuffer.startTime = 0 then line.timestamp else csvBuffer.startTime
      list := csvBuffer.list ++ [line.row]
      endTime := line.timestamp }
  else csvBuffer

/-- `csv_parse_file`. -/
def csvParseFile (csvBuffer : CsvBuffer) (file : CsvFile) (initialTime : ℤ) : Bool × CsvBuffer :=
  match file.channel with
  | none => (false, csvBuffer)
  | some channel =>
    let csvBuffer := { csvBuffer with header.channel := channel }
    match file.description with
    | none => (false, csvBuffer)
    | some description =>
      (true, file.lines.foldl (addLine initialTime)
        { csvBuffer with header.description := description })

/-! ### Archiving -/

def tmHour : ℤ := 3600

/-- The first turns of the inner loop of `csv_archive`, fewer where it ends: the messages, and what
is left of the buffer. `none` is a list without rows. -/
def archiveTurns : ℕ → CsvBuffer → Option (List Bytes × CsvBuffer)
  | 0, csvBuffer => some ([], csvBuffer)
  | turns + 1, csvBuffer =>
    if csvBuffer.endTime - csvBuffer.startTime ≥ tmHour then do
      let (msh, csvBuffer) ← fmashCsvToMsh csvBuffer
      let (messages, csvBuffer) ← archiveTurns turns csvBuffer
      return (msh :: messages, csvBuffer)
    else some ([], csvBuffer)

/-- The inner loop of `csv_archive`; `none` where `fuel` turns do not end it. -/
def csvArchiveLoop (fuel : ℕ) (csvBuffer : CsvBuffer) : Option (List Bytes × CsvBuffer) := do
  let (messages, csvBuffer) ← archiveTurns fuel csvBuffer
  if csvBuffer.endTime - csvBuffer.startTime ≥ tmHour then none
  else return (messages, csvBuffer)

/-- `csv_buffer_init`. The description is a null pointer in the code until a file is parsed. -/
def csvBufferInit (fileName : CString) : CsvBuffer where
  fileName := some fileName
  header := ⟨⟨[], zero_notMem_nil⟩, 0⟩
  list := []
  startTime := 0
  endTime := 0

/-! ### Runs -/

/-- A buffer with the rows that were ever accepted into it and its messages. -/
structure CsvHistory where
  buffer : CsvBuffer
  accepted : List CsvRow
  messages : List Bytes

/-- `csv_parse_file` on the buffer of the file. -/
def CsvHistory.parse (h : CsvHistory) (file : CsvFile) (initialTime : ℤ) : CsvHistory :=
  let buffer := (csvParseFile h.buffer file initialTime).2
  { h with buffer := buffer, accepted := h.accepted ++ buffer.list.drop h.buffer.list.length }

/-- Messages go out and leave a buffer. -/
def CsvHistory.send (h : CsvHistory) (sent : List Bytes × CsvBuffer) : CsvHistory :=
  { h with buffer := sent.2, messages := h.messages ++ sent.1 }

/-- The inner loop of `csv_archive` on the buffer. -/
def CsvHistory.archive (fuel : ℕ) (h : CsvHistory) : Option CsvHistory :=
  (csvArchiveLoop fuel h.buffer).map h.send

/-- `csv_archive`: the inner loop on every buffer. -/
def csvArchive (fuel : ℕ) (context : List CsvHistory) : Option (List CsvHistory) :=
  context.mapM (CsvHistory.archive fuel)

/-- The calls on a csv context; `parse` is the body of the loop of `csv_poll`. -/
inductive CsvCall where
  | parse (fileName : CString) (file : CsvFile) (initialTime : ℤ)
  | archive

/-- The buffer of a file is found by the name of the file, or added. -/
def parseInContext (fileName : CString) (file : CsvFile) (initialTime : ℤ) :
    List CsvHistory → List CsvHistory
  | [] => [CsvHistory.parse ⟨csvBufferInit fileName, [], []⟩ file initialTime]
  | h :: context =>
    if h.buffer.fileName = some fileName then h.parse file initialTime :: context
    else h :: parseInContext fileName file initialTime context

def csvStep (fuel : ℕ) (context : List CsvHistory) : CsvCall → Option (List CsvHistory)
  | .parse fileName file initialTime => some (parseInContext fileName file initialTime context)
  | .archive => csvArchive fuel context

/-- A run, from the empty context on. -/
def csvRun (fuel : ℕ) (calls : List CsvCall) : Option (List CsvHistory) :=
  calls.foldlM (csvStep fuel) []

end StationProcessor
