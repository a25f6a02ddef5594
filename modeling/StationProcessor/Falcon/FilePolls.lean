import StationProcessor.Falcon.CsvRuns

/-!
# Files polled again

What `csv_parse_file` accepts of a file that is polled after a restart: the first poll has a resume
time, the later ones have none. The readings that the polls show are a log; a file is the log so
far, perhaps without its first lines.
-/

namespace StationProcessor

/-! ### Lines in order -/

section Sorted

variable {log : List CsvLine} {line : CsvLine} {n count : ℕ}

end Sorted

/-! ### One poll -/

/-- `csv_parse_file` gets to the lines of the file. -/
def CsvFile.Valid (file : CsvFile) : Prop := file.channel.isSome ∧ file.description.isSome

namespace CsvHistory

variable {h h' : CsvHistory} {file : CsvFile}

/-- What archiving leaves as it was. -/
structure Keeps (h h' : CsvHistory) : Prop where
  accepted : h'.accepted = h.accepted
  endTime : h'.buffer.endTime = h.buffer.endTime
  fileName : h'.buffer.fileName = h.buffer.fileName

end CsvHistory

/-- The readings after the message are those after the resume time, if the first poll finds one; if
it finds none, there is no message, or no other poll and nothing new. -/
def ResumesRight (resumeTime endTime : ℕ) (log : List CsvLine) : List CsvFile → Prop
  | [] => True
  | file :: files =>
    if ∃ line ∈ file.lines, (resumeTime : ℤ) < line.timestamp then
      ∀ line ∈ log, (resumeTime : ℤ) < line.timestamp ↔ (endTime : ℤ) < line.timestamp
    else if files = [] then ∀ line ∈ file.lines, ¬ (endTime : ℤ) < line.timestamp
    else endTime = 0

/-! ### What the polls accept -/

namespace CsvHistory

variable {h h' : CsvHistory} {log : List CsvLine} {file : CsvFile} {files : List CsvFile}
  {fuel since count : ℕ}

end CsvHistory

end StationProcessor
