import StationProcessor.Falcon.FilePolls
import StationProcessor.Falcon.ResumeTimes

/-!
# Restarts of falcon

`GetLastTimeCSV` and the polling loop of `main`. The one resume time that is read back from the disk
loop is used for all channels, and only in the first poll.
-/

namespace StationProcessor

/-! ### The polling loop -/

/-- The number of the channel in a message. -/
def messageChannel (data : Bytes) : ℕ := BigEndian.decode ((data.drop 10).take 2)

/-- The end of the last message of a channel, 0 where there is none. -/
def lastEnd (number : UInt16) (calls : List OpaqueCall) : ℕ :=
  ((calls.filter (messageChannel ·.data = number.toNat)).getLast?.map (endTimeOf ·.data)).getD 0

/-- The buffer of a file, with its rows. -/
def entry (name : CString) (context : List CsvHistory) : CsvHistory :=
  (context.find? (·.buffer.fileName = some name)).getD ⟨csvBufferInit name, [], []⟩

/-- The end time that the first message or fragment in a record shows. -/
def recordTime (record : Bytes) : ℕ :=
  (((recordParts record).bind List.head?).map fun part => fragmentTime false part.data).getD 0

section Entry

variable {name : CString} {context context' : List CsvHistory} {fuel : ℕ}

end Entry

/-! ### The resume time -/

section Time

variable {recordSize free : ℕ} {idstring : CString} {record : Bytes} {stored : List Stored}
  {calls : List OpaqueCall}

/-- A record of messages or with a fragment of one. -/
def ReadsTime (recordSize : ℕ) (idstring : CString) (record : Bytes) : Prop :=
  ∃ s, StoredAs recordSize idstring record s ∧
    ∀ first more, s = .whole first more → IsMessage false first.data

lemma ReadsTime.timeOf (h : ReadsTime recordSize idstring record)
    (hfree : 10 ≤ freeSpace recordSize idstring) :
    timeOf false record = some (recordTime record) := by
  obtain ⟨s, hstored, hmessage⟩ := h
  cases s with
  | whole first more =>
    have hfirst := hmessage first more rfl
    have htime : recordTime record = endTimeOf first.data := by
      rw [recordTime, hstored.recordParts]
      exact hfirst.headerTime_eq List.prefix_rfl hfirst.length _
    rw [hstored.timeOf_whole hfirst, htime]
  | fragment call i =>
    rw [hstored.timeOf_fragment hfree, recordTime, hstored.recordParts]
    rfl

end Time

end StationProcessor
