import StationProcessor.Archd.Seedmsg
import StationProcessor.Diskloop.Resize
import StationProcessor.Diskloop.Transfer
import StationProcessor.Netseed.DirRequest

/-!
# RMS requests

`process_rmsreq` of `aslreq.c`, which searches the log records of a range for the RMS values of a
channel. Its variable `iEmpty` is never set, nor is the memory of `log_msg` behind the first text.
-/

namespace StationProcessor

open Decimal

/-- `ST_TimeComp2`. -/
def stTimeComp2 (a b : StdTime2) : ℤ :=
  if a.year > b.year then 1
  else if a.year < b.year then -1
  else if a.day > b.day then 1
  else if a.day < b.day then -1
  else if a.hour > b.hour then 1
  else if a.hour < b.hour then -1
  else if a.minute > b.minute then 1
  else if a.minute < b.minute then -1
  else if a.second > b.second then 1
  else if a.second < b.second then -1
  else if a.tenthMsec > b.tenthMsec then 1
  else if a.tenthMsec < b.tenthMsec then -1
  else 0

/-- `sscanf` of numbers, each with a character in front of it, when it stores all of them. White
space in the format matches any, which a number skips by itself. -/
def scanAllNumbers (plat : Platform) : Bytes → Bytes → Option (List ℤ)
  | [], _ => some []
  | c :: format, s => do
    let s ← if c = 32 then some s else if s.head? = some c then some s.tail else none
    let (m, rest) ← scanInt s
    let ms ← scanAllNumbers plat format rest
    return intOfScan plat m :: ms

/-- The values of an `int`. -/
def FitsInt (x : ℤ) : Prop := -2 ^ 31 ≤ x ∧ x < 2 ^ 31

instance (x : ℤ) : Decidable (FitsInt x) := inferInstanceAs (Decidable (_ ∧ _))

/-! ### The lines of a record -/

/-- An RMS request, with the limits that `process__request` sets to the number of samples. What is
sent for a line is printed from three numbers with `%lf` and `%.3lf`, unless there are fewer. -/
structure RmsRequest where
  plat : Platform
  loc : Bytes
  chan : Bytes
  tBeginTime : StdTime2
  iSamples : ℕ
  iSamples_pos : 0 < iSamples
  iSamples_le : iSamples ≤ 5000000
  bufFilename : Bytes
  printRms : Bytes → Option Bytes

/-- The variables that the scan of a record changes: `iSample`, the memory from `log_msg` on, and
what was sent. -/
structure RmsText where
  iSample : ℕ
  logMsg : Bytes
  sent : List Bytes

/-- The start of the next line. -/
def nextLine (msgptr : Bytes) : Bytes :=
  let msgptr := msgptr.dropWhile fun b => b != 0 && b != 10
  if msgptr.head? = some 10 then msgptr.tail else msgptr

/-- `iStart` of a record. -/
def textStart {n : ℕ} (r : Record n) : ℕ := min (firstDataByte r) 128

/-- `log_msg` after the text of a record was copied to it. -/
def copyText {n : ℕ} (r : Record n) (logMsg : Bytes) : Bytes :=
  let iCount := min (samplesInRecord r) (n - textStart r - 1)
  let text := cString ((r.toList.drop (textStart r)).take iCount)
  text.rightpad iCount 0 ++ 0 :: logMsg.drop (iCount + 1)

/-- The record fits `str_record`, and its text starts inside the record. -/
def FitsBuffers {n : ℕ} (r : Record n) : Prop := n ≤ 8192 ∧ textStart r < n

instance {n : ℕ} (r : Record n) : Decidable (FitsBuffers r) := inferInstanceAs (Decidable (_ ∧ _))

namespace RmsRequest

variable (req : RmsRequest)

/-- `rms_time` of the text from the time of a line on. -/
def rmsTime (text : Bytes) : StdTime2 :=
  match scanAllNumbers req.plat (ascii " -- ::") (cString text) with
  | some [year, month, dom, hour, minute, second] =>
    stAddToTime2 (Netseed.stCnvJulToStd2 (julday2 year month dom)) 0 hour minute second 0
  | _ => ⟨0, 0, 0, 0, 0, 0⟩

/-- What is sent for a line. -/
def lineValue (msgptr : Bytes) : Option Bytes :=
  if strncmpEqual msgptr (ascii "\x7b125\x7d") 5 ∧ strncmpEqual (msgptr.drop 27) req.loc 2 ∧
      strncmpEqual (msgptr.drop 30) req.chan 3 ∧
      stTimeComp2 (req.rmsTime (msgptr.drop 6)) req.tBeginTime ≥ 0 then
    req.printRms (cString (msgptr.drop 34))
  else none

/-- The loop over the lines of a record, which moves on by a byte or more in each step. -/
def scanLines : ℕ → Bytes → RmsText → RmsText
  | 0, _, t => t
  | fuel + 1, msgptr, t =>
    if msgptr.headD 0 ≠ 0 ∧ t.iSample < req.iSamples then
      scanLines fuel (nextLine msgptr) (match req.lineValue msgptr with
        | some line => { t with iSample := t.iSample + 1, sent := t.sent ++ [line] }
        | none => t)
    else t

/-- The scan of a record. -/
def scanRecord {n : ℕ} (r : Record n) (t : RmsText) : RmsText :=
  let logMsg := copyText r t.logMsg
  req.scanLines logMsg.length logMsg { t with logMsg }

end RmsRequest

/-! ### The loop over the records -/

/-- A record that was read, and `iSample` before it. -/
structure RmsVisit where
  slot : ℕ
  iSample : ℕ
deriving DecidableEq

structure RmsState where
  iTry : ℕ
  text : RmsText
  visited : List RmsVisit

/-- How a request ends; in the last case with an operation that C leaves undefined. -/
inductive RmsEnd
  | rangeError
  | noRecords
  | notOpened
  | notSought
  | notRead
  | finished
  | undefined
deriving DecidableEq

structure RmsResult where
  stop : RmsEnd
  state : RmsState

/-- The end with a message. -/
def RmsState.send (s : RmsState) (stop : RmsEnd) (message : Bytes) : RmsResult :=
  ⟨stop, { s with text.sent := s.text.sent ++ [message] }⟩

namespace RmsRequest

variable (req : RmsRequest) {n : ℕ}

/-- The sums of a turn of the loop are defined. -/
def SumsFit (range : RecordRange) (iEmpty : ℤ) (iTry : ℕ) : Prop :=
  FitsInt (iTry + range.iFirst) ∧ FitsInt (iTry + range.iFirst + iEmpty) ∧
    FitsInt (iTry + range.iFirst + iEmpty + range.iLoopSize)

instance (range : RecordRange) (iEmpty : ℤ) (iTry : ℕ) : Decidable (SumsFit range iEmpty iTry) :=
  inferInstanceAs (Decidable (_ ∧ _))

/-- The slot before the one that a turn of the loop reads. -/
def slotBefore (range : RecordRange) (iEmpty : ℤ) (iTry : ℕ) : ℤ :=
  (iTry + range.iFirst + iEmpty + range.iLoopSize - 1).tmod range.iLoopSize

/-- `iRecord`. -/
def recordSlot (range : RecordRange) (iEmpty : ℤ) (iTry : ℕ) : ℤ :=
  (iTry + range.iFirst + iEmpty).tmod range.iLoopSize

/-- The body of the loop. -/
def rmsRecord (range : RecordRange) (file : List (Record n)) (iEmpty : ℤ) (s : RmsState) :
    Except RmsResult RmsState :=
  let iRecord := recordSlot range iEmpty s.iTry
  if ¬ FitsInt (iRecord * n) then .error ⟨.undefined, s⟩
  -- the seek to a negative offset fails
  else if iRecord * n < 0 then
    .error (s.send .notSought (ascii "Only found " ++ printInt s.text.iSample ++
      ascii " of requested " ++ printInt req.iSamples ++ ascii " rms samples\n"))
  else
    match file[iRecord.toNat]? with
    | none => .error (s.send .notRead (ascii "Unable to read record " ++ printInt iRecord ++
        ascii " in " ++ req.bufFilename ++ ascii "\n"))
    | some r =>
      if FitsBuffers r then .ok
        { iTry := s.iTry + 1
          text := req.scanRecord r s.text
          visited := s.visited ++ [⟨iRecord.toNat, s.text.iSample⟩] }
      else .error ⟨.undefined, s⟩

/-- The message at the end of the range. -/
def foundMessage (iSample : ℕ) : Bytes :=
  ascii "Error, only found " ++ printInt iSample ++ ascii "/" ++ printInt req.iSamples ++
    ascii " samples.\n"

/-- The loop. -/
def rmsLoop (range : RecordRange) (file : List (Record n)) (iEmpty : ℤ) :
    ℕ → RmsState → Option RmsResult
  | 0, _ => none
  | fuel + 1, s =>
    if s.text.iSample < req.iSamples then
      if ¬ SumsFit range iEmpty s.iTry then some ⟨.undefined, s⟩
      else if slotBefore range iEmpty s.iTry ≠ range.iLast then
        match req.rmsRecord range file iEmpty s with
        | .error result => some result
        | .ok s => rmsLoop range file iEmpty fuel s
      else some (s.send .finished (req.foundMessage s.text.iSample))
    else some ⟨.finished, s⟩

/-- `process_rmsreq`, behind the parsing of the log channel: with the range or the message of
`GetRecordRange`, and the buffer file unless it cannot be opened. -/
def processRmsreq (range : Except Bytes RecordRange) (file : Option (List (Record n)))
    (iEmpty : ℤ) (logMsg : Bytes) (fuel : ℕ) : Option RmsResult :=
  let start : RmsState := ⟨0, ⟨0, logMsg, []⟩, []⟩
  match range with
  | .error message => some (start.send .rangeError (message ++ ascii "\n"))
  | .ok range =>
    if range.iCount < 1 then
      some (start.send .noRecords (ascii "No log records found for given day\n"))
    else
      match file with
      | none => some (start.send .notOpened
          (ascii "Unable to open log file " ++ req.bufFilename ++ ascii "\n"))
      | some file => req.rmsLoop range file iEmpty fuel start

variable {req} {range : RecordRange} {file : List (Record n)} {iEmpty : ℤ} {s : RmsState}
  {result : RmsResult}

/-- A turn of the loop ends the request without a visit, or visits the record it found. -/
lemma rmsRecord_cases (hn : 0 < n) :
    (∃ result, req.rmsRecord range file iEmpty s = .error result ∧ result.stop ≠ .finished ∧
      result.state.visited = s.visited) ∨
    ∃ r slot, recordSlot range iEmpty s.iTry = (slot : ℕ) ∧ file[slot]? = some r ∧
      FitsBuffers r ∧ req.rmsRecord range file iEmpty s = .ok
        ⟨s.iTry + 1, req.scanRecord r s.text, s.visited ++ [⟨slot, s.text.iSample⟩]⟩ := by
  by_cases hfits : FitsInt (recordSlot range iEmpty s.iTry * n)
  · by_cases hneg : recordSlot range iEmpty s.iTry * n < 0
    · simp [rmsRecord, hfits, hneg, RmsState.send]
    · have hslot : 0 ≤ recordSlot range iEmpty s.iTry := by
        have hle : 0 ≤ recordSlot range iEmpty s.iTry * n := not_lt.mp hneg
        exact nonneg_of_mul_nonneg_left hle (Int.natCast_pos.mpr hn)
      obtain ⟨slot, hslot⟩ := Int.eq_ofNat_of_zero_le hslot
      simp only [rmsRecord, hslot] at hfits hneg ⊢
      simp only [hfits, hneg, not_true_eq_false, if_false, Int.toNat_natCast]
      cases hread : file[slot]? with
      | none => simp [RmsState.send]
      | some r =>
        by_cases hbuffers : FitsBuffers r
        · exact Or.inr ⟨r, slot, rfl, hread, hbuffers, by simp [hbuffers]⟩
        · simp [hbuffers]
  · simp [rmsRecord, hfits]

lemma rmsLoop_enough (h : req.iSamples ≤ s.text.iSample) (fuel : ℕ) :
    req.rmsLoop range file iEmpty (fuel + 1) s = some ⟨.finished, s⟩ := by
  rw [rmsLoop, if_neg (not_lt.mpr h)]

lemma rmsLoop_undefined (h : s.text.iSample < req.iSamples)
    (hsums : ¬ SumsFit range iEmpty s.iTry) (fuel : ℕ) :
    req.rmsLoop range file iEmpty (fuel + 1) s = some ⟨.undefined, s⟩ := by
  rw [rmsLoop, if_pos h, if_pos hsums]

lemma rmsLoop_last (h : s.text.iSample < req.iSamples) (hsums : SumsFit range iEmpty s.iTry)
    (hlast : slotBefore range iEmpty s.iTry = range.iLast) (fuel : ℕ) :
    req.rmsLoop range file iEmpty (fuel + 1) s
      = some (s.send .finished (req.foundMessage s.text.iSample)) := by
  rw [rmsLoop, if_pos h, if_neg (not_not.mpr hsums), if_neg (not_not.mpr hlast)]

lemma rmsLoop_turn (h : s.text.iSample < req.iSamples) (hsums : SumsFit range iEmpty s.iTry)
    (hlast : slotBefore range iEmpty s.iTry ≠ range.iLast) (fuel : ℕ) :
    req.rmsLoop range file iEmpty (fuel + 1) s = match req.rmsRecord range file iEmpty s with
      | .error result => some result
      | .ok s => req.rmsLoop range file iEmpty fuel s := by
  rw [rmsLoop, if_pos h, if_neg (not_not.mpr hsums), if_pos hlast]

/-- The records that were visited stay visited. -/
lemma visited_kept (hn : 0 < n) {fuel : ℕ}
    (h : req.rmsLoop range file iEmpty fuel s = some result) :
    s.visited <+: result.state.visited := by
  induction fuel generalizing s with
  | zero => cases h
  | succ fuel ih =>
    rcases le_or_gt req.iSamples s.text.iSample with henough | hmissing
    · rw [rmsLoop_enough henough] at h
      cases h
      exact List.prefix_rfl
    by_cases hsums : SumsFit range iEmpty s.iTry
    · by_cases hlast : slotBefore range iEmpty s.iTry = range.iLast
      · rw [rmsLoop_last hmissing hsums hlast] at h
        cases h
        exact List.prefix_rfl
      · rw [rmsLoop_turn hmissing hsums hlast] at h
        rcases @rmsRecord_cases req n range file iEmpty s hn with
          ⟨result', hrecord, -, hvisited⟩ | ⟨r, slot, -, -, -, hrecord⟩
        · rw [hrecord] at h
          cases h
          rw [hvisited]
        · rw [hrecord] at h
          exact (List.prefix_append _ _).trans (ih h)
    · rw [rmsLoop_undefined hmissing hsums] at h
      cases h
      exact List.prefix_rfl

/-- More fuel does not change a result. -/
lemma rmsLoop_mono {fuel : ℕ} (h : req.rmsLoop range file iEmpty fuel s = some result) (k : ℕ) :
    req.rmsLoop range file iEmpty (fuel + k) s = some result := by
  induction fuel generalizing s with
  | zero => cases h
  | succ fuel ih =>
    rw [Nat.add_right_comm]
    rcases le_or_gt req.iSamples s.text.iSample with henough | hmissing
    · rwa [rmsLoop_enough henough] at h ⊢
    by_cases hsums : SumsFit range iEmpty s.iTry
    · by_cases hlast : slotBefore range iEmpty s.iTry = range.iLast
      · rwa [rmsLoop_last hmissing hsums hlast] at h ⊢
      · rw [rmsLoop_turn hmissing hsums hlast] at h ⊢
        cases hrecord : req.rmsRecord range file iEmpty s with
        | error result' =>
          rw [hrecord] at h
          exact h
        | ok s' =>
          rw [hrecord] at h
          exact ih h
    · rwa [rmsLoop_undefined hmissing hsums] at h ⊢

/-- The scan of lines never takes samples back. -/
lemma iSample_le_scanLines (fuel : ℕ) (msgptr : Bytes) (t : RmsText) :
    t.iSample ≤ (req.scanLines fuel msgptr t).iSample := by
  induction fuel generalizing msgptr t with
  | zero => exact le_rfl
  | succ fuel ih =>
    rw [scanLines]
    split_ifs
    · refine le_trans ?_ (ih _ _)
      cases req.lineValue msgptr <;> simp
    · exact le_rfl

lemma iSample_le_scanRecord (r : Record n) (t : RmsText) :
    t.iSample ≤ (req.scanRecord r t).iSample :=
  @iSample_le_scanLines req _ _ { t with logMsg := copyText r t.logMsg }

end RmsRequest

end StationProcessor
