import StationProcessor.Falcon.FmashDecode

/-!
# Alarms

`alarm_archive` of `falcon/alarm.c` and the part of `falcon/ofadump.c` that prints alarms. Alarms
are collected in a payload until it has more than 400 bytes; the header of the payload is filled in
when the next one is started, or at the end.
-/

namespace StationProcessor

/-! ### Alarms -/

/-- What a payload has of an alarm. -/
structure AlarmContent where
  channel : UInt16
  timestamp : ℤ
  event : UInt8
  description : Bytes
deriving DecidableEq

/-- `alarm_line_t`, as `alarm_filter_lines` makes it: the description is cut to 8 characters, and
the date is one that fits 32 bits. -/
structure AlarmLine where
  text : Bytes
  sent : Bool
  timestamp : ℤ
  channel : UInt16
  event : UInt8
  description : CString
  short : description.val.length ≤ 8
  fits : 0 < timestamp ∧ timestamp < 2 ^ 32
deriving DecidableEq

namespace AlarmLine

def content (a : AlarmLine) : AlarmContent := ⟨a.channel, a.timestamp, a.event, a.description.val⟩

/-- A line that is to be archived. -/
def Pending (a : AlarmLine) : Prop := a.sent = false

instance : DecidablePred Pending := fun a => inferInstanceAs (Decidable (a.sent = false))

end AlarmLine

/-! ### `alarm_archive` -/

/-- `0x8000 | FALCON_VERSION` -/
def alarmVersion : ℕ := 2 ^ 15 + falconVersion

/-- The size of a payload to which no alarm is added. -/
def fullPayload : ℕ := 400

def maxContextAlarms : ℕ := 100

/-- The locals of `alarm_archive`, with the payloads that were queued. -/
structure AlarmArchiver where
  startTime : ℤ
  endTime : ℤ
  count : ℕ
  data : Buffer
  payloads : List Bytes

/-- Fill in the header. -/
def fillAlarmHeader (s : AlarmArchiver) : Bytes :=
  let data := bufferSeek s.data 2
  let data := bufferWrite data (htonl s.startTime)
  let data := bufferWrite data (htonl s.endTime)
  (bufferWrite data (htons s.count)).content

/-- The times with those of an alarm. -/
def addAlarmTime (s : AlarmArchiver) (a : AlarmLine) : AlarmArchiver :=
  let startTime := if s.startTime = 0 then a.timestamp else s.startTime
  let endTime := if s.endTime = 0 then a.timestamp else s.endTime
  { s with
    startTime := if startTime > a.timestamp then a.timestamp else startTime
    endTime := if endTime < a.timestamp then a.timestamp else endTime }

/-- Queue a full payload, before the alarm after it is added. -/
def flushAlarms (s : AlarmArchiver) (a : AlarmLine) : AlarmArchiver :=
  if s.count ≠ 0 ∧ s.data.content.length > fullPayload then
    { startTime := a.timestamp
      endTime := a.timestamp
      count := 0
      data := bufferInit
      payloads := s.payloads ++ [fillAlarmHeader s] }
  else s

/-- Room for the header, in an empty payload. -/
def reserveAlarmHeader (s : AlarmArchiver) : AlarmArchiver :=
  if s.count = 0 then
    let data := bufferWrite s.data (htons alarmVersion)
    let data := bufferWrite data (htonl s.startTime)
    let data := bufferWrite data (htonl s.endTime)
    { s with data := bufferWrite data (htons s.count) }
  else s

/-- Add an alarm. -/
def addAlarm (s : AlarmArchiver) (a : AlarmLine) : AlarmArchiver :=
  let data := bufferWrite s.data (htons a.channel.toNat)
  let data := bufferWrite data (htonl a.timestamp)
  let data := bufferWrite data [a.event]
  let length := UInt8.ofNat a.description.val.length
  let data := bufferWrite data [length]
  let data := bufferWrite data (a.description.val.take length.toNat)
  { s with data := bufferTerminate data, count := s.count + 1 }

/-- One turn of the loop: the locals, and the line, which is sent or not. -/
def archiveAlarm (s : AlarmArchiver) (a : AlarmLine) : AlarmArchiver × AlarmLine :=
  if a.sent then (s, a)
  else
    let s := addAlarmTime s a
    -- the times are changed also for a line that is not added
    if a.description.val = [] then (s, a)
    else (addAlarm (reserveAlarmHeader (flushAlarms s a)) a, { a with sent := true })

/-- The loop over the lines. -/
def archiveAlarms : AlarmArchiver → List AlarmLine → AlarmArchiver × List AlarmLine
  | s, [] => (s, [])
  | s, a :: lines =>
    let (s, a) := archiveAlarm s a
    let (s, lines) := archiveAlarms s lines
    (s, a :: lines)

/-- The locals before the loop. -/
def alarmArchiverInit : AlarmArchiver := ⟨0, 0, 0, bufferInit, []⟩

/-- The last payload, if there are alarms in it. -/
def finishAlarms (s : AlarmArchiver) : List Bytes :=
  if s.count ≠ 0 then s.payloads ++ [fillAlarmHeader s] else s.payloads

/-- `alarm_archive`: the payloads that are queued, and the list, cut to `MAX_CONTEXT_ALARMS` from
its front. -/
def alarmArchive (lines : List AlarmLine) : List Bytes × List AlarmLine :=
  let (s, lines) := archiveAlarms alarmArchiverInit lines
  (finishAlarms s, lines.drop (lines.length - maxContextAlarms))

/-! ### Payloads -/

/-- The bytes of an alarm. -/
def AlarmLine.bytes (a : AlarmLine) : Bytes :=
  htons a.channel.toNat ++ (htonl a.timestamp ++ ([a.event] ++
    ([UInt8.ofNat a.description.val.length] ++ (a.description.val ++ [0]))))

/-- The parts of a payload in their order. -/
def alarmPayload (startTime endTime : ℤ) (count : ℕ) (alarms : List AlarmLine) : Bytes :=
  htons alarmVersion ++ (htonl startTime ++ (htonl endTime ++ (htons count ++
    alarms.flatMap AlarmLine.bytes)))

/-- The alarms that were added since the last payload was queued are in the buffer; the header is
not filled in before it is queued. -/
structure AlarmArchiver.Collects (s : AlarmArchiver) (alarms : List AlarmLine) : Prop where
  count : s.count = alarms.length
  empty : alarms = [] → s.data = bufferInit
  data : alarms ≠ [] → ∃ startTime endTime count,
    s.data = .ofBytes (alarmPayload startTime endTime count alarms)

namespace AlarmArchiver

variable {s : AlarmArchiver} {alarms : List AlarmLine}

lemma collects_init : alarmArchiverInit.Collects [] :=
  ⟨rfl, fun _ => rfl, fun h => absurd rfl h⟩

/-- The payload that is queued. -/
lemma Collects.fillAlarmHeader_eq (h : s.Collects alarms) (hsome : alarms ≠ []) :
    fillAlarmHeader s = alarmPayload s.startTime s.endTime alarms.length alarms := by
  obtain ⟨startTime, endTime, count, hdata⟩ := h.data hsome
  have hseek := Buffer.seek_ofBytes (htons alarmVersion) (htonl startTime ++ (htonl endTime ++
    (htons count ++ alarms.flatMap AlarmLine.bytes))) (length_htons alarmVersion)
  rw [fillAlarmHeader, hdata, alarmPayload, hseek, Buffer.write_between _ _ (by simp),
    Buffer.write_between _ _ (by simp), Buffer.write_between _ _ (by simp), h.count]
  simp [alarmPayload]

lemma Collects.addAlarm (h : s.Collects alarms) (a : AlarmLine) :
    (addAlarm (reserveAlarmHeader s) a).Collects (alarms ++ [a]) := by
  have hlength : (UInt8.ofNat a.description.val.length).toNat = a.description.val.length :=
    UInt8.toNat_ofNat_of_lt' (a.short.trans_lt (by decide))
  have hadd : ∀ s : AlarmArchiver, ∀ bs, s.data = .ofBytes bs →
      (StationProcessor.addAlarm s a).data = .ofBytes (bs ++ a.bytes) := by
    intro s bs hdata
    simp [StationProcessor.addAlarm, hdata, hlength, AlarmLine.bytes]
  refine ⟨?_, fun hnil => by simp at hnil, fun _ => ?_⟩
  · rw [List.length_append, ← h.count]
    unfold reserveAlarmHeader
    split_ifs <;> rfl
  · by_cases hnil : alarms = []
    · have hcount : s.count = 0 := by rw [h.count, hnil, List.length_nil]
      have hdata := h.empty hnil
      subst hnil
      have hheader : (reserveAlarmHeader s).data
          = .ofBytes (alarmPayload s.startTime s.endTime 0 []) := by
        rw [reserveAlarmHeader, if_pos hcount]
        simp [hdata, Buffer.bufferInit_eq, alarmPayload, hcount]
      refine ⟨s.startTime, s.endTime, 0, ?_⟩
      rw [hadd _ _ hheader]
      simp [alarmPayload]
    · obtain ⟨startTime, endTime, count, hdata⟩ := h.data hnil
      have hcount : s.count ≠ 0 := by
        rw [h.count]
        exact fun h0 => hnil (List.length_eq_zero_iff.mp h0)
      refine ⟨startTime, endTime, count, ?_⟩
      rw [reserveAlarmHeader, if_neg hcount, hadd s _ hdata]
      simp [alarmPayload]

end AlarmArchiver

end StationProcessor
