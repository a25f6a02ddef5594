import Mathlib.Order.Bounds.Basic
import StationProcessor.Falcon.Alarm

/-!
# Archived alarms

What `ofadump` reads from the payloads of `alarm_archive`. The alarms come out as they went in; the
times in a header also take in the alarm that did not fit.
-/

namespace StationProcessor

/-! ### The alarms of a message -/

/-- The fields of an alarm payload, and what is behind the last alarm. -/
structure AlarmMessage where
  startTime : ℤ
  endTime : ℤ
  count : ℕ
  alarms : List AlarmContent
  rest : Bytes
deriving DecidableEq

/-- The next alarm and what follows it. -/
def readAlarm (p : Bytes) : Except MshError (AlarmContent × Bytes) := do
  let (channel, p) ← readBytes 2 p
  let (timestamp, p) ← readBytes 4 p
  let (event, p) ← readBytes 1 p
  let (length, p) ← readBytes 1 p
  let count := BigEndian.decode length
  let (text, p) ← readBytes count p
  if 8 < count then .error .overrun
  else
    return (⟨UInt16.ofNat (BigEndian.decode channel), BigEndian.decode timestamp, event.headD 0,
      cString text⟩, p.drop 1)

/-- The loop over the alarms. -/
def readAlarms : ℕ → Bytes → Except MshError (List AlarmContent × Bytes)
  | 0, p => .ok ([], p)
  | k + 1, p => do
    let (alarm, p) ← readAlarm p
    let (alarms, p) ← readAlarms k p
    return (alarm :: alarms, p)

/-- The alarms of a complete message; `none` are minute rows. The program does not print the
times. -/
def readAlarmMessage (msh : Bytes) : Except MshError (Option AlarmMessage) := do
  let (version, p) ← readBytes 2 msh
  if falconVersion < BigEndian.decode version % 2 ^ 15 then .error .tooNew
  else if BigEndian.decode version < 2 ^ 15 then .ok none
  else
    let (startTime, p) ← readBytes 4 p
    let (endTime, p) ← readBytes 4 p
    let (count, p) ← readBytes 2 p
    let (alarms, rest) ← readAlarms (BigEndian.decode count) p
    return some ⟨BigEndian.decode startTime, BigEndian.decode endTime, BigEndian.decode count,
      alarms, rest⟩

section Read

variable {alarms : List AlarmLine}

lemma readAlarm_bytes (a : AlarmLine) (rest : Bytes) :
    readAlarm (a.bytes ++ rest) = .ok (a.content, rest) := by
  have hchannel : a.channel.toNat < 65536 := a.channel.toNat_lt
  have hlength : (UInt8.ofNat a.description.val.length).toNat = a.description.val.length :=
    UInt8.toNat_ofNat_of_lt' (a.short.trans_lt (by decide))
  have hcount : BigEndian.decode [UInt8.ofNat a.description.val.length]
      = a.description.val.length := by simp [BigEndian.decode, hlength]
  have htime : (BigEndian.decode (htonl a.timestamp) : ℤ) = a.timestamp :=
    decode_htonl a.fits.1.le a.fits.2
  have hone : ∀ b : UInt8, [b].length = 1 := fun _ => rfl
  have hshort : ¬ 8 < a.description.val.length := not_lt.mpr a.short
  simp only [readAlarm, AlarmLine.bytes, List.append_assoc, bind, Except.bind,
    readBytes_append (length_htons _), readBytes_append (length_htonl _), readBytes_append (hone _),
    hcount, readBytes_append rfl, if_neg hshort, decode_htons hchannel, htime, cString_val]
  simp [AlarmLine.content, pure, Except.pure]

lemma readAlarms_bytes (alarms : List AlarmLine) (rest : Bytes) :
    readAlarms alarms.length (alarms.flatMap AlarmLine.bytes ++ rest)
      = .ok (alarms.map AlarmLine.content, rest) := by
  induction alarms with
  | nil => rfl
  | cons a alarms ih =>
    rw [List.flatMap_cons, List.append_assoc, List.length_cons, readAlarms, readAlarm_bytes]
    simp only [bind, Except.bind, ih, pure, Except.pure, List.map_cons]

/-- A payload is read back. -/
lemma readAlarmMessage_payload {startTime endTime : ℤ} (hstart : 0 ≤ startTime ∧ startTime < 2 ^ 32)
    (hend : 0 ≤ endTime ∧ endTime < 2 ^ 32) (hcount : alarms.length < 65536) :
    readAlarmMessage (alarmPayload startTime endTime alarms.length alarms)
      = .ok (some ⟨startTime, endTime, alarms.length, alarms.map AlarmLine.content, []⟩) := by
  have hversion : BigEndian.decode (htons alarmVersion) = alarmVersion := decode_htons (by decide)
  have hread := readAlarms_bytes alarms []
  rw [List.append_nil] at hread
  simp only [readAlarmMessage, alarmPayload, bind, Except.bind, readBytes_append (length_htons _),
    readBytes_append (length_htonl _), hversion, decode_htons hcount, hread,
    decode_htonl hstart.1 hstart.2, decode_htonl hend.1 hend.2]
  rfl

end Read

/-! ### What archiving promises -/

/-- The timestamps of alarms. -/
def alarmTimes (alarms : List AlarmContent) : Set ℤ := {t | ∃ a ∈ alarms, a.timestamp = t}

/-- The header of a message describes its alarms, and nothing is left behind them. -/
structure AlarmMessage.Describes (m : AlarmMessage) : Prop where
  count : m.count = m.alarms.length
  startTime : IsLeast (alarmTimes m.alarms) m.startTime
  endTime : IsGreatest (alarmTimes m.alarms) m.endTime
  rest : m.rest = []

/-- The messages in payloads. -/
def ReadsAlarms (payloads : List Bytes) (messages : List AlarmMessage) : Prop :=
  payloads.mapM readAlarmMessage = .ok (messages.map some)

/-- The alarms of these lines are in the payloads: each once, in their order, none in two parts, and
under headers that describe them. -/
def ArchivesRight (lines : List AlarmLine) (payloads : List Bytes) : Prop :=
  ∃ messages, ReadsAlarms payloads messages ∧
    messages.flatMap AlarmMessage.alarms = lines.map AlarmLine.content ∧
    ∀ m ∈ messages, m.Describes

/-- Whether no alarm is added to a payload. -/
def AlarmsFull (alarms : List AlarmLine) : Prop :=
  alarms ≠ [] ∧ fullPayload < 12 + (alarms.flatMap AlarmLine.bytes).length

instance (alarms : List AlarmLine) : Decidable (AlarmsFull alarms) :=
  inferInstanceAs (Decidable (_ ∧ _))

/-- The first alarm that is not added to a full payload is neither older nor newer than all those in
it. -/
def TimesFit : List AlarmLine → List AlarmLine → Prop
  | _, [] => True
  | alarms, a :: lines =>
    if AlarmsFull alarms then
      ((∃ b ∈ alarms, b.timestamp ≤ a.timestamp) ∧ ∃ b ∈ alarms, a.timestamp ≤ b.timestamp) ∧
        TimesFit [a] lines
    else TimesFit (alarms ++ [a]) lines

/-- All lines that are to be archived have a description, and the times fit. -/
def ArchiveFits (lines : List AlarmLine) : Prop :=
  (∀ a ∈ lines.filter AlarmLine.Pending, a.description.val ≠ []) ∧
    TimesFit [] (lines.filter AlarmLine.Pending)

/-! ### One line -/

namespace AlarmArchiver

variable {s : AlarmArchiver} {alarms : List AlarmLine} {a : AlarmLine}

/-- The times are those of the alarms in the buffer. -/
structure Spans (s : AlarmArchiver) (alarms : List AlarmLine) : Prop where
  none : alarms = [] → s.startTime = 0 ∧ s.endTime = 0
  startTime : alarms ≠ [] → IsLeast (alarmTimes (alarms.map AlarmLine.content)) s.startTime
  endTime : alarms ≠ [] → IsGreatest (alarmTimes (alarms.map AlarmLine.content)) s.endTime

/-- The times are 0 or those of alarms. -/
structure Timed (s : AlarmArchiver) : Prop where
  startTime : 0 ≤ s.startTime ∧ s.startTime < 2 ^ 32
  endTime : 0 ≤ s.endTime ∧ s.endTime < 2 ^ 32

lemma timed_init : alarmArchiverInit.Timed := ⟨by decide, by decide⟩

lemma spans_init : alarmArchiverInit.Spans [] :=
  ⟨fun _ => ⟨rfl, rfl⟩, fun h => absurd rfl h, fun h => absurd rfl h⟩

lemma Timed.addAlarmTime (h : s.Timed) (a : AlarmLine) : (addAlarmTime s a).Timed := by
  obtain ⟨⟨hs, hs'⟩, ⟨he, he'⟩⟩ := h
  obtain ⟨ha, ha'⟩ := a.fits
  constructor
  · simp only [StationProcessor.addAlarmTime]
    split_ifs <;> omega
  · simp only [StationProcessor.addAlarmTime]
    split_ifs <;> omega

lemma mem_alarmTimes {t : ℤ} :
    t ∈ alarmTimes (alarms.map AlarmLine.content) ↔ ∃ a ∈ alarms, a.timestamp = t := by
  simp [alarmTimes, AlarmLine.content]

lemma alarmTimes_append (alarms : List AlarmLine) (a : AlarmLine) :
    alarmTimes ((alarms ++ [a]).map AlarmLine.content)
      = insert a.timestamp (alarmTimes (alarms.map AlarmLine.content)) := by
  ext t
  rw [Set.mem_insert_iff, mem_alarmTimes, mem_alarmTimes]
  simp [or_and_right, exists_or, or_comm, eq_comm]

/-- The times after an alarm is taken in. -/
lemma Spans.times_eq (h : s.Spans alarms) (hsome : alarms ≠ []) (a : AlarmLine) :
    (StationProcessor.addAlarmTime s a).startTime = min a.timestamp s.startTime ∧
      (StationProcessor.addAlarmTime s a).endTime = max a.timestamp s.endTime := by
  have hpos : ∀ {t}, t ∈ alarmTimes (alarms.map AlarmLine.content) → t ≠ 0 := by
    intro t ht
    obtain ⟨b, -, rfl⟩ := mem_alarmTimes.mp ht
    exact b.fits.1.ne'
  have hs := hpos (h.startTime hsome).1
  have he := hpos (h.endTime hsome).1
  simp only [StationProcessor.addAlarmTime, if_neg hs, if_neg he]
  constructor
  · split_ifs <;> omega
  · split_ifs <;> omega

lemma Spans.addAlarmTime (h : s.Spans alarms) (a : AlarmLine) :
    (StationProcessor.addAlarmTime s a).Spans (alarms ++ [a]) := by
  by_cases hnil : alarms = []
  · obtain ⟨hs, he⟩ := h.none hnil
    have htime : (StationProcessor.addAlarmTime s a).startTime = a.timestamp ∧
        (StationProcessor.addAlarmTime s a).endTime = a.timestamp := by
      simp [StationProcessor.addAlarmTime, hs, he]
    have honly : alarmTimes ((alarms ++ [a]).map AlarmLine.content) = {a.timestamp} := by
      rw [alarmTimes_append, hnil]
      simp [alarmTimes]
    refine ⟨fun h => by simp at h, fun _ => ?_, fun _ => ?_⟩
    · rw [honly, htime.1]
      exact isLeast_singleton
    · rw [honly, htime.2]
      exact isGreatest_singleton
  · obtain ⟨hs, he⟩ := h.times_eq hnil a
    refine ⟨fun h => by simp at h, fun _ => ?_, fun _ => ?_⟩
    · rw [alarmTimes_append, hs]
      exact (h.startTime hnil).insert a.timestamp
    · rw [alarmTimes_append, he]
      exact (h.endTime hnil).insert a.timestamp

/-- The times with an alarm that is not among the others are still theirs when it is not older or
newer than all of them. -/
lemma Spans.describes_iff (h : s.Spans alarms) (hsome : alarms ≠ []) (a : AlarmLine) :
    (IsLeast (alarmTimes (alarms.map AlarmLine.content))
        (StationProcessor.addAlarmTime s a).startTime ∧
      IsGreatest (alarmTimes (alarms.map AlarmLine.content))
        (StationProcessor.addAlarmTime s a).endTime) ↔
      (∃ b ∈ alarms, b.timestamp ≤ a.timestamp) ∧ ∃ b ∈ alarms, a.timestamp ≤ b.timestamp := by
  obtain ⟨hs, he⟩ := h.times_eq hsome a
  obtain ⟨hsmem, hsleast⟩ := h.startTime hsome
  obtain ⟨hemem, hegreatest⟩ := h.endTime hsome
  rw [hs, he]
  constructor
  · rintro ⟨⟨hmin, -⟩, ⟨hmax, -⟩⟩
    obtain ⟨b, hb, hbt⟩ := mem_alarmTimes.mp hmin
    obtain ⟨b', hb', hbt'⟩ := mem_alarmTimes.mp hmax
    exact ⟨⟨b, hb, hbt.le.trans (min_le_left _ _)⟩, ⟨b', hb', hbt'.ge.trans' (le_max_left _ _)⟩⟩
  · rintro ⟨⟨b, hb, hbt⟩, ⟨b', hb', hbt'⟩⟩
    have hsb : s.startTime ≤ a.timestamp := (hsleast (mem_alarmTimes.mpr ⟨b, hb, rfl⟩)).trans hbt
    have heb : a.timestamp ≤ s.endTime :=
      hbt'.trans (hegreatest (mem_alarmTimes.mpr ⟨b', hb', rfl⟩))
    rw [min_eq_right hsb, max_eq_right heb]
    exact ⟨⟨hsmem, hsleast⟩, ⟨hemem, hegreatest⟩⟩

/-! ### One line -/

lemma length_bytes_ge (alarms : List AlarmLine) :
    9 * alarms.length ≤ (alarms.flatMap AlarmLine.bytes).length := by
  induction alarms with
  | nil => exact Nat.zero_le _
  | cons a alarms ih =>
    have hbytes : a.bytes.length = 9 + a.description.val.length := by
      simp only [AlarmLine.bytes, List.length_append, length_htons, length_htonl, List.length_cons,
        List.length_nil]
      ring
    rw [List.flatMap_cons, List.length_append, List.length_cons, hbytes]
    omega

lemma Collects.addAlarmTime (h : s.Collects alarms) (a : AlarmLine) :
    (StationProcessor.addAlarmTime s a).Collects alarms :=
  ⟨h.count, h.empty, h.data⟩

lemma Collects.full_iff (h : s.Collects alarms) :
    s.count ≠ 0 ∧ s.data.content.length > fullPayload ↔ AlarmsFull alarms := by
  by_cases hnil : alarms = []
  · have hcount : s.count = 0 := by rw [h.count, hnil, List.length_nil]
    simp [AlarmsFull, hnil, hcount]
  · obtain ⟨startTime, endTime, count, hdata⟩ := h.data hnil
    have hcount : s.count ≠ 0 := by
      rw [h.count]
      exact fun h0 => hnil (List.length_eq_zero_iff.mp h0)
    have hlength : s.data.content.length = 12 + (alarms.flatMap AlarmLine.bytes).length := by
      simp only [hdata, Buffer.content_ofBytes, alarmPayload, List.length_append, length_htons,
        length_htonl]
      ring
    rw [hlength, AlarmsFull]
    exact and_congr (iff_of_true hcount hnil) Iff.rfl

/-- What a line that is added finds: a full payload, which is queued, or room. -/
lemma Collects.archiveAlarm (h : s.Collects alarms) (hpending : a.sent = false)
    (hdescription : a.description.val ≠ []) :
    (AlarmsFull alarms ∧ ∃ s', (StationProcessor.archiveAlarm s a).1 = s' ∧ s'.Collects [a] ∧
        s'.Spans [a] ∧ s'.Timed ∧ s'.payloads = s.payloads ++ [fillAlarmHeader
          (StationProcessor.addAlarmTime s a)]) ∨
      (¬ AlarmsFull alarms ∧ ∃ s', (StationProcessor.archiveAlarm s a).1 = s' ∧
        s'.Collects (alarms ++ [a]) ∧ s'.payloads = s.payloads ∧
        s'.startTime = (StationProcessor.addAlarmTime s a).startTime ∧
        s'.endTime = (StationProcessor.addAlarmTime s a).endTime) := by
  have htimed := h.addAlarmTime a
  have heq : (StationProcessor.archiveAlarm s a).1 = StationProcessor.addAlarm (reserveAlarmHeader
      (flushAlarms (StationProcessor.addAlarmTime s a) a)) a := by
    simp [StationProcessor.archiveAlarm, hpending, hdescription]
  rw [heq]
  by_cases hfull : AlarmsFull alarms
  · refine Or.inl ⟨hfull, _, rfl, ?_⟩
    rw [flushAlarms, if_pos (htimed.full_iff.mpr hfull)]
    have hnew : AlarmArchiver.Collects ⟨a.timestamp, a.timestamp, 0, bufferInit,
        (StationProcessor.addAlarmTime s a).payloads ++
          [fillAlarmHeader (StationProcessor.addAlarmTime s a)]⟩ [] :=
      ⟨rfl, fun _ => rfl, fun h => absurd rfl h⟩
    have honly : alarmTimes ([a].map AlarmLine.content) = {a.timestamp} := by
      simp [alarmTimes, AlarmLine.content]
    refine ⟨hnew.addAlarm a, ⟨fun h => by simp at h, fun _ => ?_, fun _ => ?_⟩,
      ⟨⟨a.fits.1.le, a.fits.2⟩, ⟨a.fits.1.le, a.fits.2⟩⟩, rfl⟩
    · rw [honly]
      exact isLeast_singleton
    · rw [honly]
      exact isGreatest_singleton
  · refine Or.inr ⟨hfull, _, rfl, ?_⟩
    rw [flushAlarms, if_neg (mt htimed.full_iff.mp hfull)]
    refine ⟨htimed.addAlarm a, ?_⟩
    unfold reserveAlarmHeader
    split_ifs <;> exact ⟨rfl, rfl, rfl⟩

end AlarmArchiver

/-! ### All lines -/

lemma ReadsAlarms.cons {payload : Bytes} {payloads : List Bytes} {m : AlarmMessage}
    {messages : List AlarmMessage} (hm : readAlarmMessage payload = .ok (some m))
    (h : ReadsAlarms payloads messages) : ReadsAlarms (payload :: payloads) (m :: messages) := by
  simp only [ReadsAlarms, List.mapM_cons, hm] at h ⊢
  simp [h, bind, Except.bind, pure, Except.pure]

lemma ReadsAlarms.unique {payloads : List Bytes} {messages messages' : List AlarmMessage}
    (h : ReadsAlarms payloads messages) (h' : ReadsAlarms payloads messages') :
    messages = messages' := by
  have heq := Except.ok.inj (h.symm.trans h')
  exact List.map_injective_iff.mpr (Option.some_injective _) heq

/-- The lines that are added. -/
def AlarmLine.Added (a : AlarmLine) : Prop := a.sent = false ∧ a.description.val ≠ []

instance : DecidablePred AlarmLine.Added := fun _ => inferInstanceAs (Decidable (_ ∧ _))

/-- The messages of the lines that are left. -/
lemma AlarmArchiver.Collects.messages {s : AlarmArchiver} {alarms : List AlarmLine}
    (h : s.Collects alarms) (htimed : s.Timed) (hlength : alarms.length ≤ 44)
    (lines : List AlarmLine) :
    ∃ payloads messages, finishAlarms (archiveAlarms s lines).1 = s.payloads ++ payloads ∧
      ReadsAlarms payloads messages ∧
      messages.flatMap AlarmMessage.alarms
        = (alarms ++ lines.filter AlarmLine.Added).map AlarmLine.content ∧
      (s.Spans alarms → (∀ a ∈ lines.filter AlarmLine.Pending, a.description.val ≠ []) →
        ((∀ m ∈ messages, m.Describes) ↔ TimesFit alarms (lines.filter AlarmLine.Pending))) := by
  induction lines generalizing s alarms with
  | nil =>
    by_cases hnil : alarms = []
    · have hcount : s.count = 0 := by rw [h.count, hnil, List.length_nil]
      refine ⟨[], [], ?_, rfl, by simp [hnil], fun _ _ => iff_of_true (by simp) trivial⟩
      simp [archiveAlarms, finishAlarms, hcount]
    · have hcount : s.count ≠ 0 := by
        rw [h.count]
        exact fun h0 => hnil (List.length_eq_zero_iff.mp h0)
      have hread := readAlarmMessage_payload htimed.startTime htimed.endTime
        (hlength.trans_lt (by norm_num : 44 < 65536))
      rw [← h.fillAlarmHeader_eq hnil] at hread
      have hnone : ReadsAlarms [] [] := rfl
      refine ⟨[fillAlarmHeader s], _, ?_, ReadsAlarms.cons hread hnone, by simp, fun hspans _ => ?_⟩
      · simp [archiveAlarms, finishAlarms, hcount]
      · refine iff_of_true (fun m hm => ?_) trivial
        rw [List.mem_singleton.mp hm]
        exact ⟨by simp, hspans.startTime hnil, hspans.endTime hnil, rfl⟩
  | cons a lines ih =>
    cases hsent : a.sent with
    | true =>
      obtain ⟨payloads, messages, hfinish, hreads, halarms, htimes⟩ := ih h htimed hlength
      have hadded : ¬ a.Added := fun hadded => by simp [AlarmLine.Added, hsent] at hadded
      have hpending : ¬ a.Pending := fun hpending => by simp [AlarmLine.Pending, hsent] at hpending
      rw [List.filter_cons_of_neg (by simpa using hadded),
        List.filter_cons_of_neg (by simpa using hpending)]
      refine ⟨payloads, messages, ?_, hreads, halarms, htimes⟩
      simpa [archiveAlarms, StationProcessor.archiveAlarm, hsent] using hfinish
    | false =>
      have hpending : a.Pending := hsent
      have hkeep : (a :: lines).filter AlarmLine.Pending = a :: lines.filter AlarmLine.Pending :=
        List.filter_cons_of_pos (by simpa using hpending)
      rw [hkeep]
      by_cases hnone : a.description.val = []
      · -- the times are changed, and the line is not added
        obtain ⟨payloads, messages, hfinish, hreads, halarms, -⟩ :=
          ih (h.addAlarmTime a) (htimed.addAlarmTime a) hlength
        have hadded : ¬ a.Added := fun hadded => hadded.2 hnone
        rw [List.filter_cons_of_neg (by simpa using hadded)]
        refine ⟨payloads, messages, ?_, hreads, halarms, fun _ hall => ?_⟩
        · have hturn : (archiveAlarms s (a :: lines)).1
              = (archiveAlarms (StationProcessor.addAlarmTime s a) lines).1 := by
            simp [archiveAlarms, StationProcessor.archiveAlarm, hsent, hnone]
          rw [hturn]
          exact hfinish
        · exact absurd hnone (hall a List.mem_cons_self)
      have hadded : a.Added := ⟨hsent, hnone⟩
      have hkeep' : (a :: lines).filter AlarmLine.Added = a :: lines.filter AlarmLine.Added :=
        List.filter_cons_of_pos (by simpa using hadded)
      rw [hkeep']
      have hnext : (archiveAlarms s (a :: lines)).1
          = (archiveAlarms (StationProcessor.archiveAlarm s a).1 lines).1 := rfl
      have hrest : (∀ b ∈ a :: lines.filter AlarmLine.Pending, b.description.val ≠ []) →
          ∀ b ∈ lines.filter AlarmLine.Pending, b.description.val ≠ [] :=
        fun hall b hb => hall b (List.mem_cons_of_mem a hb)
      rw [hnext]
      have htimed' := htimed.addAlarmTime a
      rcases h.archiveAlarm hsent hnone with
        ⟨hfull, s', hs', hcollects, hspans, hstimed, hpayloads⟩ |
        ⟨hroom, s', hs', hcollects, hpayloads, hstart, hend⟩
      · obtain ⟨payloads, messages, hfinish, hreads, halarms, htimes⟩ :=
          ih hcollects hstimed (by norm_num)
        have hread := readAlarmMessage_payload htimed'.startTime htimed'.endTime
          (hlength.trans_lt (by norm_num : 44 < 65536))
        rw [← (h.addAlarmTime a).fillAlarmHeader_eq hfull.1] at hread
        refine ⟨_ :: payloads, _ :: messages, ?_, ReadsAlarms.cons hread hreads, ?_,
          fun hold hall => ?_⟩
        · rw [hs', hfinish, hpayloads]
          simp
        · rw [List.flatMap_cons, halarms]
          simp
        · rw [List.forall_mem_cons, TimesFit, if_pos hfull, htimes hspans (hrest hall),
            ← hold.describes_iff hfull.1 a]
          refine and_congr_left fun _ => ⟨fun hm => ⟨hm.startTime, hm.endTime⟩, fun hm => ?_⟩
          exact ⟨by simp, hm.1, hm.2, rfl⟩
      · have hshort : (alarms ++ [a]).length ≤ 44 := by
          by_cases hnil : alarms = []
          · simp [hnil]
          · have hsize : ¬ fullPayload < 12 + (alarms.flatMap AlarmLine.bytes).length :=
              fun hsize => hroom ⟨hnil, hsize⟩
            have hbytes := length_bytes_ge alarms
            rw [fullPayload] at hsize
            rw [List.length_append, List.length_singleton]
            omega
        obtain ⟨payloads, messages, hfinish, hreads, halarms, htimes⟩ :=
          ih hcollects ⟨hstart ▸ htimed'.startTime, hend ▸ htimed'.endTime⟩ hshort
        refine ⟨payloads, messages, ?_, hreads, ?_, fun hold hall => ?_⟩
        · rw [hs', hfinish, hpayloads]
        · rw [halarms, List.append_assoc]
          rfl
        · have hspans := hold.addAlarmTime a
          rw [TimesFit, if_neg hroom]
          refine htimes ⟨fun hnil => by simp at hnil, fun hne => ?_, fun hne => ?_⟩ (hrest hall)
          · exact hstart ▸ hspans.startTime hne
          · exact hend ▸ hspans.endTime hne

lemma alarmArchive_payloads (lines : List AlarmLine) :
    (alarmArchive lines).1 = finishAlarms (archiveAlarms alarmArchiverInit lines).1 := rfl

/-- **Archived alarms.** The alarms that are to be archived are in the payloads, under headers that
describe them, if and only if each has a description and an alarm that does not fit into a payload
is not older or newer than all alarms in it. -/
theorem alarmArchive_right_iff (lines : List AlarmLine) :
    ArchivesRight (lines.filter AlarmLine.Pending) (alarmArchive lines).1 ↔ ArchiveFits lines := by
  obtain ⟨payloads, messages, hfinish, hreads, halarms, htimes⟩ :=
    AlarmArchiver.collects_init.messages AlarmArchiver.timed_init (by norm_num) lines
  have hpayloads : (alarmArchive lines).1 = payloads := (alarmArchive_payloads lines).trans hfinish
  rw [List.nil_append] at halarms
  rw [hpayloads]
  have hfilter : lines.filter AlarmLine.Added
      = (lines.filter AlarmLine.Pending).filter (·.description.val ≠ []) := by
    rw [List.filter_filter]
    refine List.filter_congr fun a _ => ?_
    rw [Bool.and_comm, ← Bool.decide_and]
    rfl
  constructor
  · rintro ⟨messages', hreads', halarms', hdescribes⟩
    obtain rfl := hreads.unique hreads'
    -- no line is left out
    have hall : ∀ a ∈ lines.filter AlarmLine.Pending, a.description.val ≠ [] := by
      have hlength := congrArg List.length (halarms.symm.trans halarms')
      rw [List.length_map, List.length_map, hfilter] at hlength
      have hsame := List.length_filter_eq_length_iff.mp hlength
      exact fun a ha => of_decide_eq_true (hsame a ha)
    exact ⟨hall, (htimes AlarmArchiver.spans_init hall).mp hdescribes⟩
  · rintro ⟨hall, hfit⟩
    refine ⟨messages, hreads, ?_, (htimes AlarmArchiver.spans_init hall).mpr hfit⟩
    have hsame : lines.filter AlarmLine.Added = lines.filter AlarmLine.Pending := by
      rw [hfilter]
      exact List.filter_eq_self.mpr fun a ha => decide_eq_true (hall a ha)
    rw [halarms, hsame]

instance decidableTimesFit : ∀ alarms lines, Decidable (TimesFit alarms lines)
  | _, [] => isTrue trivial
  | alarms, a :: lines =>
    have := decidableTimesFit [a] lines
    have := decidableTimesFit (alarms ++ [a]) lines
    inferInstanceAs (Decidable (if AlarmsFull alarms then
      ((∃ b ∈ alarms, b.timestamp ≤ a.timestamp) ∧ ∃ b ∈ alarms, a.timestamp ≤ b.timestamp) ∧
        TimesFit [a] lines
    else TimesFit (alarms ++ [a]) lines))

lemma one_fits : (0 : ℤ) < 1 ∧ (1 : ℤ) < 2 ^ 32 := by norm_num

lemma two_fits : (0 : ℤ) < 2 ∧ (2 : ℤ) < 2 ^ 32 := by norm_num

/-- A line of a description of 8 characters. -/
def alarmAt (timestamp : ℤ) (h : 0 < timestamp ∧ timestamp < 2 ^ 32) : AlarmLine where
  text := []
  sent := false
  timestamp := timestamp
  channel := 1
  event := 0
  description := ⟨ascii "ABCDEFGH", by decide⟩
  short := by decide
  fits := h

/-- As many lines as fill a payload, and one that is newer. -/
def fullAndNewer : List AlarmLine :=
  List.replicate 23 (alarmAt 1 one_fits) ++ [alarmAt 2 two_fits]

/-- The end time of the first payload is that of an alarm which is not in it. -/
theorem alarmArchive_not_right :
    ¬ ArchivesRight (fullAndNewer.filter AlarmLine.Pending) (alarmArchive fullAndNewer).1 := by
  rintro ⟨messages', hreads', -, hdescribes⟩
  obtain ⟨payloads, messages, hfinish, hreads, -, htimes⟩ :=
    AlarmArchiver.collects_init.messages AlarmArchiver.timed_init (by norm_num) fullAndNewer
  rw [alarmArchive_payloads, hfinish] at hreads'
  obtain rfl := hreads.unique hreads'
  have hdescription : ∀ a ∈ fullAndNewer.filter AlarmLine.Pending, a.description.val ≠ [] := by
    intro a ha
    have hmem := List.mem_of_mem_filter ha
    rw [fullAndNewer, List.mem_append, List.mem_replicate, List.mem_singleton] at hmem
    rcases hmem with ⟨-, rfl⟩ | rfl
    · exact by decide
    · exact by decide
  have hfit := (htimes AlarmArchiver.spans_init hdescription).mp hdescribes
  exact absurd hfit (by decide +kernel)

end StationProcessor
