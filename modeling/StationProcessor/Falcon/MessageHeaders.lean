import StationProcessor.Falcon.AlarmArchive
import StationProcessor.Falcon.CsvRuns
import StationProcessor.Falcon.OpaqueRead

/-!
# Headers of messages

The payloads of `csv_archive` and of `alarm_archive` both start with a version, a start time and an
end time, and the end time is not 0.
-/

namespace StationProcessor

/-! ### Payloads -/

/-- A payload of one of the two archivers, in any run of it. -/
def Produced : Bool → Bytes → Prop
  | true, data => ∃ lines, data ∈ (alarmArchive lines).1
  | false, data => ∃ fuel calls context, csvRun fuel calls = some context ∧
      ∃ h ∈ context, data ∈ h.messages

/-- The version of a payload of alarms or of minute rows. -/
def versionOf (alarm : Bool) : ℕ := if alarm then alarmVersion else falconVersion

/-- A payload with a header. -/
def IsMessage (alarm : Bool) (data : Bytes) : Prop :=
  ∃ (startTime endTime : ℤ) (rest : Bytes), (0 < endTime ∧ endTime < 2 ^ 32) ∧
    data = htons (versionOf alarm) ++ (htonl startTime ++ (htonl endTime ++ rest))

/-- The end time in a header. -/
def endTimeOf (data : Bytes) : ℕ := BigEndian.decode ((data.drop 6).take 4)

section Header

variable {alarm : Bool} {data : Bytes}

lemma IsMessage.length (h : IsMessage alarm data) : 10 ≤ data.length := by
  obtain ⟨startTime, endTime, rest, -, rfl⟩ := h
  simp only [List.length_append, length_htons, length_htonl]
  omega

lemma IsMessage.endTimeOf_pos (h : IsMessage alarm data) : endTimeOf data ≠ 0 := by
  obtain ⟨startTime, endTime, rest, ⟨hpos, hfits⟩, rfl⟩ := h
  have hdrop : (htons (versionOf alarm) ++ (htonl startTime ++ (htonl endTime ++ rest))).drop 6
      = htonl endTime ++ rest := by
    rw [← List.append_assoc]
    exact List.drop_left' (by simp)
  have htime := decode_htonl hpos.le hfits
  rw [endTimeOf, hdrop, List.take_left' (length_htonl endTime)]
  omega

/-- A message is read as one, also when only the first part of it is there. -/
lemma IsMessage.headerTime_eq (h : IsMessage alarm data) {part : Bytes} (hpart : part <+: data)
    (hlength : 10 ≤ part.length) (rest : Bytes) :
    headerTime alarm (part ++ rest) = endTimeOf data := by
  obtain ⟨more, rfl⟩ := hpart
  have htimes : ((part ++ rest).drop 6).take 4 = ((part ++ more).drop 6).take 4 := by
    have hle : 4 ≤ (part.drop 6).length := by
      rw [List.length_drop]
      omega
    rw [List.drop_append_of_le_length (by omega), List.drop_append_of_le_length (by omega),
      List.take_append_of_le_length hle, List.take_append_of_le_length hle]
  have hversion : shortAt (part ++ rest) 0 = versionOf alarm := by
    obtain ⟨startTime, endTime, tail, -, hdata⟩ := h
    have hsame : shortAt (part ++ rest) 0 = shortAt (part ++ more) 0 := by
      rw [shortAt, shortAt, List.drop_zero, List.drop_zero,
        List.take_append_of_le_length (by omega), List.take_append_of_le_length (by omega)]
    rw [hsame, hdata]
    exact shortAt_zero (by cases alarm <;> decide) _
  unfold headerTime
  rw [hversion, htimes, endTimeOf]
  cases alarm with
  | true => rfl
  | false => rfl

end Header

/-! ### Payloads have headers -/

section Alarms

variable {s : AlarmArchiver} {alarms : List AlarmLine}

/-- A payload was not queued yet, or has an end time. -/
structure AlarmArchiver.Heads (s : AlarmArchiver) (alarms : List AlarmLine) : Prop where
  collects : s.Collects alarms
  timed : s.Timed
  endTime : alarms ≠ [] → 0 < s.endTime
  payloads : ∀ data ∈ s.payloads, IsMessage true data

lemma isMessage_alarmPayload {startTime endTime : ℤ} (hpos : 0 < endTime) (hfits : endTime < 2 ^ 32)
    (count : ℕ) (alarms : List AlarmLine) :
    IsMessage true (alarmPayload startTime endTime count alarms) :=
  ⟨startTime, endTime, _, ⟨hpos, hfits⟩, rfl⟩

lemma addAlarmTime_pos (h : s.Timed) (a : AlarmLine) : 0 < (addAlarmTime s a).endTime := by
  have ha := a.fits
  have hs := h.endTime
  simp only [addAlarmTime]
  split_ifs <;> omega

lemma AlarmArchiver.Heads.archiveAlarm (h : s.Heads alarms) (a : AlarmLine) :
    ∃ alarms', (archiveAlarm s a).1.Heads alarms' := by
  have htimed := h.timed.addAlarmTime a
  have hpos := addAlarmTime_pos h.timed a
  cases hsent : a.sent with
  | true =>
    have hsame : (StationProcessor.archiveAlarm s a).1 = s := by
      simp [StationProcessor.archiveAlarm, hsent]
    rw [hsame]
    exact ⟨alarms, h⟩
  | false =>
    by_cases hnone : a.description.val = []
    · have hsame : (StationProcessor.archiveAlarm s a).1 = addAlarmTime s a := by
        simp [StationProcessor.archiveAlarm, hsent, hnone]
      rw [hsame]
      exact ⟨alarms, h.collects.addAlarmTime a, htimed, fun _ => hpos, h.payloads⟩
    rcases h.collects.archiveAlarm hsent hnone with
      ⟨hfull, s', hs', hcollects, hspans, hstimed, hpayloads⟩ |
      ⟨-, s', hs', hcollects, hpayloads, hstart, hend⟩
    · refine ⟨[a], hs' ▸ ⟨hcollects, hstimed, fun hne => ?_, fun data hdata => ?_⟩⟩
      · obtain ⟨b, -, hb⟩ := AlarmArchiver.mem_alarmTimes.mp (hspans.endTime hne).1
        exact hb ▸ b.fits.1
      · rw [hpayloads, List.mem_append, List.mem_singleton] at hdata
        rcases hdata with hdata | rfl
        · exact h.payloads data hdata
        · rw [(h.collects.addAlarmTime a).fillAlarmHeader_eq hfull.1]
          exact isMessage_alarmPayload hpos htimed.endTime.2 _ _
    · refine ⟨alarms ++ [a], hs' ▸ ⟨hcollects, ?_, fun _ => hend ▸ hpos, hpayloads ▸ h.payloads⟩⟩
      exact ⟨hstart ▸ htimed.startTime, hend ▸ htimed.endTime⟩

lemma AlarmArchiver.Heads.archiveAlarms (h : s.Heads alarms) (lines : List AlarmLine) :
    ∃ alarms', (archiveAlarms s lines).1.Heads alarms' := by
  induction lines generalizing s alarms with
  | nil => exact ⟨alarms, h⟩
  | cons a lines ih =>
    obtain ⟨alarms', h'⟩ := h.archiveAlarm a
    exact ih h'

lemma isMessage_of_alarmArchive {lines : List AlarmLine} {data : Bytes}
    (hdata : data ∈ (alarmArchive lines).1) : IsMessage true data := by
  have hinit : alarmArchiverInit.Heads [] :=
    ⟨AlarmArchiver.collects_init, AlarmArchiver.timed_init, fun h => absurd rfl h, by
      simp [alarmArchiverInit]⟩
  obtain ⟨alarms, h⟩ := hinit.archiveAlarms lines
  rw [alarmArchive_payloads, finishAlarms] at hdata
  split_ifs at hdata with hcount
  · rw [List.mem_append, List.mem_singleton] at hdata
    rcases hdata with hdata | rfl
    · exact h.payloads data hdata
    · have hsome : alarms ≠ [] := by
        rintro rfl
        exact hcount h.collects.count
      rw [h.collects.fillAlarmHeader_eq hsome]
      exact isMessage_alarmPayload (h.endTime hsome) h.timed.endTime.2 _ _
  · exact h.payloads data hdata

end Alarms

section Rows

variable {csvBuffer csvBuffer' : CsvBuffer} {sent : List CsvRow}

lemma isMessage_fmashCsvToMsh (h : csvBuffer.Continues sent) {row : CsvRow} {rows : List CsvRow}
    (hlist : csvBuffer.list = row :: rows) {msg : Bytes}
    (hmsg : fmashCsvToMsh csvBuffer = some (msg, csvBuffer')) : IsMessage false msg := by
  have hencode := fmashCsvToMsh_eq hlist
  have hparsed := h.parsed
  rw [hlist] at hparsed
  have hfits := hparsed.end_fits
  have hrow := h.lines row (by simp [hlist])
  have hmaps : 0 < (minutes maxRows row.timestamp row.values (row :: rows)).maps.length :=
    length_maps_pos 59 row.timestamp row.values row rows
  rw [hmsg] at hencode
  obtain ⟨rfl, -⟩ := Prod.mk.inj (Option.some.inj hencode)
  refine ⟨row.timestamp, _, _, ⟨?_, hfits.2⟩, rfl⟩
  have hpos := hrow.fits.1
  rw [tmMinute]
  omega

lemma isMessage_of_archiveTurns (h : csvBuffer.Continues sent) {turns : ℕ} {messages : List Bytes}
    (hturns : archiveTurns turns csvBuffer = some (messages, csvBuffer')) :
    ∀ msg ∈ messages, IsMessage false msg := by
  induction turns generalizing csvBuffer sent messages with
  | zero =>
    cases hturns
    simp
  | succ turns ih =>
    rw [archiveTurns] at hturns
    by_cases hhour : csvBuffer.endTime - csvBuffer.startTime ≥ tmHour
    · rw [if_pos hhour] at hturns
      obtain ⟨⟨msg, csvBuffer₁⟩, hmsg, hturns⟩ := Option.bind_eq_some_iff.mp hturns
      obtain ⟨⟨messages₁, csvBuffer₂⟩, hrest, hturns⟩ := Option.bind_eq_some_iff.mp hturns
      cases hturns
      obtain ⟨msg', csvBuffer₁', hmsg', hnext, -⟩ := h.message hhour
      obtain ⟨rfl, rfl⟩ := Prod.mk.inj (Option.some.inj (hmsg.symm.trans hmsg'))
      have hlist : csvBuffer.list ≠ [] := by
        intro hnil
        obtain ⟨-, hstart, hend⟩ := h.fresh hnil
        rw [hstart, hend] at hhour
        exact absurd hhour (by simp [tmHour])
      obtain ⟨row, rows, hlist⟩ := List.exists_cons_of_ne_nil hlist
      exact List.forall_mem_cons.mpr ⟨isMessage_fmashCsvToMsh h hlist hmsg, ih hnext hrest⟩
    · rw [if_neg hhour] at hturns
      cases hturns
      simp

/-- The rows are in order and the messages have headers. -/
def CsvHistory.Heads (h : CsvHistory) : Prop :=
  h.Ordered ∧ ∀ msg ∈ h.messages, IsMessage false msg

lemma CsvHistory.Heads.archive {h h' : CsvHistory} (hh : h.Heads) {fuel : ℕ}
    (harchive : h.archive fuel = some h') : h'.Heads := by
  obtain ⟨⟨messages, csvBuffer⟩, hloop, rfl⟩ := Option.map_eq_some_iff.mp harchive
  obtain ⟨⟨messages', csvBuffer'⟩, hturns, hends⟩ := Option.bind_eq_some_iff.mp hloop
  dsimp only at hends
  split_ifs at hends
  cases hends
  obtain ⟨sent, hsent, hordered⟩ := hh.1.turns fuel
  obtain rfl := Option.some.inj (hturns.symm.trans hsent)
  refine ⟨hordered, fun msg hmsg => ?_⟩
  rcases List.mem_append.mp hmsg with hmsg | hmsg
  · exact hh.2 msg hmsg
  · exact isMessage_of_archiveTurns hh.1.continues hturns msg hmsg

lemma heads_parseInContext {context : List CsvHistory} (hcontext : ∀ h ∈ context, h.Heads)
    (fileName : CString) (file : CsvFile) (initialTime : ℤ) :
    ∀ h ∈ parseInContext fileName file initialTime context, h.Heads := by
  induction context with
  | nil =>
    intro h hh
    rw [List.mem_singleton.mp hh]
    exact ⟨(CsvHistory.ordered_init fileName).parse file initialTime, fun _ hmsg => by cases hmsg⟩
  | cons h context ih =>
    rw [List.forall_mem_cons] at hcontext
    rw [parseInContext]
    split_ifs
    · have hh := hcontext.1
      exact List.forall_mem_cons.mpr ⟨⟨hh.1.parse file initialTime, hh.2⟩, hcontext.2⟩
    · exact List.forall_mem_cons.mpr ⟨hcontext.1, ih hcontext.2⟩

lemma heads_csvArchive {fuel : ℕ} {context context' : List CsvHistory}
    (hcontext : ∀ h ∈ context, h.Heads) (harchive : csvArchive fuel context = some context') :
    ∀ h ∈ context', h.Heads := by
  induction context generalizing context' with
  | nil =>
    cases harchive
    simp
  | cons h context ih =>
    rw [List.forall_mem_cons] at hcontext
    rw [csvArchive, List.mapM_cons] at harchive
    obtain ⟨h', hh', hlater⟩ := Option.bind_eq_some_iff.mp harchive
    obtain ⟨rest, hrest, heq⟩ := Option.bind_eq_some_iff.mp hlater
    cases heq
    exact List.forall_mem_cons.mpr ⟨hcontext.1.archive hh', ih hcontext.2 hrest⟩

lemma heads_csvRun {fuel : ℕ} {calls : List CsvCall} {context : List CsvHistory}
    (hrun : csvRun fuel calls = some context) : ∀ h ∈ context, h.Heads := by
  induction calls using List.reverseRecOn generalizing context with
  | nil =>
    cases hrun
    simp
  | append_singleton calls call ih =>
    rw [csvRun, List.foldlM_append] at hrun
    obtain ⟨before, hbefore, hlast⟩ := Option.bind_eq_some_iff.mp hrun
    have hheads := ih hbefore
    have hstep : csvStep fuel before call = some context := by simpa using hlast
    cases call with
    | parse fileName file initialTime =>
      cases hstep
      exact heads_parseInContext hheads fileName file initialTime
    | archive => exact heads_csvArchive hheads hstep

end Rows

/-- What the archivers produce has a header. -/
lemma Produced.isMessage {alarm : Bool} {data : Bytes} (h : Produced alarm data) :
    IsMessage alarm data := by
  cases alarm with
  | true =>
    obtain ⟨lines, hdata⟩ := h
    exact isMessage_of_alarmArchive hdata
  | false =>
    obtain ⟨fuel, calls, context, hrun, h, hh, hdata⟩ := h
    exact (heads_csvRun hrun h hh).2 data hdata

end StationProcessor
