import StationProcessor.Diskloop.Open
import StationProcessor.Lib.Upserts
import StationProcessor.MsecTime

/-!
# Current alarms from the alarm log

`ParseEvent` reads a line of the log, and `ProcessAlarm` takes it into the list of current alarms,
which has an entry for each description. Events within two seconds of each other are taken to be
at the same time, and there the more severe one takes precedence; otherwise the later line does.
-/

namespace StationProcessor.Web

open Decimal Gregorian

/-! ### `ParseEvent` -/

/-- The part of `struct s_alarm` that these functions use. -/
structure Alarm where
  station : Bytes
  timetag : StdTime
  description : Bytes
  channel : ℤ
  event : UInt8
  level : UInt8
deriving DecidableEq

/-- What the scan of a line stores. -/
structure EventText where
  station : Bytes
  year : ℤ
  month : ℤ
  dom : ℤ
  hour : ℤ
  minute : ℤ
  second : ℤ
  description : Bytes
  channel : ℤ
  alarmtype : Bytes
  direction : Bytes
deriving DecidableEq

/-- The characters of a format outside its conversions. White space in it stands for any amount
of white space in the text. -/
def scanText : Bytes → Bytes → Option Bytes
  | [], s => some s
  | c :: format, s =>
    if isSpace c then scanText format (s.dropWhile isSpace)
    else match s with
      | b :: rest => if b = c then scanText format rest else none
      | [] => none

/-- One `%s` of a scan: the word and the text after it. -/
def scanString (s : Bytes) : Option (Bytes × Bytes) :=
  let s := s.dropWhile isSpace
  let word := s.takeWhile (!isSpace ·)
  if word.isEmpty then none else some (word, s.dropWhile (!isSpace ·))

/-- `sscanf(.., "%s %d/%d/%d %d:%d:%d %s (%d): Alarm event %s %s", ..)`, if all of the eleven
conversions succeed. -/
def scanEvent (plat : Platform) (s : Bytes) : Option EventText := do
  let (station, s) ← scanString s
  let (year, s) ← scanInt (← scanText (ascii " ") s)
  let (month, s) ← scanInt (← scanText (ascii "/") s)
  let (dom, s) ← scanInt (← scanText (ascii "/") s)
  let (hour, s) ← scanInt (← scanText (ascii " ") s)
  let (minute, s) ← scanInt (← scanText (ascii ":") s)
  let (second, s) ← scanInt (← scanText (ascii ":") s)
  let (description, s) ← scanString (← scanText (ascii " ") s)
  let (channel, s) ← scanInt (← scanText (ascii " (") s)
  let (alarmtype, s) ← scanString (← scanText (ascii "): Alarm event ") s)
  let (direction, _) ← scanString (← scanText (ascii " ") s)
  return {
    station, description, alarmtype, direction
    year := intOfScan plat year
    month := intOfScan plat month
    dom := intOfScan plat dom
    hour := intOfScan plat hour
    minute := intOfScan plat minute
    second := intOfScan plat second
    channel := intOfScan plat channel }

/-- The number of an event type, and the level of an alarm that it triggers. -/
def eventType (alarmtype : Bytes) : Option (UInt8 × UInt8) :=
  if alarmtype = ascii "On" then some (0, 3)
  else if alarmtype = ascii "High1" then some (1, 2)
  else if alarmtype = ascii "Low1" then some (2, 2)
  else if alarmtype = ascii "High2" then some (3, 3)
  else if alarmtype = ascii "Low2" then some (4, 3)
  else if alarmtype = ascii "Unknown" then some (5, 2)
  else none

/-- The level where an alarm is restored. -/
def restoredLevel (event level : UInt8) : UInt8 :=
  if event = 0 then 1 else if level ≤ 3 ∧ level > 1 then level - 1 else level

/-- The event and its level, by the direction. -/
def eventDirection (direction : Bytes) (event level : UInt8) : Option (UInt8 × UInt8) :=
  if direction = ascii "triggered" then some (event ||| 0x80, level)
  else if direction = ascii "restored" then some (event, restoredLevel event level)
  else none

/-- `holdevent.timetag`: the Julian day of the date, and the time of day in its `BYTE`s. -/
def EventText.timetag (t : EventText) : StdTime :=
  { stCnvJulToStd (julday2 t.year t.month t.dom) with
    hour := toByte t.hour
    minute := toByte t.minute
    second := toByte t.second }

/-- What `ParseEvent` does with the scanned line. -/
def EventText.alarm (t : EventText) : Option Alarm := do
  let (event, level) ← eventType t.alarmtype
  let (event, level) ← eventDirection t.direction event level
  return ⟨t.station, t.timetag, t.description.take 8, t.channel, event, level⟩

/-- `ParseEvent`. -/
def parseEvent (plat : Platform) (eventstr : Bytes) : Option Alarm :=
  let line := cString eventstr
  if line.length < 55 ∨ line.length > 80 then none
  else do
    let t ← scanEvent plat line
    if t.description.length > 10 then none else t.alarm

/-! ### `ProcessAlarm` -/

/-- `alarmdir`: the event triggers an alarm. -/
def triggers (event : UInt8) : Prop := event &&& 0x80 ≠ 0

instance (event : UInt8) : Decidable (triggers event) := inferInstanceAs (Decidable (_ ≠ _))

/-- The level that `ProcessAlarm` gives to an event, where `unknown` is its level for the types
that it does not tell apart. -/
def levelOf (unknown event : UInt8) : UInt8 :=
  if event &&& 0x7f = 0 then if triggers event then 3 else 1
  else if event &&& 0x7f = 1 ∨ event &&& 0x7f = 2 then if triggers event then 2 else 1
  else if event &&& 0x7f = 3 ∨ event &&& 0x7f = 4 then if triggers event then 3 else 2
  else unknown

/-- `alarmlevel`, of the line. -/
def alarmlevel (event : UInt8) : UInt8 := levelOf 2 event

/-- `ptrlevel`, of the entry. -/
def ptrlevel (event : UInt8) : UInt8 := levelOf 3 event

/-- The existing alarm is the keeper. -/
def Keeper (ptrevent event : UInt8) : Prop :=
  triggers event ∧ alarmlevel event ≤ ptrlevel ptrevent ∨
    ¬ triggers event ∧ ptrlevel ptrevent ≤ alarmlevel event ∨
    triggers ptrevent ∧ ¬ triggers event

instance (ptrevent event : UInt8) : Decidable (Keeper ptrevent event) :=
  inferInstanceAs (Decidable (_ ∨ _))

/-- The body of the loop, for an entry with the description of the line. -/
def updateAlarm (entry alarm : Alarm) : Alarm :=
  let delta := stDeltaToMs (stDiffTimes entry.timetag alarm.timetag)
  if delta > 0 then entry
  else if delta.tdiv 2000 = 0 ∧ Keeper entry.event alarm.event then entry
  else { entry with
    event := alarm.event, level := alarmlevel alarm.event, timetag := alarm.timetag }

/-- `ProcessAlarm`. The loop goes on after an entry with the description of the line; a new entry
stands first. -/
def processAlarm (alarmlist : List Alarm) (alarm : Alarm) : List Alarm :=
  if alarmlist.any (·.description = alarm.description) then
    alarmlist.map fun entry =>
      if entry.description = alarm.description then updateAlarm entry alarm else entry
  else alarm :: alarmlist

/-- The lines of a log, of which those that `ParseEvent` does not accept are passed over. -/
def processLines (plat : Platform) (lines : List Bytes) : List Alarm :=
  lines.foldl (fun alarmlist line => match parseEvent plat line with
    | some alarm => processAlarm alarmlist alarm
    | none => alarmlist) []

/-! ### Events and times of parsed lines -/

/-- The events of parsed lines, each with its level. -/
def eventLevels : List (UInt8 × UInt8) :=
  [(0x80, 3), (0, 1), (0x81, 2), (1, 1), (0x82, 2), (2, 1), (0x83, 3), (3, 2), (0x84, 3), (4, 2),
    (0x85, 2), (5, 1)]

/-- The event types with the levels of the alarms they trigger. -/
def typeLevels : List (UInt8 × UInt8) := [(0, 3), (1, 2), (2, 2), (3, 3), (4, 3), (5, 2)]

lemma eventType_mem {alarmtype : Bytes} {p : UInt8 × UInt8} (h : eventType alarmtype = some p) :
    p ∈ typeLevels := by
  unfold eventType at h
  split_ifs at h <;> rw [← Option.some_inj.mp h] <;> decide

lemma eventDirection_mem {direction : Bytes} {event level : UInt8} {p : UInt8 × UInt8}
    (htype : (event, level) ∈ typeLevels) (h : eventDirection direction event level = some p) :
    p ∈ eventLevels := by
  have hall : (typeLevels.all fun p => (p.1 ||| 0x80, p.2) ∈ eventLevels ∧
      (p.1, restoredLevel p.1 p.2) ∈ eventLevels) = true := by decide
  have hboth := of_decide_eq_true (List.all_eq_true.mp hall _ htype)
  unfold eventDirection at h
  split_ifs at h
  · rw [← Option.some_inj.mp h]
    exact hboth.1
  · rw [← Option.some_inj.mp h]
    exact hboth.2

/-- What an accepted line gives. -/
lemma exists_of_parseEvent {plat : Platform} {line : Bytes} {a : Alarm}
    (h : parseEvent plat line = some a) : ∃ t, scanEvent plat (cString line) = some t ∧
      a.timetag = t.timetag ∧ (a.event, a.level) ∈ eventLevels := by
  simp only [parseEvent] at h
  split_ifs at h
  obtain ⟨t, ht, halarm⟩ := Option.bind_eq_some_iff.mp h
  split_ifs at halarm
  obtain ⟨⟨number, base⟩, htype, hrest⟩ := Option.bind_eq_some_iff.mp halarm
  obtain ⟨⟨event, level⟩, hdirection, hreturn⟩ := Option.bind_eq_some_iff.mp hrest
  rw [← Option.some_inj.mp hreturn]
  exact ⟨t, ht, rfl, eventDirection_mem (eventType_mem htype) hdirection⟩

/-- The levels of `ProcessAlarm` are those of `ParseEvent`, except where an event of the type
`Unknown` is restored, and for an entry with an event of this type. -/
lemma levels_agree {p : UInt8 × UInt8} (h : p ∈ eventLevels) :
    (p.1 ≠ 5 → alarmlevel p.1 = p.2) ∧ (p.1 &&& 0x7f ≠ 5 → ptrlevel p.1 = p.2) := by
  have hall : (eventLevels.all fun p => (p.1 ≠ 5 → alarmlevel p.1 = p.2) ∧
      (p.1 &&& 0x7f ≠ 5 → ptrlevel p.1 = p.2)) = true := by decide
  exact of_decide_eq_true (List.all_eq_true.mp hall p h)

/-! ### Lines in time order -/

/-- A line with a date and a time of day, within the years of `ST_Julian`, and a station that fits
its buffer. -/
structure EventText.WellFormed (t : EventText) : Prop where
  station : t.station.length < 8
  year : 1901 ≤ t.year ∧ t.year ≤ 2099
  date : IsMonthDay t.year t.month t.dom
  hour : 0 ≤ t.hour ∧ t.hour < 24
  minute : 0 ≤ t.minute ∧ t.minute < 60
  second : 0 ≤ t.second ∧ t.second < 60

/-- The place of the line on the axis of milliseconds. -/
def EventText.place (t : EventText) : ℤ :=
  dayNumber t.year (dayOfYear t.year t.month t.dom) * 86400000 + t.hour * 3600000
    + t.minute * 60000 + t.second * 1000

lemma EventText.WellFormed.timetag_eq {t : EventText} (h : t.WellFormed) :
    t.timetag = ⟨t.year, dayOfYear t.year t.month t.dom, t.hour, t.minute, t.second, 0⟩ := by
  rw [EventText.timetag, stCnvJulToStd_julday2 ⟨h.year.1, .inl h.year.2⟩ h.date,
    toByte_of_small h.hour.1 (by linarith [h.hour.2]), toByte_of_small h.minute.1 h.minute.2,
    toByte_of_small h.second.1 h.second.2]

lemma EventText.WellFormed.place_timetag {t : EventText} (h : t.WellFormed) :
    t.timetag.place = t.place := by
  rw [h.timetag_eq]
  simp only [StdTime.place, EventText.place, add_zero]

/-- A log in time order. -/
structure AlarmLog (plat : Platform) where
  lines : List Bytes
  wellFormed : ∀ line ∈ lines, ∀ t, scanEvent plat (cString line) = some t → t.WellFormed
  ordered : lines.Pairwise fun line line' => ∀ t t', scanEvent plat (cString line) = some t →
    scanEvent plat (cString line') = some t' → t.place ≤ t'.place

/-- The alarms of the lines that are accepted. -/
def AlarmLog.alarms {plat : Platform} (log : AlarmLog plat) : List Alarm :=
  log.lines.filterMap (parseEvent plat)

/-- An alarm that a line can give. -/
structure Alarm.Parsed (a : Alarm) : Prop where
  levels : (a.event, a.level) ∈ eventLevels
  year : 1901 ≤ a.timetag.year ∧ a.timetag.year ≤ 2100

lemma AlarmLog.parsed {plat : Platform} (log : AlarmLog plat) : ∀ a ∈ log.alarms, a.Parsed := by
  intro a ha
  obtain ⟨line, hline, hparse⟩ := List.mem_filterMap.mp ha
  obtain ⟨t, ht, htag, hlevels⟩ := exists_of_parseEvent hparse
  have hwf := log.wellFormed line hline t ht
  refine ⟨hlevels, ?_⟩
  rw [htag, hwf.timetag_eq]
  exact ⟨hwf.year.1, hwf.year.2.trans (by norm_num)⟩

lemma AlarmLog.alarms_ordered {plat : Platform} (log : AlarmLog plat) :
    log.alarms.Pairwise fun a b => a.timetag.place ≤ b.timetag.place := by
  refine List.pairwise_filterMap.mpr (log.ordered.imp_of_mem ?_)
  intro line line' hline hline' hle a ha b hb
  obtain ⟨t, ht, htag, -⟩ := exists_of_parseEvent ha
  obtain ⟨t', ht', htag', -⟩ := exists_of_parseEvent hb
  rw [htag, htag', (log.wellFormed line hline t ht).place_timetag,
    (log.wellFormed line' hline' t' ht').place_timetag]
  exact hle t t' ht ht'

/-! ### What a line makes of an entry -/

/-- The entry holds the event and the time of the line and, except where an event of the type
`Unknown` is restored, its level. -/
structure Alarm.Holds (e a : Alarm) : Prop where
  event : e.event = a.event
  timetag : e.timetag = a.timetag
  level : a.event ≠ 5 → e.level = a.level

/-- The entry takes precedence over a line of the same time. -/
def Alarm.Precedes (e a : Alarm) : Prop :=
  triggers a.event ∧ a.level ≤ e.level ∨ ¬ triggers a.event ∧ e.level ≤ a.level ∨
    triggers e.event ∧ ¬ triggers a.event

/-- The line is less than two seconds after the time of the entry. -/
def Alarm.Near (e a : Alarm) : Prop := a.timetag.place < e.timetag.place + 2000

/-- The event has a type other than `Unknown`. -/
def Alarm.Known (a : Alarm) : Prop := a.event &&& 0x7f ≠ 5

/-- What a line makes of the entry with its description. -/
structure Succeeds (e a e' : Alarm) : Prop where
  station : e'.station = e.station
  description : e'.description = e.description
  channel : e'.channel = e.channel
  apart : ¬ e.Near a → e'.Holds a
  kept : e.Near a → e.Known → a.Known → e.Precedes a → e' = e
  replaced : e.Near a → e.Known → a.Known → ¬ e.Precedes a → e'.Holds a
  either : e' = e ∨ e'.Holds a

/-- What the lines of a description leave: the first makes the entry, and each other changes it. -/
inductive Reduces : List Alarm → Alarm → Prop
  | first (a : Alarm) : Reduces [a] a
  | next {items : List Alarm} {e a e' : Alarm} (h : Reduces items e) (hnext : Succeeds e a e') :
      Reduces (items ++ [a]) e'

/-! ### The loop does so -/

/-- An entry whose time is that of one of the lines so far, with its level. -/
structure Alarm.Current (e : Alarm) (items : List Alarm) : Prop where
  timetag : ∃ a ∈ items, e.timetag = a.timetag
  level : e.Known → e.level = ptrlevel e.event

variable {e a : Alarm}

lemma tdiv_eq_zero_iff {x : ℤ} (h : x ≤ 0) : x.tdiv 2000 = 0 ↔ -2000 < x := by
  rw [← neg_neg x, Int.neg_tdiv, Int.tdiv_eq_ediv_of_nonneg (by linarith)]
  omega

/-- The tests of the loop compare the places of the two times. -/
lemma delta_spec (he : 1901 ≤ e.timetag.year ∧ e.timetag.year ≤ 2100)
    (ha : 1901 ≤ a.timetag.year ∧ a.timetag.year ≤ 2100)
    (hle : e.timetag.place ≤ a.timetag.place) :
    ¬ stDeltaToMs (stDiffTimes e.timetag a.timetag) > 0 ∧
      ((stDeltaToMs (stDiffTimes e.timetag a.timetag)).tdiv 2000 = 0 ↔ e.Near a) := by
  have hlim : timLim = 1728000000 := by norm_num [timLim]
  rw [stDeltaToMs_stDiffTimes he ha, hlim, tdiv_eq_zero_iff (by omega), Alarm.Near]
  omega

lemma Alarm.Known.event_ne {a : Alarm} (h : a.Known) : a.event ≠ 5 := by
  intro heq
  refine h ?_
  rw [heq]
  decide

lemma keeper_iff (hlevel : e.Known → e.level = ptrlevel e.event)
    (ha : (a.event, a.level) ∈ eventLevels) (he : e.Known) (hknown : a.Known) :
    Keeper e.event a.event ↔ e.Precedes a := by
  have halarm := (levels_agree ha).1 hknown.event_ne
  simp only [Keeper, Alarm.Precedes, hlevel he, halarm]

/-- What a line makes of an entry that is not newer. -/
lemma updateAlarm_succeeds (he : 1901 ≤ e.timetag.year ∧ e.timetag.year ≤ 2100)
    (hlevel : e.Known → e.level = ptrlevel e.event) (ha : a.Parsed)
    (hle : e.timetag.place ≤ a.timetag.place) : Succeeds e a (updateAlarm e a) := by
  obtain ⟨hnew, hnear⟩ := delta_spec he ha.year hle
  have hholds : Alarm.Holds { e with
      event := a.event, level := alarmlevel a.event, timetag := a.timetag } a :=
    ⟨rfl, rfl, fun hne => (levels_agree ha.levels).1 hne⟩
  simp only [updateAlarm, if_neg hnew]
  by_cases hkeep : (stDeltaToMs (stDiffTimes e.timetag a.timetag)).tdiv 2000 = 0 ∧
      Keeper e.event a.event
  · rw [if_pos hkeep]
    exact {
      station := rfl
      description := rfl
      channel := rfl
      apart := fun h => absurd (hnear.mp hkeep.1) h
      kept := fun _ _ _ _ => rfl
      replaced := fun _ hke hka h => absurd ((keeper_iff hlevel ha.levels hke hka).mp hkeep.2) h
      either := .inl rfl }
  · rw [if_neg hkeep]
    exact {
      station := rfl
      description := rfl
      channel := rfl
      apart := fun _ => hholds
      kept := fun hn hke hka h =>
        absurd ⟨hnear.mpr hn, (keeper_iff hlevel ha.levels hke hka).mpr h⟩ hkeep
      replaced := fun _ _ _ _ => hholds
      either := .inr hholds }

lemma updateAlarm_current {items : List Alarm} (h : e.Current items) (ha : a.Parsed) :
    (updateAlarm e a).Current (items ++ [a]) := by
  have hkept : e.Current (items ++ [a]) := by
    obtain ⟨b, hb, htag⟩ := h.timetag
    exact ⟨⟨b, List.mem_append_left _ hb, htag⟩, h.level⟩
  simp only [updateAlarm]
  split_ifs
  · exact hkept
  · exact hkept
  · refine ⟨⟨a, by simp, rfl⟩, fun hknown => ?_⟩
    rw [(levels_agree ha.levels).1 hknown.event_ne, (levels_agree ha.levels).2 hknown]

/-- What the lines of a description come to is the entry that they leave. -/
lemma reduces_of_outcome {items : List Alarm} (hparsed : ∀ a ∈ items, a.Parsed)
    (hordered : items.Pairwise fun a b => a.timetag.place ≤ b.timetag.place) {e : Alarm}
    (h : Upserts.outcome updateAlarm items = some e) : Reduces items e ∧ e.Current items := by
  induction items using List.reverseRecOn generalizing e with
  | nil => cases h
  | append_singleton items a ih =>
    have ha := hparsed a (by simp)
    rw [Upserts.outcome_append_singleton, Option.some_inj] at h
    cases ho : Upserts.outcome updateAlarm items with
    | none =>
      cases items with
      | cons b items => cases ho
      | nil =>
        rw [ho, Option.elim_none] at h
        rw [← h]
        exact ⟨.first a, ⟨a, by simp, rfl⟩, fun hknown => ((levels_agree ha.levels).2 hknown).symm⟩
    | some o =>
      rw [ho, Option.elim_some] at h
      rw [List.pairwise_append] at hordered
      obtain ⟨hordered, -, hlast⟩ := hordered
      have hparsed' : ∀ b ∈ items, b.Parsed := fun b hb => hparsed b (List.mem_append_left _ hb)
      obtain ⟨hreduces, hcurrent⟩ := ih hparsed' hordered ho
      obtain ⟨b, hb, htag⟩ := hcurrent.timetag
      have hyear := (hparsed' b hb).year
      have hle := hlast b hb a (by simp)
      rw [← htag] at hyear hle
      rw [← h]
      exact ⟨.next hreduces (updateAlarm_succeeds hyear hcurrent.level ha hle),
        updateAlarm_current hcurrent ha⟩

/-- The time of the entry is that of one of the lines. -/
lemma Reduces.exists_timetag {items : List Alarm} (h : Reduces items e) :
    ∃ a ∈ items, e.timetag = a.timetag := by
  induction h with
  | first a => exact ⟨a, by simp, rfl⟩
  | next _ hnext ih =>
    rcases hnext.either with heq | hholds
    · obtain ⟨b, hb, htag⟩ := ih
      exact ⟨b, List.mem_append_left _ hb, heq ▸ htag⟩
    · exact ⟨_, by simp, hholds.timetag⟩

/-- A last line that is two seconds after the others is the one the entry holds. -/
lemma Reduces.holds_last {items : List Alarm} (h : Reduces (items ++ [a]) e)
    (hapart : ∀ b ∈ items, b.timetag.place + 2000 ≤ a.timetag.place) : e.Holds a := by
  generalize hall : items ++ [a] = all at h
  cases h with
  | first =>
    obtain ⟨-, heq⟩ := List.append_inj' (hall.trans (List.nil_append [e]).symm) rfl
    cases heq
    exact ⟨rfl, rfl, fun _ => rfl⟩
  | next hreduces hnext =>
    obtain ⟨rfl, heq⟩ := List.append_inj' hall rfl
    cases heq
    obtain ⟨b, hb, htag⟩ := hreduces.exists_timetag
    refine hnext.apart fun hnear => ?_
    rw [Alarm.Near, htag] at hnear
    exact absurd (hapart b hb) (not_le.mpr hnear)

lemma keepsKey : Upserts.KeepsKey Alarm.description updateAlarm := by
  intro e a
  simp only [updateAlarm]
  split_ifs <;> rfl

lemma processAlarm_eq : processAlarm = Upserts.upsert Alarm.description updateAlarm := by
  funext alarmlist alarm
  rfl

lemma processLines_eq (plat : Platform) (lines : List Bytes) : processLines plat lines
    = (lines.filterMap (parseEvent plat)).foldl
        (Upserts.upsert Alarm.description updateAlarm) [] := by
  rw [processLines, List.foldl_filterMap, ← processAlarm_eq]
  congr 1
  funext alarmlist line
  cases parseEvent plat line <;> rfl

/-- A line leaves the entries of other descriptions alone. -/
lemma processLines_other (plat : Platform) (lines : List Bytes) {line : Bytes}
    (hline : parseEvent plat line = some a) (hne : e.description ≠ a.description) :
    e ∈ processLines plat (lines ++ [line]) ↔ e ∈ processLines plat lines := by
  rw [processLines, processLines, List.foldl_append, List.foldl_cons, List.foldl_nil, hline]
  rw [processAlarm_eq]
  exact Upserts.mem_upsert_of_ne keepsKey hne

/-! ### Current states -/

variable {plat : Platform}

/-- A log is reduced to its current states, where a line more than two seconds after the lines of
its description before it is the current state and otherwise the precedence decides. -/
structure AlarmLog.Reduced (log : AlarmLog plat) : Prop where
  once : ((processLines plat log.lines).map Alarm.description).Nodup
  described : ∀ d, (∃ e ∈ processLines plat log.lines, e.description = d) ↔
    ∃ a ∈ log.alarms, a.description = d
  reduces : ∀ e ∈ processLines plat log.lines,
    Reduces (log.alarms.filter (·.description = e.description)) e
  last : ∀ e ∈ processLines plat log.lines, ∀ items a,
    log.alarms.filter (·.description = e.description) = items ++ [a] →
      (∀ b ∈ items, b.timetag.place + 2000 ≤ a.timetag.place) → e.Holds a
  others : ∀ lines line rest, log.lines = lines ++ line :: rest →
    ∀ a, parseEvent plat line = some a → ∀ e : Alarm, e.description ≠ a.description →
      (e ∈ processLines plat (lines ++ [line]) ↔ e ∈ processLines plat lines)

/-- `ProcessAlarm` reduces every log in time order to its current states. -/
theorem processLines_reduced (log : AlarmLog plat) : log.Reduced := by
  have ⟨houtcomes, hnodup⟩ := Upserts.foldl_upsert keepsKey log.alarms
  rw [AlarmLog.alarms, ← processLines_eq] at houtcomes hnodup
  have hreduces : ∀ e ∈ processLines plat log.lines,
      Reduces (log.alarms.filter (·.description = e.description)) e := by
    intro e he
    exact (reduces_of_outcome (fun a ha => log.parsed a (List.mem_filter.mp ha).1)
      (log.alarms_ordered.filter _) ((houtcomes e).mp he)).1
  exact {
    once := hnodup
    described := houtcomes.exists_iff keepsKey
    reduces := hreduces
    last := fun e he items a hall hapart => (hall ▸ hreduces e he).holds_last hapart
    others := fun lines line _ _ a hline e hne => processLines_other plat lines hline hne }

/-- Each entry holds the event, the time and the level of the last line of its description. -/
structure AlarmLog.HoldsLast (log : AlarmLog plat) : Prop where
  once : ((processLines plat log.lines).map Alarm.description).Nodup
  last : ∀ e ∈ processLines plat log.lines, ∀ items a,
    log.alarms.filter (·.description = e.description) = items ++ [a] →
      e.event = a.event ∧ e.timetag = a.timetag ∧ e.level = a.level

def sampleHost : Platform := ⟨64, fun _ => -2 ^ 31, fun _ => 0⟩

/-- A line of one moment, with its type of event. -/
def vaultLine (alarmtype : Bytes) : Bytes :=
  ascii "ANMO 2009/10/05 15:32:11 Vault (21): Alarm event " ++ alarmtype ++ ascii " triggered"

def vaultText (alarmtype : Bytes) : EventText :=
  ⟨ascii "ANMO", 2009, 10, 5, 15, 32, 11, ascii "Vault", 21, alarmtype, ascii "triggered"⟩

lemma vaultText_wellFormed (alarmtype : Bytes) : (vaultText alarmtype).WellFormed where
  station := (by decide : (ascii "ANMO").length < 8)
  year := by norm_num [vaultText]
  date := ⟨by norm_num [vaultText], by norm_num [vaultText], by norm_num [vaultText, monthLength]⟩
  hour := by norm_num [vaultText]
  minute := by norm_num [vaultText]
  second := by norm_num [vaultText]

def vaultAlarm (event level : UInt8) : Alarm :=
  ⟨ascii "ANMO", ⟨2009, 278, 15, 32, 11, 0⟩, ascii "Vault", 21, event, level⟩

lemma scanEvent_vault {alarmtype : Bytes}
    (h : alarmtype = ascii "High1" ∨ alarmtype = ascii "High2") :
    scanEvent sampleHost (cString (vaultLine alarmtype)) = some (vaultText alarmtype) := by
  rcases h with rfl | rfl <;> decide +kernel

lemma parseEvent_vault :
    parseEvent sampleHost (vaultLine (ascii "High2")) = some (vaultAlarm 0x83 3) ∧
    parseEvent sampleHost (vaultLine (ascii "High1")) = some (vaultAlarm 0x81 2) := by
  decide +kernel

/-- Two lines of one moment, the more severe first. -/
def severeThenMilder : AlarmLog sampleHost where
  lines := [vaultLine (ascii "High2"), vaultLine (ascii "High1")]
  wellFormed := by
    intro line hline t ht
    rcases List.mem_pair.mp hline with rfl | rfl
    · rw [scanEvent_vault (.inr rfl), Option.some_inj] at ht
      exact ht ▸ vaultText_wellFormed _
    · rw [scanEvent_vault (.inl rfl), Option.some_inj] at ht
      exact ht ▸ vaultText_wellFormed _
  ordered := by
    refine List.pairwise_pair.mpr fun t t' ht ht' => ?_
    rw [scanEvent_vault (.inr rfl), Option.some_inj] at ht
    rw [scanEvent_vault (.inl rfl), Option.some_inj] at ht'
    rw [← ht, ← ht']
    simp only [EventText.place, vaultText, le_refl]

/-- The milder line is not the current state. -/
theorem processLines_not_last : ¬ ∀ (plat : Platform) (log : AlarmLog plat), log.HoldsLast := by
  intro hall
  have ⟨hsevere, hmilder⟩ := parseEvent_vault
  have halarms : severeThenMilder.alarms = [vaultAlarm 0x83 3, vaultAlarm 0x81 2] := by
    simp only [AlarmLog.alarms, severeThenMilder, List.filterMap_cons, hsevere, hmilder,
      List.filterMap_nil]
  have hentry : vaultAlarm 0x83 3 ∈ processLines sampleHost severeThenMilder.lines := by
    have hlines : processLines sampleHost severeThenMilder.lines
        = processAlarm (processAlarm [] (vaultAlarm 0x83 3)) (vaultAlarm 0x81 2) := by
      simp only [processLines, severeThenMilder, List.foldl_cons, List.foldl_nil, hsevere, hmilder]
    rw [hlines]
    decide +kernel
  have hlast := (hall sampleHost severeThenMilder).last _ hentry [vaultAlarm 0x83 3]
    (vaultAlarm 0x81 2) (by rw [halarms]; decide +kernel)
  exact absurd hlast.1 (by decide)

end StationProcessor.Web
