import StationProcessor.Diskloop.ChannelKey
import StationProcessor.JulianDay

/-!
# Directory requests

`cmd_DIRREQ` of `netseed` reads `station.[location-]channel <start> <end>`, where a date is
`yyyy/mm/dd hh:mm:ss` or `*`. It finds the day of a date in a table of its own, in which the leap
day of one date is still there for the next.
-/

namespace StationProcessor.Netseed

open Decimal Gregorian

/-! ### Parsing a request -/

/-- The mistakes `cmd_DIRREQ` reports. -/
inductive DirreqError
  | station
  | channel
  | directory
  | startDate
  | startTime
  | finishDate
  | finishTime
  | recordRange
deriving DecidableEq

def DirreqError.text : DirreqError → Bytes
  | .station => ascii "Invalid or missing station name\n"
  | .channel => ascii "Invalid [location-]channel name\n"
  | .directory => ascii "Unable to open station directory\n"
  | .startDate => ascii "Invalid start date yyyy/mm/dd\n"
  | .startTime => ascii "Invalid start time hh:mm:ss\n"
  | .finishDate => ascii "Invalid finish date yyyy/mm/dd\n"
  | .finishTime => ascii "Invalid finish time hh:mm:ss\n"
  | .recordRange => ascii "ASP internal error, GetRecordRange() call\n"

/-- `parse_request`: `prsbuf`, and the text after the character it stops at, which the caller
steps over before the next call. -/
def parseRequest (srch : UInt8) (rest : Bytes) : Bytes × Bytes :=
  ((rest.takeWhile (· != srch)).map toUpper, (rest.dropWhile (· != srch)).drop 1)

/-- `rqlocation` and `rqchannel` from `[location-]channel`. Without a location `rqchannel` is not
set, and `stale` is what it holds. -/
def parsePattern (stale prsbuf : Bytes) : Except DirreqError (Bytes × Bytes) :=
  let j := (prsbuf.takeWhile (· != 45)).length
  let prslen := prsbuf.length
  if j < prslen then
    if j = 0 ∨ j > 2 ∨ j + 2 > prslen ∨ j + 4 < prslen then .error .channel
    else .ok (prsbuf.take j, prsbuf.drop (j + 1))
  else if prslen > 3 ∨ prslen < 1 then .error .channel
  else .ok (ascii "  ", stale)

/-- `days_mth`, with the days of February. -/
def daysMth (february : ℤ) : List ℤ := [0, 31, february, 31, 30, 31, 30, 31, 31, 30, 31, 30, 31]

/-- The loop over the months before the date. -/
def tableDay (february month day : ℤ) : ℤ := ((daysMth february).take month.toNat).sum + day

/-- A date, where `february` is `days_mth[2]` so far: the new `days_mth[2]`, the year and the day
of the year. The checks leave no value that an `STDTIME2` could not hold. -/
def parseDate (plat : Platform) (february : ℤ) (prsbuf : Bytes) : Option (ℤ × ℤ × ℤ) :=
  match scanNumbers plat [47, 47] prsbuf with
  | [rqyear, rqmonth, rqday] =>
    if rqyear < 1980 ∨ rqyear > 3000 ∨ rqmonth < 1 ∨ rqmonth > 12 then none
    else
      let february := if rqyear % 4 = 0 then 29 else february
      if rqday < 1 ∨ rqday > (daysMth february).getD rqmonth.toNat 0 then none
      else some (february, rqyear, tableDay february rqmonth rqday)
  | _ => none

/-- A time of day. -/
def parseClock (plat : Platform) (prsbuf : Bytes) : Option (ℤ × ℤ × ℤ) :=
  let args := scanNumbers plat [58, 58] prsbuf
  let rqhour := args.getD 0 100
  let rqmin := args.getD 1 100
  let rqsec := args.getD 2 100
  if rqhour < 0 ∨ rqhour > 23 ∨ rqmin < 0 ∨ rqmin > 59 ∨ rqsec < 0 ∨ rqsec > 59 then none
  else some (rqhour, rqmin, rqsec)

/-- `ST_CnvJulToSTD2`. -/
def stCnvJulToStd2 (injul : ℤ) : StdTime2 :=
  let (outyr, _, _, outjday) := stCnvJulToCal2 injul
  ⟨outyr, outjday, 0, 0, 0, 0⟩

/-- One of the two dates with its time, or `*` for the first of January of `year`: the new
`days_mth[2]`, the time, and the text after it. -/
def parseLimit (plat : Platform) (year : ℤ) (dateError timeError : DirreqError) (february : ℤ)
    (rest : Bytes) : Except DirreqError (ℤ × StdTime2 × Bytes) :=
  let (prsbuf, rest) := parseRequest 32 rest
  if prsbuf = ascii "*" then .ok (february, stCnvJulToStd2 (julday2 year 1 1), rest)
  else match parseDate plat february prsbuf with
    | none => .error dateError
    | some (february, rqyear, day) =>
      let (prsbuf, rest) := parseRequest 32 rest
      match parseClock plat prsbuf with
      | none => .error timeError
      | some (rqhour, rqmin, rqsec) => .ok (february, ⟨rqyear, day, rqhour, rqmin, rqsec, 0⟩, rest)

/-! ### Requests as texts -/

/-- The digits of a number. -/
def Digits : Type := {s : Bytes // s ≠ [] ∧ ∀ b ∈ s, isDigit b = true}

def Digits.value (s : Digits) : ℤ := ofDecimal s.1

/-- A date and a time that are valid for a request. -/
structure DateText where
  year : Digits
  month : Digits
  day : Digits
  hour : Digits
  minute : Digits
  second : Digits
  hyear : 1980 ≤ year.value ∧ year.value ≤ 3000
  hvalid : CalTime.Valid
    ⟨year.value, month.value, day.value, hour.value, minute.value, second.value⟩

namespace DateText

variable (t : DateText)

/-- `yyyy/mm/dd` -/
def date : Bytes := t.year.1 ++ 47 :: (t.month.1 ++ 47 :: t.day.1)

/-- `hh:mm:ss` -/
def clock : Bytes := t.hour.1 ++ 58 :: (t.minute.1 ++ 58 :: t.second.1)

def time : CalTime :=
  ⟨t.year.value, t.month.value, t.day.value, t.hour.value, t.minute.value, t.second.value⟩

end DateText

/-- A date, or `*`. -/
def limitText : Option DateText → Bytes
  | none => ascii "*"
  | some t => t.date ++ 32 :: t.clock

/-- The parts of a request as a text. -/
def requestText (station : Bytes) (location : Option Bytes) (channel : Bytes)
    (start finish : Option DateText) : Bytes :=
  station ++ 46 :: ((location.elim [] (· ++ [45])) ++ channel ++ 32 :: (limitText start
    ++ 32 :: limitText finish))

/-- A request with a valid station, a pattern and two valid dates. The first line of the reply
repeats its text, and has room for 53 characters of it. -/
structure DirRequest where
  station : Bytes
  location : Option Bytes
  channel : Bytes
  start : Option DateText
  finish : Option DateText
  hstation : (3 ≤ station.length ∧ station.length ≤ 5) ∧ 46 ∉ station
  hlocation : ∀ loc ∈ location, (1 ≤ loc.length ∧ loc.length ≤ 2) ∧ 45 ∉ loc ∧ 32 ∉ loc
  hchannel : (1 ≤ channel.length ∧ channel.length ≤ 3) ∧ 32 ∉ channel ∧
    (location = none → 45 ∉ channel)
  hlength : (requestText station location channel start finish).length ≤ 53

def DirRequest.text (r : DirRequest) : Bytes :=
  requestText r.station r.location r.channel r.start r.finish

/-! ### The words of a request -/

lemma toUpper_of_lt {b : UInt8} (h : b.toNat < 97) : toUpper b = b := by
  rw [toUpper, if_neg]
  simp only [UInt8.le_iff_toNat_le, UInt8.reduceToNat]
  omega

lemma toUpper_eq_iff {k : UInt8} (hk : k.toNat < 65) (c : UInt8) : toUpper c = k ↔ c = k := by
  rw [← UInt8.toNat_inj, ← UInt8.toNat_inj, toNat_toUpper]
  split_ifs <;> omega

/-- The characters of dates and times. -/
def IsDateChar (b : UInt8) : Prop := isDigit b = true ∨ b = 47 ∨ b = 58

lemma IsDateChar.toUpper_eq {b : UInt8} (h : IsDateChar b) : toUpper b = b := by
  refine toUpper_of_lt ?_
  rcases h with hdigit | rfl | rfl
  · have := (isDigit_iff b).mp hdigit
    omega
  · decide
  · decide

lemma IsDateChar.ne_space {b : UInt8} (h : IsDateChar b) : b ≠ 32 := by
  rintro rfl
  rcases h with h | h | h <;> exact absurd h (by decide)

lemma parseRequest_cons {srch : UInt8} {word : Bytes} (h : srch ∉ word) (rest : Bytes) :
    parseRequest srch (word ++ srch :: rest) = (word.map toUpper, rest) := by
  have hword : ∀ b ∈ word, (b != srch) = true := fun b hb => by
    simpa using fun heq : b = srch => h (heq ▸ hb)
  simp [parseRequest, List.takeWhile_append_of_pos hword, List.dropWhile_append_of_pos hword]

lemma parseRequest_end {srch : UInt8} {word : Bytes} (h : srch ∉ word) :
    parseRequest srch word = (word.map toUpper, []) := by
  have hword : ∀ b ∈ word, (b != srch) = true := fun b hb => by
    simpa using fun heq : b = srch => h (heq ▸ hb)
  simp [parseRequest, List.takeWhile_eq_self_iff.mpr hword, List.dropWhile_eq_nil_iff.mpr hword]

/-- The end of a text, or a space and more. -/
def EndsWord (tail : Bytes) : Prop := tail = [] ∨ ∃ rest, tail = 32 :: rest

lemma parseRequest_word {word tail : Bytes} (h : 32 ∉ word) (htail : EndsWord tail) :
    parseRequest 32 (word ++ tail) = (word.map toUpper, tail.drop 1) := by
  rcases htail with rfl | ⟨rest, rfl⟩
  · rw [List.append_nil, parseRequest_end h]
    rfl
  · exact parseRequest_cons h rest

lemma parseRequest_dateChars {word tail : Bytes} (h : ∀ b ∈ word, IsDateChar b)
    (htail : EndsWord tail) : parseRequest 32 (word ++ tail) = (word, tail.drop 1) := by
  rw [parseRequest_word (fun hmem => (h 32 hmem).ne_space rfl) htail,
    List.map_congr_left fun b hb => (h b hb).toUpper_eq, List.map_id']

/-! ### Dates -/

lemma Digits.readInt_eq (s : Digits) : readInt s.1 = some s.value := readInt_digits s.2.1 s.2.2

lemma Digits.isDateChar {s : Digits} {b : UInt8} (h : b ∈ s.1) : IsDateChar b :=
  .inl (s.2.2 b h)

/-- The table has room for every day of a month, if it has the leap day of its year. -/
lemma monthLength_le_table {y m february : ℤ} (hm : 1 ≤ m ∧ m ≤ 12)
    (hleast : 28 ≤ february) (hleap : IsLeap y → february = 29) :
    monthLength y m ≤ (daysMth february).getD m.toNat 0 := by
  have hfebruary : monthLength y 2 ≤ february := by
    simp only [monthLength, if_true]
    split_ifs with h
    · exact (hleap h).ge
    · exact hleast
  obtain ⟨hlow, hhigh⟩ := hm
  interval_cases m <;> simp [daysMth, hfebruary] <;> simp [monthLength]

/-- The day of the year in the table is late by the days its February has too many. -/
lemma tableDay_eq {m : ℤ} (hm : 1 ≤ m ∧ m ≤ 12) (y february d : ℤ) :
    tableDay february m d
      = dayOfYear y m d + if 2 < m then february - 28 - leapDay y else 0 := by
  rw [dayOfYear_of_month hm]
  obtain ⟨hlow, hhigh⟩ := hm
  interval_cases m <;> simp [tableDay, daysMth] <;> ring

/-- Three numbers with a character between them. -/
lemma scanNumbers_three (plat : Platform) {c : UInt8} (hc : isDigit c = false) (a b d : Digits)
    (ha : 0 ≤ a.value ∧ a.value < 10000) (hb : 0 ≤ b.value ∧ b.value < 10000)
    (hd : 0 ≤ d.value ∧ d.value < 10000) :
    scanNumbers plat [c, c] (a.1 ++ c :: (b.1 ++ c :: d.1)) = [a.value, b.value, d.value] := by
  rw [scanNumbers_cons plat hc _ a.readInt_eq, scanNumbers_cons plat hc _ b.readInt_eq,
    scanNumbers_end plat _ d.readInt_eq, intOfScan_of_small plat ha.1 ha.2,
    intOfScan_of_small plat hb.1 hb.2, intOfScan_of_small plat hd.1 hd.2]

/-- `days_mth[2]` after a date. -/
def nextFebruary (february : ℤ) : Option DateText → ℤ
  | none => february
  | some t => if t.year.value % 4 = 0 then 29 else february

lemma nextFebruary_ge {february : ℤ} (h : 28 ≤ february) (limit : Option DateText) :
    28 ≤ nextFebruary february limit := by
  cases limit with
  | none => exact h
  | some t =>
    simp only [nextFebruary]
    split_ifs <;> linarith

/-- The time that is searched for, of a date or of the first of January of `year`. -/
def searchedTime (year february : ℤ) : Option DateText → StdTime2
  | none => ⟨year, 1, 0, 0, 0, 0⟩
  | some t => ⟨t.year.value, tableDay (nextFebruary february (some t)) t.month.value t.day.value,
      t.hour.value, t.minute.value, t.second.value, 0⟩

namespace DateText

variable (t : DateText)

lemma isDateChar_date : ∀ b ∈ t.date, IsDateChar b := by
  intro b hb
  simp only [date, List.mem_append, List.mem_cons] at hb
  rcases hb with hb | rfl | hb | rfl | hb
  · exact Digits.isDateChar hb
  · exact .inr (.inl rfl)
  · exact Digits.isDateChar hb
  · exact .inr (.inl rfl)
  · exact Digits.isDateChar hb

lemma isDateChar_clock : ∀ b ∈ t.clock, IsDateChar b := by
  intro b hb
  simp only [clock, List.mem_append, List.mem_cons] at hb
  rcases hb with hb | rfl | hb | rfl | hb
  · exact Digits.isDateChar hb
  · exact .inr (.inr rfl)
  · exact Digits.isDateChar hb
  · exact .inr (.inr rfl)
  · exact Digits.isDateChar hb

lemma date_ne_star : t.date ≠ ascii "*" := by
  intro h
  have hmem : (47 : UInt8) ∈ t.date := List.mem_append_right _ List.mem_cons_self
  rw [h] at hmem
  exact absurd hmem (by decide)

/-- A valid date is accepted, with the days of February that the table has for its year. -/
lemma parseDate_date (plat : Platform) {february : ℤ} (hleast : 28 ≤ february) :
    parseDate plat february t.date = some (nextFebruary february (some t), t.year.value,
      tableDay (nextFebruary february (some t)) t.month.value t.day.value) := by
  have hmonth := t.hvalid.date.month
  have hone := t.hvalid.date.one_le
  have hle := t.hvalid.date.le_length
  have hyear := t.hyear
  simp only at hmonth hone hle
  have hdays : t.day.value
      ≤ (daysMth (nextFebruary february (some t))).getD t.month.value.toNat 0 := by
    refine hle.trans (monthLength_le_table hmonth ?_ ?_)
    · exact nextFebruary_ge hleast (some t)
    · intro hleap
      rw [nextFebruary, if_pos (Int.emod_eq_zero_of_dvd hleap.1)]
  have hday : t.day.value < 10000 := by linarith [day_le_31 t.hvalid.date]
  rw [parseDate, date, scanNumbers_three plat (by decide) _ _ _ ⟨by linarith, by linarith⟩
    ⟨by linarith, by linarith⟩ ⟨by linarith, hday⟩]
  have hyears : ¬ (t.year.value < 1980 ∨ t.year.value > 3000 ∨ t.month.value < 1 ∨
      t.month.value > 12) := by
    omega
  simp only [if_neg hyears]
  rw [if_neg]
  · rfl
  · exact not_or.mpr ⟨not_lt.mpr hone, not_lt.mpr hdays⟩

lemma parseClock_clock (plat : Platform) :
    parseClock plat t.clock = some (t.hour.value, t.minute.value, t.second.value) := by
  have hhour := t.hvalid.hour
  have hminute := t.hvalid.minute
  have hsecond := t.hvalid.second
  simp only at hhour hminute hsecond
  rw [parseClock, clock, scanNumbers_three plat (by decide) _ _ _ ⟨hhour.1, by linarith⟩
    ⟨hminute.1, by linarith⟩ ⟨hsecond.1, by linarith⟩]
  rw [if_neg]
  · rfl
  · simp only [List.getD_cons_zero, List.getD_cons_succ]
    omega

end DateText

lemma stCnvJulToStd2_first : stCnvJulToStd2 (julday2 1950 1 1) = ⟨1950, 1, 0, 0, 0, 0⟩ ∧
    stCnvJulToStd2 (julday2 3000 1 1) = ⟨3000, 1, 0, 0, 0, 0⟩ := by
  decide

/-- A valid date or `*` is accepted. -/
lemma parseLimit_text (plat : Platform) {year : ℤ} (hyear : year = 1950 ∨ year = 3000)
    (dateError timeError : DirreqError) {february : ℤ} (hleast : 28 ≤ february)
    (limit : Option DateText) {tail : Bytes} (htail : EndsWord tail) :
    parseLimit plat year dateError timeError february (limitText limit ++ tail)
      = .ok (nextFebruary february limit, searchedTime year february limit, tail.drop 1) := by
  unfold parseLimit
  cases limit with
  | none =>
    have hstar : parseRequest 32 (ascii "*" ++ tail) = (ascii "*", tail.drop 1) :=
      parseRequest_word (by decide) htail
    rw [limitText, hstar]
    simp only [if_true]
    rcases hyear with rfl | rfl
    · rw [stCnvJulToStd2_first.1]
      rfl
    · rw [stCnvJulToStd2_first.2]
      rfl
  | some t =>
    have hdate : parseRequest 32 (t.date ++ 32 :: (t.clock ++ tail)) = (t.date, t.clock ++ tail) :=
      parseRequest_dateChars t.isDateChar_date (.inr ⟨_, rfl⟩)
    have hclock : parseRequest 32 (t.clock ++ tail) = (t.clock, tail.drop 1) :=
      parseRequest_dateChars t.isDateChar_clock htail
    rw [limitText, List.append_assoc, List.cons_append, hdate]
    simp only [if_neg t.date_ne_star, t.parseDate_date plat hleast, hclock,
      t.parseClock_clock plat]
    rfl

/-! ### The pattern -/

lemma parsePattern_location (stale : Bytes) {loc channel : Bytes} (hdash : 45 ∉ loc)
    (hloc : 1 ≤ loc.length ∧ loc.length ≤ 2) (hchannel : 1 ≤ channel.length ∧ channel.length ≤ 3) :
    parsePattern stale (loc ++ 45 :: channel) = .ok (loc, channel) := by
  have htake : (loc ++ 45 :: channel).takeWhile (· != 45) = loc := by
    have hword : ∀ b ∈ loc, (b != 45) = true := fun b hb => by
      simpa using fun heq : b = 45 => hdash (heq ▸ hb)
    simp [List.takeWhile_append_of_pos hword]
  have hlength : (loc ++ 45 :: channel).length = loc.length + channel.length + 1 := by
    rw [List.length_append, List.length_cons, ← add_assoc]
  simp only [parsePattern, htake, hlength]
  rw [if_pos (by omega), if_neg (by omega)]
  simp

lemma parsePattern_channel (stale : Bytes) {channel : Bytes} (hdash : 45 ∉ channel)
    (hchannel : 1 ≤ channel.length ∧ channel.length ≤ 3) :
    parsePattern stale channel = .ok (ascii "  ", stale) := by
  have htake : channel.takeWhile (· != 45) = channel := by
    refine List.takeWhile_eq_self_iff.mpr fun b hb => ?_
    simpa using fun heq : b = 45 => hdash (heq ▸ hb)
  simp only [parsePattern, htake, lt_irrefl, if_false]
  rw [if_neg (by omega)]

/-! ### The interval -/

/-- The place of a date, or of the first of January of `year`. -/
def limitPlace (year : ℤ) : Option DateText → ℤ
  | none => yearPlace year
  | some t => t.time.place

/-- Whether one of the dates has a year that the table takes for a leap year. -/
def leapDaySeen (seen : List (Option DateText)) : Bool :=
  seen.any fun limit => limit.any fun t => t.year.value % 4 = 0

/-- Whether a date after February of a year without leap day is taken for the day after, because
of the dates read so far. -/
def isLate (seen : List (Option DateText)) (limit : Option DateText) : Bool :=
  limit.any fun t => 2 < t.month.value ∧ ¬ IsLeap t.year.value ∧ leapDaySeen seen = true

namespace DirRequest

variable (r : DirRequest)

/-- The interval of the request. -/
def askedStart : ℤ := limitPlace 1950 r.start

def askedFinish : ℤ := limitPlace 3000 r.finish

/-- The interval that is searched, which differs in the dates that are late. -/
def searchedStart : ℤ := r.askedStart + if isLate [r.start] r.start then 864000000 else 0

def searchedFinish : ℤ :=
  r.askedFinish + if isLate [r.start, r.finish] r.finish then 864000000 else 0

end DirRequest

/-- The time that is searched for is late where the table has a leap day too many. -/
lemma place_searchedTime {year february : ℤ} {limit : Option DateText}
    {seen : List (Option DateText)}
    (hfebruary : nextFebruary february limit = if leapDaySeen seen then 29 else 28)
    (hown : ∀ t ∈ limit, IsLeap t.year.value → leapDaySeen seen = true) :
    (searchedTime year february limit).place
      = limitPlace year limit + if isLate seen limit then 864000000 else 0 := by
  cases limit with
  | none =>
    simp [isLate, searchedTime, limitPlace, StdTime2.place, StdTime2.timeOfDay, yearPlace]
  | some t =>
    have hdays : (if 2 < t.month.value then nextFebruary february (some t) - 28
        - leapDay t.year.value else 0) = if isLate seen (some t) then 1 else 0 := by
      rw [hfebruary]
      by_cases hmonth : 2 < t.month.value
      · by_cases hleap : IsLeap t.year.value
        · simp [isLate, hmonth, hleap, leapDay, hown t rfl hleap]
        · by_cases hseen : leapDaySeen seen = true
          · simp [isLate, hmonth, hleap, leapDay, hseen]
          · simp [isLate, hmonth, hleap, leapDay, hseen]
      · simp [isLate, hmonth]
    simp only [searchedTime, limitPlace, StdTime2.place, StdTime2.timeOfDay, CalTime.place,
      DateText.time, dayNumber, tableDay_eq t.hvalid.date.month t.year.value, hdays]
    split_ifs <;> ring

lemma leapDaySeen_of_leap {seen : List (Option DateText)} {t : DateText} (hmem : some t ∈ seen)
    (hleap : IsLeap t.year.value) : leapDaySeen seen = true := by
  refine List.any_eq_true.mpr ⟨some t, hmem, ?_⟩
  simpa using Int.emod_eq_zero_of_dvd hleap.1

namespace DirRequest

variable (r : DirRequest)

lemma searchedStart_eq : (searchedTime 1950 28 r.start).place = r.searchedStart := by
  refine place_searchedTime ?_ fun t ht hleap =>
    leapDaySeen_of_leap (List.mem_singleton.mpr ht.symm) hleap
  cases r.start <;> simp [nextFebruary, leapDaySeen]

lemma searchedFinish_eq :
    (searchedTime 3000 (nextFebruary 28 r.start) r.finish).place = r.searchedFinish := by
  refine place_searchedTime ?_ fun t ht hleap =>
    leapDaySeen_of_leap (List.mem_pair.mpr (.inr ht.symm)) hleap
  cases r.start <;> cases r.finish <;> simp [nextFebruary, leapDaySeen]
  grind

end DirRequest

end StationProcessor.Netseed
