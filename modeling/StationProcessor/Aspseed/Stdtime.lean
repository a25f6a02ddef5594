import StationProcessor.SeedHeader
import StationProcessor.DccTime

/-!
# The times of the Java client

The classes of the package `dcctime`: days of the year and Julian days, times that are normalised
when they are built, and the span between two times. `YearMonthDay2Doy` keeps the lengths of the
months in an array shared by all calls, so every construction of a time takes this array and
returns it.
-/

namespace StationProcessor

/-! ### Dates -/

/-- `DaysInMonth` when the class is loaded. -/
def initDaysInMonth : List ℤ := [0, 31, 28, 31, 30, 31, 30, 31, 31, 30, 31, 30, 31]

/-- `isLeapYear`. -/
def isLeapYear (year : ℤ) : Bool := year % 4 = 0 ∧ year % 100 ≠ 0 ∨ year % 1000 = 0

/-- `YearMonthDay2Doy`: the array after the call and the day of the year. The loop runs over the
months before `month`, and over December at most. -/
def yearMonthDay2Doy (daysInMonth : List ℤ) (year month day : ℤ) : List ℤ × ℤ :=
  let daysInMonth := if isLeapYear year then daysInMonth.set 2 29 else daysInMonth
  (daysInMonth, ((daysInMonth.drop 1).take (month - 1).toNat).sum + day)

/-- `YearMonthDay2Julian`. No product leaves an `int` when the year is a `short`. -/
def yearMonthDay2Julian (year month day : ℤ) : ℤ :=
  let yearprime := if month = 1 ∨ month = 2 then year - 1 else year
  let monprime := if month = 1 ∨ month = 2 then month + 13 else month + 1
  day + 1720982 + (36525 * yearprime).tdiv 100 + (306001 * monprime).tdiv 10000

/-! ### Times -/

/-- `stdtime`. -/
structure Stdtime where
  year : ℤ
  day : ℤ
  hour : ℤ
  minute : ℤ
  second : ℤ
  tenthMsec : ℤ
  validDate : Bool
deriving DecidableEq

/-- The loop of `Normalize` over the years a day goes past; `fuel` bounds their number. -/
def yearsPast : ℕ → ℤ → ℤ → ℤ × ℤ
  | 0, year, iDay => (year, iDay)
  | fuel + 1, year, iDay =>
    if iDay > 366 ∨ isLeapYear year = false ∧ iDay > 365 then
      yearsPast fuel (toShort (year + 1)) (if isLeapYear year then iDay - 366 else iDay - 365)
    else (year, iDay)

/-- `Normalize`. -/
def Stdtime.normalize (t : Stdtime) : Stdtime :=
  let iSec := t.second + t.tenthMsec.tdiv 10000
  let iMin := t.minute + iSec.tdiv 60
  let iHour := t.hour + iMin.tdiv 60
  let iDay := t.day + iHour.tdiv 24
  let (year, iDay) := yearsPast (iDay.toNat / 365 + 1) t.year iDay
  { t with
    year := year
    day := toShort iDay
    hour := toByte (iHour.tmod 24)
    minute := toByte (iMin.tmod 60)
    second := toByte (iSec.tmod 60)
    tenthMsec := toShort (t.tenthMsec.tmod 1000) }

/-- `stdtime()`. -/
def stdtimeEmpty : Stdtime := ⟨0, 0, 0, 0, 0, 0, true⟩

/-- `stdtime` of a year and a day of the year. What the check of the ranges sets is set again
after it. -/
def stdtimeOfDay (year day hour minute second tenthMsec : ℤ) : Stdtime :=
  { (Stdtime.mk year day hour minute second tenthMsec true).normalize with validDate := true }

/-- `stdtime` of a year, a month and a day of the month. -/
def stdtimeOfMonth (daysInMonth : List ℤ) (year month dom hour minute second tenthMsec : ℤ) :
    List ℤ × Stdtime :=
  let (daysInMonth, doy) := yearMonthDay2Doy daysInMonth year month dom
  (daysInMonth, stdtimeOfDay year (toShort doy) hour minute second tenthMsec)

/-! ### Times in text -/

/-- The characters of a `String`. -/
abbrev JavaString := List UInt16

/-- The zeros of the decimal digits among the characters of 16 bits. -/
def digitZeros : List ℕ :=
  [0x0030, 0x0660, 0x06F0, 0x07C0, 0x0966, 0x09E6, 0x0A66, 0x0AE6, 0x0B66, 0x0BE6, 0x0C66, 0x0CE6,
    0x0D66, 0x0DE6, 0x0E50, 0x0ED0, 0x0F20, 0x1040, 0x1090, 0x17E0, 0x1810, 0x1946, 0x19D0, 0x1A80,
    0x1A90, 0x1B50, 0x1BB0, 0x1C40, 0x1C50, 0xA620, 0xA8D0, 0xA900, 0xA9D0, 0xA9F0, 0xAA50, 0xABF0,
    0xFF10]

/-- `Character.digit`; the characters that have one are those of `Character.isDigit`. -/
def characterDigit (c : UInt16) : Option ℤ :=
  (digitZeros.find? fun zero => zero ≤ c.toNat ∧ c.toNat < zero + 10).map
    fun zero => (c.toNat : ℤ) - zero

/-- `Integer.valueOf`, `Short.valueOf` and `Byte.valueOf` of digits. -/
def valueOf (s : JavaString) : ℤ := s.foldl (fun n c => 10 * n + (characterDigit c).getD 0) 0

/-- Whether a text has the given length, the given character at two places and digits elsewhere. -/
def hasFormat (s : JavaString) (length : ℕ) (separator : UInt16) (place place' : ℕ) : Bool :=
  s.length = length ∧ s.getD place 0 = separator ∧ s.getD place' 0 = separator ∧
    ∀ i < length, i ≠ place → i ≠ place' → (characterDigit (s.getD i 0)).isSome

/-- `stdtime` of a date `yyyy/mm/dd` and a time `hh:mm:ss`. -/
def stdtimeOfStrings (daysInMonth : List ℤ) (date time : JavaString) : List ℤ × Stdtime :=
  if hasFormat date 10 47 4 7 ∧ hasFormat time 8 58 2 5 then
    let year := valueOf (date.take 4)
    let (daysInMonth, doy) := yearMonthDay2Doy daysInMonth year (valueOf ((date.drop 5).take 2))
      (valueOf ((date.drop 8).take 2))
    let t := Stdtime.mk year (toShort doy) (valueOf (time.take 2)) (valueOf ((time.drop 3).take 2))
      (valueOf ((time.drop 6).take 2)) 0 false
    (daysInMonth, { t.normalize with validDate := true })
  else (daysInMonth, ⟨0, 0, 0, 0, 0, 0, false⟩)

/-! ### Earlier constructions -/

/-- The construction of a `stdtime`. -/
inductive StdtimeCall
  | empty
  | ofDay (year day hour minute second tenthMsec : ℤ)
  | ofMonth (year month dom hour minute second tenthMsec : ℤ)
  | ofStrings (date time : JavaString)

/-- The array after a construction. -/
def StdtimeCall.run (daysInMonth : List ℤ) : StdtimeCall → List ℤ
  | .empty => daysInMonth
  | .ofDay .. => daysInMonth
  | .ofMonth year month dom hour minute second tenthMsec =>
    (stdtimeOfMonth daysInMonth year month dom hour minute second tenthMsec).1
  | .ofStrings date time => (stdtimeOfStrings daysInMonth date time).1

/-! ### Spans -/

/-- `DeltaTime`. -/
structure DeltaTime where
  nday : ℤ
  nhour : ℤ
  nmin : ℤ
  nsec : ℤ
  ntenthMsecs : ℤ

/-- `MaxDeltaInt`. -/
def maxDeltaInt : ℤ := 20 * 86400 * 1000

/-- `DeltaTime` of two times. -/
def deltaTime (time1 time2 : Stdtime) : DeltaTime :=
  let dd := yearMonthDay2Julian time1.year 1 time1.day - yearMonthDay2Julian time2.year 1 time2.day
  let dh := time1.hour - time2.hour
  let dm := time1.minute - time2.minute
  let ds := time1.second - time2.second
  let dtenthMs := time1.tenthMsec - time2.tenthMsec
  let ds := ds + dtenthMs.tdiv 10000
  let dm := dm + ds.tdiv 60
  let dh := dh + dm.tdiv 60
  { nday := dd + dh.tdiv 24
    nhour := toByte (dh.tmod 24)
    nmin := toByte (dm.tmod 60)
    nsec := toByte (ds.tmod 60)
    ntenthMsecs := toShort (dtenthMs.tmod 10000) }

/-- `ExceedsMaxSeconds`. -/
def DeltaTime.exceedsMaxSeconds (d : DeltaTime) : Bool :=
  if d.nday < 1 then false else maxDeltaInt.tdiv d.nday < 24 * 60 * 60

/-- `toSeconds`; the sum is one of `int`s. -/
def DeltaTime.toSeconds (d : DeltaTime) : ℤ :=
  if d.exceedsMaxSeconds then maxDeltaInt
  else
    let total := wrapLong 32 (d.nday * 24 * 60 * 60 + d.nhour * 60 * 60 + d.nmin * 60 + d.nsec)
    let total := if d.ntenthMsecs > 0 then total + 1 else total
    if total > maxDeltaInt then maxDeltaInt else total

/-- The duration `Transfer` sends; it builds the finish before the start. -/
def transferDuration (daysInMonth : List ℤ)
    (finishDate finishTime startDate startTime : JavaString) :
    ℤ :=
  let (daysInMonth, tFinish) := stdtimeOfStrings daysInMonth finishDate finishTime
  let (_, tStart) := stdtimeOfStrings daysInMonth startDate startTime
  let tDelta := deltaTime tFinish tStart
  let duration := if tDelta.exceedsMaxSeconds then maxDeltaInt else tDelta.toSeconds
  if duration < 1 then 1 else duration

end StationProcessor
