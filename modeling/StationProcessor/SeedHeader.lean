import Mathlib.Data.List.TakeWhile
import Mathlib.Data.Vector.Basic
import StationProcessor.Lib.Decimal
import StationProcessor.DccTime

/-!
# Bytes and the fixed header of a SEED record

The record layout is `seed_header` of `include/netreq.h`; its numbers are in network order.
-/

namespace StationProcessor

open Decimal

abbrev Bytes := List UInt8

/-- The characters of a C string, which hold no null. -/
abbrev CString := {s : Bytes // (0 : UInt8) ∉ s}

/-- The bytes of a text. -/
def ascii (s : String) : Bytes := s.toList.map fun c => c.toNat.toUInt8

/-- A record of `n` bytes, what one slot of a disk loop holds. -/
abbrev Record (n : ℕ) := List.Vector UInt8 n

/-- What C leaves to the platform: the width of a `long`, and the `int` that converting a
`double` or scanning a `%d` yields when the integral part or the number fits no `int`. -/
structure Platform where
  longBits : ℕ
  intOfHuge : ℤ → ℤ
  scanHuge : ℤ → ℤ

/-! ### Characters and numbers of a header -/

def isAlnum (b : UInt8) : Bool := isDigit b || (65 ≤ b && b ≤ 90) || (97 ≤ b && b ≤ 122)

/-- The bytes of a buffer up to its terminating null, as the string functions see it. -/
def cString (s : Bytes) : Bytes := s.takeWhile (· != 0)

/-- Whether `strncmp` finds no difference. -/
def strncmpEqual (a b : Bytes) (count : ℕ) : Bool := (cString a).take count = (cString b).take count

lemma zero_notMem_nil : (0 : UInt8) ∉ ([] : Bytes) := List.not_mem_nil

lemma zero_notMem_cString (s : Bytes) : 0 ∉ cString s := by
  intro hmem
  simpa using List.mem_takeWhile_imp hmem

lemma cString_of_notMem {s : Bytes} (h : 0 ∉ s) : cString s = s := by
  refine List.takeWhile_eq_self_iff.mpr fun b hb => ?_
  simpa using fun heq : b = 0 => h (heq ▸ hb)

lemma zero_notMem_anmo : 0 ∉ ascii "ANMO" := by decide

lemma zero_notMem_iu : 0 ∉ ascii "IU" := by decide

lemma zero_notMem_log : 0 ∉ ascii "LOG" := by decide

lemma zero_notMem_ofa : 0 ∉ ascii "OFA" := by decide

lemma zero_notMem_ofc : 0 ∉ ascii "OFC" := by decide

def byteAt (r : Bytes) (i : ℕ) : ℤ := ((r.getD i 0).toNat : ℤ)

/-- `ntohs` of the two bytes at offset `i`. -/
def ntohsAt (r : Bytes) (i : ℕ) : ℤ := byteAt r i * 256 + byteAt r (i + 1)

/-- `htons`, as the two bytes it puts into memory. -/
def htons (v : ℕ) : Bytes := [(v / 256).toUInt8, v.toUInt8]

/-- Conversion to `short`. -/
def toShort (n : ℤ) : ℤ := n.bmod 65536

/-- Conversion to `signed char`. -/
def toByte (n : ℤ) : ℤ := n.bmod 256

/-! ### The header -/

/-- What `ParseSeedHeader` returns through its pointers. -/
structure SeedHeader where
  station : Bytes
  chan : Bytes
  loc : Bytes
  recStart : StdTime2
  recEnd : StdTime2
  seqNum : ℤ
  samples : ℤ
deriving DecidableEq

/-- `(short)ntohs(sample_rate_factor)`. -/
def sampleRateFactor (r : Bytes) : ℤ := toShort (ntohsAt r 32)

/-- `(short)ntohs(sample_rate_multiplier)`. -/
def sampleRateMultiplier (r : Bytes) : ℤ := toShort (ntohsAt r 34)

/-- `dSampleRate`, from the four sign combinations of factor and multiplier. -/
def sampleRate (factor mult : ℤ) : ℚ :=
  if factor > 0 ∧ mult > 0 then (factor * mult : ℤ)
  else if factor > 0 ∧ mult < 0 then -((factor : ℚ) / (mult : ℚ))
  else if factor < 0 ∧ mult > 0 then -((mult : ℚ) / (factor : ℚ))
  else if factor < 0 ∧ mult < 0 then 1 / ((factor * mult : ℤ) : ℚ)
  else 0

/-- `(int)` of a `double`: truncation where the result fits an `int`. -/
def intOfDouble (plat : Platform) (q : ℚ) : ℤ :=
  let t := if q < 0 then q.ceil else q.floor
  if -2 ^ 31 ≤ t ∧ t < 2 ^ 31 then t else plat.intOfHuge t

/-- `iSpanTMSec`: the length of a record in tenth-milliseconds. -/
def spanTenthMsec (plat : Platform) (samples factor mult : ℤ) : ℤ :=
  if factor ≠ 0 ∧ mult ≠ 0 then
    intOfDouble plat ((samples : ℚ) / sampleRate factor mult * 10000)
  else 0

/-- The start time in the header. -/
def headerStart (r : Bytes) : StdTime2 where
  year := toShort (ntohsAt r 20)
  day := toShort (ntohsAt r 22)
  hour := toByte (byteAt r 24)
  minute := toByte (byteAt r 25)
  second := toByte (byteAt r 26)
  tenthMsec := toShort (ntohsAt r 28)

/-- The start time plus the span, split by C's truncating division. -/
def endOfSpan (start : StdTime2) (span : ℤ) : StdTime2 :=
  let spanSec := span.tdiv 10000
  let spanMin := spanSec.tdiv 60
  let spanHour := spanMin.tdiv 60
  stAddToTime2 start (spanHour.tdiv 24) (spanHour.tmod 24) (spanMin.tmod 60) (spanSec.tmod 60)
    (span.tmod 10000)

/-- `ParseSeedHeader`, which never fails. -/
def parseSeedHeader (plat : Platform) (r : Bytes) : SeedHeader :=
  let samples := ntohsAt r 30
  { station := ((r.drop 8).take 5).takeWhile isAlnum
    chan := (r.drop 15).take 3
    loc := (r.drop 13).take 2
    recStart := headerStart r
    recEnd := endOfSpan (headerStart r)
      (spanTenthMsec plat samples (sampleRateFactor r) (sampleRateMultiplier r))
    seqNum := match scanInt (cString (r.take 6)) with
      | some (n, _) => n
      | none => 0
    samples := samples }

/-- A log record: no samples and no rate, starting in the given minute and second of 2000. -/
def logRecord (minute second : UInt8) : Record 512 :=
  ⟨List.replicate 20 48 ++ [7, 208, 0, 1, 0, minute, second] ++ List.replicate 485 0, by
    rw [List.length_append, List.length_append, List.length_replicate, List.length_replicate]
    rfl⟩

end StationProcessor
