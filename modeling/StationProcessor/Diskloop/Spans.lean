import StationProcessor.Lib.Fallible
import StationProcessor.Lib.Runs
import StationProcessor.TimeOrder

/-!
# Span reports

`RangeSpans` walks over the slots of an open loop and prints a line for each run of records
without a gap. Its loop ends when a wrapping index meets an end index, so equal arguments stand
for the whole loop, and the first line reports slot 0 as its start.
-/

namespace StationProcessor

open Runs

variable {n : ℕ}

/-! ### The loop -/

/-- What a line of the report says about one span. -/
structure Span where
  startTime : StdTime2
  endTime : StdTime2
  count : ℤ
  startIndex : ℤ
deriving DecidableEq

/-- The variables of the loop in `RangeSpans`, with the lines printed and the slots read. -/
structure SpanLoop where
  first : Bool
  index : ℤ
  spanStartIndex : ℤ
  spanCount : ℤ
  spanStartTime : StdTime2
  spanEndTime : StdTime2
  printed : List Span
  visited : List ℤ
deriving DecidableEq

/-- The span that is open. -/
def SpanLoop.span (s : SpanLoop) : Span :=
  ⟨s.spanStartTime, s.spanEndTime, s.spanCount, s.spanStartIndex⟩

/-- The variables before the loop; the two times are set before they are used. -/
def spanInit (startIndex : ℤ) : SpanLoop where
  first := true
  index := startIndex
  spanStartIndex := 0
  spanCount := 0
  spanStartTime := ⟨0, 0, 0, 0, 0, 0⟩
  spanEndTime := ⟨0, 0, 0, 0, 0, 0⟩
  printed := []
  visited := []

/-- `index++`, back to 0 at the end of the loop. -/
def nextSlot (size index : ℤ) : ℤ := if index + 1 ≥ size then 0 else index + 1

/-- The body of the loop after the header was read. -/
def spanStep (w : ℕ) (size : ℤ) (h : SeedHeader) (s : SpanLoop) : SpanLoop :=
  let deltaTms := compareDccTimes w h.recStart s.spanEndTime
  let s :=
    if s.first then { s with first := false, spanStartTime := h.recStart }
    else if deltaTms > 10 ∨ deltaTms < -10 then
      { s with
        printed := s.printed ++ [s.span]
        spanStartTime := h.recStart
        spanStartIndex := s.index
        spanCount := 0 }
    else s
  { s with
    spanEndTime := h.recEnd
    visited := s.visited ++ [s.index]
    index := nextSlot size s.index
    spanCount := s.spanCount + 1 }

section Loop

variable {m : Type → Type} [Monad m] (readHeader : ℤ → m SeedHeader) (w : ℕ) (size endIndex : ℤ)

/-- `while (!complete)`; `none` when the loop has not ended within `fuel` rounds. -/
def spanRun : ℕ → SpanLoop → m (Option SpanLoop)
  | 0, _ => pure none
  | fuel + 1, s => do
    let h ← readHeader s.index
    let s := spanStep w size h s
    if s.index = endIndex then pure (some s) else spanRun fuel s

end Loop

/-- `end_index`: one past the last record, unless both arguments are equal. -/
def spanEnd (size firstRecord lastRecord : ℤ) : ℤ :=
  if firstRecord ≠ lastRecord then nextSlot size lastRecord else lastRecord

/-- What a finished run of `RangeSpans` has read and printed. -/
structure SpanReport where
  visited : List ℤ
  spans : List Span
deriving DecidableEq

def SpanLoop.report (s : SpanLoop) : SpanReport := ⟨s.visited, s.printed ++ [s.span]⟩

/-- `RangeSpans` on an open loop of the given size. -/
def rangeSpans {m : Type → Type} [Monad m] (readHeader : ℤ → m SeedHeader) (w : ℕ) (size : ℤ)
    (firstRecord lastRecord : ℤ) (fuel : ℕ) : m (Option SpanReport) := do
  let s ← spanRun readHeader w size (spanEnd size firstRecord lastRecord) fuel
    (spanInit firstRecord)
  return s.map SpanLoop.report

/-! ### Headers -/

/-- `index * context->record_size`, an `int`. -/
def headerOffset (n : ℕ) (index : ℤ) : ℤ := (index * n).bmod (2 ^ 32)

/-- `FRAME_SIZE`. -/
def frameSize : ℕ := 64

/-- The header frame at an offset lies in the file. -/
def Readable (ctx : DiskloopContext n) (index : ℤ) : Prop :=
  0 ≤ headerOffset n index ∧ headerOffset n index + frameSize ≤ ctx.loopFp.data.length

instance (ctx : DiskloopContext n) : DecidablePred (Readable ctx) := fun index =>
  inferInstanceAs (Decidable (0 ≤ headerOffset n index ∧
    headerOffset n index + frameSize ≤ ctx.loopFp.data.length))

/-- The parsed header frame at the offset of a slot. -/
def slotHeader (cfg : Config n) (ctx : DiskloopContext n) (index : ℤ) : SeedHeader :=
  parseSeedHeader cfg.plat
    ((ctx.loopFp.data.drop (headerOffset n index).toNat).take frameSize)

/-- Seek to the header of a slot and read it. -/
def readHeader (cfg : Config n) (ctx : DiskloopContext n) (index : ℤ) :
    Except String SeedHeader :=
  if headerOffset n index < 0 then
    .error ("RangeSpans: Unable seek to header " ++ toString index ++ " in " ++ ctx.loopName)
  else if headerOffset n index + frameSize ≤ ctx.loopFp.data.length then
    .ok (slotHeader cfg ctx index)
  else
    .error ("RangeSpans: Unable to read header " ++ toString index ++ " in " ++ ctx.loopName)

lemma readHeader_of_readable (cfg : Config n) {ctx : DiskloopContext n} {index : ℤ}
    (h : Readable ctx index) : readHeader cfg ctx index = .ok (slotHeader cfg ctx index) := by
  rw [readHeader, if_neg (not_lt.mpr h.1), if_pos h.2]

lemma readHeader_of_not_readable (cfg : Config n) {ctx : DiskloopContext n} {index : ℤ}
    (h : ¬ Readable ctx index) : ∃ err, readHeader cfg ctx index = .error err := by
  unfold readHeader
  split_ifs with h0 h1
  · exact ⟨_, rfl⟩
  · exact absurd ⟨not_lt.mp h0, h1⟩ h
  · exact ⟨_, rfl⟩

end StationProcessor
