import StationProcessor.Diskloop.Reopen

/-!
# Data requests

`GetRecordRange` and `TransferData`, which `netreq` and `netseed` share word for word. The
number of records to send is computed from the slots of the first and the last one; it is right
only for a loop of a single record that intersects the request.
-/

namespace StationProcessor

open Fallible

variable {n : ℕ} {cfg : Config n} {ctx : DiskloopContext n} {slots : List (Record n)}

/-- What `GetRecordRange` returns through its pointers. -/
structure RecordRange where
  iFirst : ℤ
  iLast : ℤ
  iCount : ℤ
  iLoopSize : ℤ
deriving DecidableEq

/-- The end of `GetRecordRange`. -/
def recordRange (startIndex endIndex loopSize : ℤ) : RecordRange where
  iFirst := startIndex
  iLast := endIndex
  iCount := if startIndex < endIndex then endIndex - startIndex
    else (loopSize - startIndex) + endIndex
  iLoopSize := loopSize

/-- `GetRecordRange`; `startIndex` and `endIndex` are its uninitialised variables. -/
def getRecordRange (cfg : Config n) (ch : Channel) (cached : Option (DiskloopContext n))
    (files : ChannelFiles) (tempB : Bytes) (tBeginTime tEndTime : StdTime2)
    (startIndex endIndex : ℤ) : Except String RecordRange :=
  (adlOpen cfg ch cached files tempB).1.bind fun ctx =>
    match adlRangeIndices cfg ctx tBeginTime tEndTime true startIndex endIndex with
    | (some err, _, _) => .error err
    | (none, startIndex, endIndex) => .ok (recordRange startIndex endIndex ctx.size)

/-- Whether the span of a record intersects an interval. -/
def intersects (cfg : Config n) (tBegin tEnd : StdTime2) (r : Record n) : Bool :=
  startOf cfg r ≤ tEnd.instant && tBegin.instant ≤ endOf cfg r

/-- Whether the record in a slot intersects an interval. -/
def IntersectsAt (cfg : Config n) (slots : List (Record n)) (tBegin tEnd : StdTime2) (i : ℕ) :
    Prop :=
  startAt cfg slots i ≤ tEnd.instant ∧ tBegin.instant ≤ endAt cfg slots i

/-- The first and the last slot of an interval in a loop with newest slot `b`, `-1` without one. -/
def TrueRange (cfg : Config n) (slots : List (Record n)) (b : ℕ) (tBegin tEnd : StdTime2)
    (first last : ℤ) : Prop :=
  (first = -1 ∧ last = -1 ∧ ∀ i < slots.length, ¬ IntersectsAt cfg slots tBegin tEnd i) ∨
    ∃ i j : ℕ, first = i ∧ last = j ∧
      Bisect.IsBest (IntersectsAt cfg slots tBegin tEnd) (Rotated.Older b) slots.length i ∧
      Bisect.IsBest (IntersectsAt cfg slots tBegin tEnd) (fun x y => Rotated.Older b y x)
        slots.length j

lemma intersects_iff (slots : List (Record n)) {tBegin tEnd : StdTime2} {i : ℕ}
    (hi : i < slots.length) :
    intersects cfg tBegin tEnd slots[i] = true ↔ IntersectsAt cfg slots tBegin tEnd i := by
  simp only [intersects, IntersectsAt, Bool.and_eq_true, decide_eq_true_eq, startAt_eq hi,
    endAt_eq hi]

section Interval

variable {b : ℕ} {tBegin tEnd : StdTime2}

/-- In a loop of one record the range of an interval it belongs to is slot 0. -/
lemma TrueRange.single {r : Record n} {first last : ℤ}
    (h : TrueRange cfg [r] b tBegin tEnd first last) (hr : intersects cfg tBegin tEnd r = true) :
    first = 0 ∧ last = 0 := by
  rcases h with ⟨-, -, hno⟩ | ⟨i, j, rfl, rfl, hi, hj⟩
  · exact absurd ((intersects_iff [r] (i := 0) Nat.one_pos).mp hr) (hno 0 Nat.one_pos)
  · obtain rfl : i = 0 := Nat.lt_one_iff.mp hi.lt
    obtain rfl : j = 0 := Nat.lt_one_iff.mp hj.lt
    exact ⟨rfl, rfl⟩

end Interval

/-- Five seconds into the year 2000. -/
def fiveSeconds : StdTime2 := ⟨2000, 1, 0, 0, 5, 0⟩

/-- Three records in a loop of four slots. -/
def threeSlots : List (Record 512) := [logRecord 0 10, logRecord 0 20, logRecord 0 30]

end StationProcessor
