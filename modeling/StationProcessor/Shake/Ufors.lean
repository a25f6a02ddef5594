import StationProcessor.SeedHeader

/-!
# Samples of the rotation sensor

`collectData` of `ufors` scans the bytes of a serial line for frames of five, stores the sample of
each and calls the library to pack what is stored. The samples are stored one place behind the ones
that the library is given.
-/

namespace StationProcessor

namespace Shake

/-! ### The program -/

/-- Whether the five bytes of the buffer are a frame. -/
def checksumHolds (buffer : Bytes) : Bool := (buffer.map UInt8.toNat).sum % 256 == 0xff

/-- The sample of a frame: the first byte is a signed `char`. -/
def sampleValue (frame : Bytes) : ℤ :=
  toByte (byteAt frame 0) * 0x10000 + byteAt frame 1 * 0x100 + byteAt frame 2

/-- The library's part of `msr_pack`: of the array it is given it packs so many samples into a
record each time it calls `record_handler`. -/
structure Packer where
  counts : List ℤ → List ℕ
  sum_le : ∀ given, (counts given).sum ≤ given.length

/-- What happens when a frame was read: `time_status`, or that `gpsTime` returned an error; whether
ten seconds have passed since the start time of the samples; and what is packed. -/
structure FrameEvent where
  gps : Option UInt8
  gap : Bool
  pack : Packer

/-- A call of `read`: how many more bytes than one there are, if there is room for them. -/
structure ReadEvent where
  more : ℕ
  frame : FrameEvent

/-- The variables of `collectData` and the bytes that are still to come; `buffer` holds `readcnt`
bytes. -/
structure Ufors where
  stream : Bytes
  buffer : Bytes
  synccount : ℕ
  iMeasureCount : ℕ
  bNewRun : Bool
  oldTimeStatus : UInt8
  sample : ℕ → ℤ

/-- A call of `msr_pack`: the frame it follows, whether this one started a run, the value that stood
in the last place of the array before it, the array itself, and how many samples were packed. -/
structure PackCall where
  frame : Bytes
  started : Bool
  last : ℤ
  given : List ℤ
  packed : ℕ

/-- The number of places of `sample`. -/
def sampleSize : ℕ := 8192 * 8

def Ufors.init (stream : Bytes) : Ufors where
  stream := stream
  buffer := []
  synccount := 0
  iMeasureCount := 0
  bNewRun := true
  oldTimeStatus := 7
  sample := fun _ => 0

/-- The first `iMeasureCount` places of `sample`. -/
def Ufors.given (s : Ufors) : List ℤ := (List.range s.iMeasureCount).map s.sample

/-- The part of `record_handler` that shifts the samples. -/
def recordHandler (s : Ufors) (iPackCount : ℕ) : Ufors :=
  { s with
    sample := fun i =>
      if i < s.iMeasureCount - iPackCount then s.sample (i + iPackCount) else s.sample i
    iMeasureCount := s.iMeasureCount - iPackCount }

/-- `bNewRun` and `old_time_status` after the call of `gpsTime`. -/
def checkTime (e : FrameEvent) (s : Ufors) : Ufors :=
  let status := e.gps.getD 255
  { s with
    bNewRun := s.bNewRun || e.gps.isNone || s.oldTimeStatus != status
    oldTimeStatus := status }

/-- Store the sample, and start a new run if that is due. -/
def storeSample (e : FrameEvent) (value : ℤ) (s : Ufors) : Ufors :=
  let iMeasureCount := s.iMeasureCount + 1
  { s with
    sample := Function.update s.sample iMeasureCount value
    iMeasureCount := if e.gap || s.bNewRun then 1 else iMeasureCount
    bNewRun := false }

/-- What follows a frame, up to the next read; `none` when `sample` has no place for it. -/
def collectFrame (e : FrameEvent) (frame : Bytes) (s : Ufors) : Option (Ufors × PackCall) :=
  if sampleSize ≤ s.iMeasureCount + 1 then none
  else
    let s := checkTime e s
    let started := e.gap || s.bNewRun
    let t := storeSample e (sampleValue frame) s
    let counts := e.pack.counts t.given
    some (counts.foldl recordHandler t,
      { frame := frame
        started := started
        last := s.sample (if started then 0 else s.iMeasureCount)
        given := t.given
        packed := counts.sum })

/-- A checksum error: a run in progress is ended, and the first byte is given up. -/
def checksumError (s : Ufors) : Ufors :=
  { s with
    synccount := s.synccount + 1
    bNewRun := if s.synccount + 1 < 10 ∨ s.iMeasureCount > 0 then
      if s.iMeasureCount > 0 then true else s.bNewRun else s.bNewRun
    buffer := s.buffer.drop 1 }

/-- A `read` and what follows it. -/
def readStep (s : Ufors) (e : ReadEvent) : Option (Ufors × Option PackCall) :=
  let room := min (e.more + 1) (5 - s.buffer.length)
  let s := { s with buffer := s.buffer ++ s.stream.take room, stream := s.stream.drop room }
  if s.buffer.length = 5 then
    if checksumHolds s.buffer then
      (collectFrame e.frame s.buffer { s with buffer := [] }).map fun (s, call) => (s, some call)
    else some (checksumError s, none)
  else some (s, none)

/-- The calls of `msr_pack` in a run of `collectData`, and the variables behind it. -/
def collectData : Ufors → List ReadEvent → List PackCall × Ufors
  | s, [] => ([], s)
  | s, e :: events =>
    match readStep s e with
    | none => ([], s)
    | some (s, call) =>
      let (calls, s) := collectData s events
      (call.toList ++ calls, s)

/-! ### What it is to do -/

/-- The frames of a stream: the next five bytes with a right checksum are the next frame. -/
def frames : Bytes → List Bytes
  | a :: b :: c :: d :: e :: rest =>
    if checksumHolds [a, b, c, d, e] then [a, b, c, d, e] :: frames rest
    else frames (b :: c :: d :: e :: rest)
  | _ => []

/-- The samples that are not yet packed at a call, given those that were left by the last one. -/
def PackCall.pending (call : PackCall) (left : List ℤ) : List ℤ :=
  if call.started then [sampleValue call.frame] else left ++ [sampleValue call.frame]

/-- Every call is given the samples of the run that are not yet packed. -/
def GivesPending : List ℤ → List PackCall → Prop
  | _, [] => True
  | left, call :: calls =>
    call.given = call.pending left ∧ GivesPending ((call.pending left).drop call.packed) calls

/-- What `collectData` does with the part of the stream it has read. -/
structure CollectsRight (stream : Bytes) (events : List ReadEvent) : Prop where
  frames : ∃ consumed, stream = consumed ++ (collectData (.init stream) events).2.stream ∧
    (collectData (.init stream) events).1.map PackCall.frame = Shake.frames consumed
  given : GivesPending [] (collectData (.init stream) events).1

/-! ### The array of samples -/

section Samples

variable {s : Ufors} {e : FrameEvent}

lemma length_given (s : Ufors) : s.given.length = s.iMeasureCount := by simp [Ufors.given]

lemma given_recordHandler (s : Ufors) (k : ℕ) : (recordHandler s k).given = s.given.drop k := by
  apply List.ext_getElem
  · simp [Ufors.given, recordHandler]
  · intro i hi hi'
    rw [length_given] at hi
    have hlt : i < s.iMeasureCount - k := hi
    simp [Ufors.given, recordHandler, hlt, Nat.add_comm k]

/-- The records take their samples from the front, one after the other. -/
lemma given_foldl_recordHandler (counts : List ℕ) (s : Ufors) :
    (counts.foldl recordHandler s).given = s.given.drop counts.sum := by
  induction counts generalizing s with
  | nil => rfl
  | cons k counts ih =>
    rw [List.foldl_cons, ih, given_recordHandler, List.drop_drop, List.sum_cons]

lemma foldl_recordHandler_stream (counts : List ℕ) (s : Ufors) :
    (counts.foldl recordHandler s).stream = s.stream ∧
      (counts.foldl recordHandler s).buffer = s.buffer := by
  induction counts generalizing s with
  | nil => exact ⟨rfl, rfl⟩
  | cons k counts ih => exact ih (recordHandler s k)

/-- The new sample is not given: the last place is one that was filled before. -/
lemma given_storeSample (e : FrameEvent) (value : ℤ) (s : Ufors) :
    (storeSample e value s).given =
      (if e.gap || s.bNewRun then [] else s.given)
        ++ [s.sample (if e.gap || s.bNewRun then 0 else s.iMeasureCount)] := by
  have hkeep : ∀ i ≤ s.iMeasureCount,
      Function.update s.sample (s.iMeasureCount + 1) value i = s.sample i := by
    intro i hi
    exact Function.update_of_ne (Nat.lt_succ_of_le hi).ne _ _
  cases hstart : e.gap || s.bNewRun with
  | true => simp [Ufors.given, storeSample, hstart]
  | false =>
    simp only [Ufors.given, storeSample, hstart, Bool.false_eq_true, if_false, List.range_succ,
      List.map_append, List.map_singleton, hkeep _ le_rfl]
    congr 1
    apply List.map_congr_left
    intro i hi
    exact hkeep i (List.mem_range.mp hi).le

/-- What a frame leaves, and the call it makes. -/
lemma collectFrame_spec {frame : Bytes} {s' : Ufors} {call : PackCall}
    (h : collectFrame e frame s = some (s', call)) :
    call.frame = frame ∧ s'.stream = s.stream ∧ s'.buffer = s.buffer ∧
      call.given = (if call.started then [] else s.given) ++ [call.last] ∧
      s'.given = call.given.drop call.packed := by
  unfold collectFrame at h
  split_ifs at h
  obtain ⟨rfl, rfl⟩ := Prod.mk.inj (Option.some.inj h)
  obtain ⟨hstream, hbuffer⟩ := foldl_recordHandler_stream
    (e.pack.counts (storeSample e (sampleValue frame) (checkTime e s)).given)
    (storeSample e (sampleValue frame) (checkTime e s))
  exact ⟨rfl, hstream, hbuffer, given_storeSample _ _ _, given_foldl_recordHandler _ _⟩

/-- What a read does that gets some bytes: it waits for more, gives up the first byte of a wrong
window, or recognises a frame. -/
inductive ReadCases (s : Ufors) (got rest : Bytes) : Ufors → Option PackCall → Prop
  | waits {s' : Ufors} (stream : s'.stream = rest) (buffer : s'.buffer = s.buffer ++ got)
      (given : s'.given = s.given) (short : s'.buffer.length < 5) : ReadCases s got rest s' none
  | rejects {s' : Ufors} (stream : s'.stream = rest) (buffer : s'.buffer = (s.buffer ++ got).drop 1)
      (given : s'.given = s.given) (five : (s.buffer ++ got).length = 5)
      (wrong : checksumHolds (s.buffer ++ got) = false) : ReadCases s got rest s' none
  | recognises {s' : Ufors} {call : PackCall} (stream : s'.stream = rest) (buffer : s'.buffer = [])
      (given : call.given = (if call.started then [] else s.given) ++ [call.last])
      (left : s'.given = call.given.drop call.packed) (frame : call.frame = s.buffer ++ got)
      (five : (s.buffer ++ got).length = 5)
      (right : checksumHolds (s.buffer ++ got) = true) : ReadCases s got rest s' (some call)

lemma readStep_cases {e : ReadEvent} {s' : Ufors} {call : Option PackCall}
    (hroom : s.buffer.length < 5) (h : readStep s e = some (s', call)) :
    ∃ got rest, s.stream = got ++ rest ∧ ReadCases s got rest s' call := by
  refine ⟨_, _, (List.take_append_drop (min (e.more + 1) (5 - s.buffer.length)) s.stream).symm, ?_⟩
  simp only [readStep] at h
  split_ifs at h with hfive hsum
  · obtain ⟨⟨t, call'⟩, hcollect, heq⟩ := Option.map_eq_some_iff.mp h
    obtain ⟨rfl, rfl⟩ := Prod.mk.inj heq
    obtain ⟨hframe, hstream, hbuffer, hgiven, hleft⟩ := collectFrame_spec hcollect
    exact .recognises hstream hbuffer hgiven hleft hframe hfive hsum
  · obtain ⟨rfl, rfl⟩ := Prod.mk.inj (Option.some.inj h)
    exact .rejects rfl rfl rfl hfive (Bool.eq_false_iff.mpr hsum)
  · obtain ⟨rfl, rfl⟩ := Prod.mk.inj (Option.some.inj h)
    refine .waits rfl rfl rfl (lt_of_le_of_ne ?_ hfive)
    rw [List.length_append, List.length_take]
    omega

end Samples

/-! ### The scanner -/

lemma frames_short {bytes : Bytes} (h : bytes.length < 5) : frames bytes = [] := by
  match bytes with
  | [] | [_] | [_, _] | [_, _, _] | [_, _, _, _] => rfl
  | _ :: _ :: _ :: _ :: _ :: _ =>
    simp only [List.length_cons] at h
    omega

/-- A window of five bytes is a frame, or gives up its first byte. -/
lemma frames_window {window : Bytes} (h : window.length = 5) (rest : Bytes) :
    frames (window ++ rest) = if checksumHolds window then window :: frames rest
      else frames (window.drop 1 ++ rest) := by
  match window with
  | [] | [_] | [_, _] | [_, _, _] | [_, _, _, _] => simp at h
  | [a, b, c, d, e] => exact frames.eq_1 a b c d e rest
  | _ :: _ :: _ :: _ :: _ :: _ :: _ =>
    simp only [List.length_cons] at h
    omega

variable {s s' : Ufors}

lemma ReadCases.frames {got rest : Bytes} {call : Option PackCall}
    (h : ReadCases s got rest s' call) (more : Bytes) :
    frames (s.buffer ++ got ++ more)
        = call.toList.map PackCall.frame ++ Shake.frames (s'.buffer ++ more) ∧
      s'.buffer.length < 5 := by
  cases h with
  | waits _ buffer _ short =>
    rw [buffer]
    exact ⟨rfl, buffer ▸ short⟩
  | rejects _ buffer _ five wrong =>
    rw [frames_window five, wrong, buffer]
    exact ⟨rfl, by rw [List.length_drop, five]; norm_num⟩
  | recognises _ buffer _ _ frame five right =>
    rw [frames_window five, right, buffer, ← frame]
    exact ⟨rfl, by norm_num⟩

/-- A run recognises the frames of the bytes it has read. -/
lemma collectData_frames (hroom : s.buffer.length < 5) (events : List ReadEvent) :
    ∃ consumed, s.stream = consumed ++ (collectData s events).2.stream ∧
      (collectData s events).2.buffer.length < 5 ∧ ∀ more,
      frames (s.buffer ++ consumed ++ more) = (collectData s events).1.map PackCall.frame
        ++ frames ((collectData s events).2.buffer ++ more) := by
  induction events generalizing s with
  | nil => exact ⟨[], rfl, hroom, fun more => by simp [collectData]⟩
  | cons e events ih =>
    cases hstep : readStep s e with
    | none =>
      refine ⟨[], ?_⟩
      simp [collectData, hstep, hroom]
    | some result =>
      obtain ⟨s', call⟩ := result
      obtain ⟨got, rest, hstream, hcases⟩ := readStep_cases hroom hstep
      have hrest : s'.stream = rest := by cases hcases <;> assumption
      obtain ⟨consumed, hconsumed, hlast, hframes⟩ := ih (hcases.frames []).2
      refine ⟨got ++ consumed, ?_, ?_, ?_⟩
      · simp only [collectData, hstep]
        rw [hstream, ← hrest, hconsumed, List.append_assoc]
      · simpa only [collectData, hstep] using hlast
      · intro more
        simp only [collectData, hstep]
        have hnow := (hcases.frames (consumed ++ more)).1
        have hlater := hframes more
        simp only [List.append_assoc] at hnow hlater ⊢
        rw [hnow, hlater]
        simp

/-! ### The packer -/

lemma pending_eq_iff {call : PackCall} {left : List ℤ}
    (h : call.given = (if call.started then [] else left) ++ [call.last]) :
    call.given = call.pending left ↔ sampleValue call.frame = call.last := by
  rw [h, PackCall.pending]
  cases call.started <;> simp [eq_comm]

/-- From a point of a run on. -/
lemma collectData_given (hroom : s.buffer.length < 5) (events : List ReadEvent) :
    GivesPending s.given (collectData s events).1 ↔
      ∀ call ∈ (collectData s events).1, sampleValue call.frame = call.last := by
  induction events generalizing s with
  | nil => simp [collectData, GivesPending]
  | cons e events ih =>
    cases hstep : readStep s e with
    | none => simp [collectData, hstep, GivesPending]
    | some result =>
      obtain ⟨s', call⟩ := result
      obtain ⟨got, rest, -, hcases⟩ := readStep_cases hroom hstep
      have hrun := ih (hcases.frames []).2
      simp only [collectData, hstep]
      cases hcases with
      | waits _ _ given _ => rwa [← given]
      | rejects _ _ given _ _ => rwa [← given]
      | @recognises call _ _ given left _ _ _ =>
        have heq := pending_eq_iff given
        simp only [Option.toList_some, List.singleton_append, GivesPending, List.forall_mem_cons,
          ← heq]
        refine and_congr_right fun hgiven => ?_
        rw [← hgiven, ← left]
        exact hrun

/-- The frames are recognised in every run; the packer is given the right samples in exactly those
runs in which every frame brings the value that already stands in the last place of the array. -/
theorem collectsRight_iff (stream : Bytes) (events : List ReadEvent) :
    CollectsRight stream events ↔
      ∀ call ∈ (collectData (.init stream) events).1, sampleValue call.frame = call.last := by
  have hroom : (Ufors.init stream).buffer.length < 5 := by norm_num [Ufors.init]
  have hgiven := collectData_given hroom events
  refine ⟨fun h => hgiven.mp h.given, fun h => ⟨?_, hgiven.mpr h⟩⟩
  obtain ⟨consumed, hconsumed, hlast, hframes⟩ := collectData_frames hroom events
  have hall := hframes []
  rw [List.append_nil, List.append_nil, frames_short hlast, List.append_nil] at hall
  exact ⟨consumed, hconsumed, hall.symm⟩

/-- A library that never has a record full. -/
def packNone : Packer := ⟨fun _ => [], fun given => Nat.zero_le given.length⟩

/-- One read of a frame with the sample 1. -/
def oneFrame : List ReadEvent := [⟨4, ⟨some 0, false, packNone⟩⟩]

/-- The first call is given the place in front of the sample. -/
theorem collectsRight_not : ¬ ∀ stream events, CollectsRight stream events := by
  intro h
  have hgiven := (h [0, 0, 1, 0, 254] oneFrame).given
  exact absurd hgiven.1 (by decide)

end Shake

end StationProcessor
