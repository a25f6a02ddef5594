import StationProcessor.Lib330.CompressWords

/-!
# Records in progress

A record is filled from behind its blockettes, a word at a time. What it holds is an invariant of
the operations on it: words and frames are put in, blockettes move the data, and the record that is
finished decodes to the samples that were put in.
-/

namespace StationProcessor

namespace Lib330

open Shake (Frame PackedWord Filled ctrlOf ctrlOf_append_succ valsPerFrame valsPerFrame_eq setFrame
  decoder2)

variable {pcom : ComPacket} {x0 prev : BitVec 32} {ws : List PackedWord}
  {xs ys : List (BitVec 32)}

/-! ### Differences -/

/-- The differences of samples, the first one from `prev`. -/
def diffsFrom : BitVec 32 → List (BitVec 32) → List (BitVec 32)
  | _, [] => []
  | prev, x :: xs => (x - prev) :: diffsFrom x xs

@[simp] lemma diffsFrom_eq_nil_iff : diffsFrom prev xs = [] ↔ xs = [] := by
  cases xs <;> simp [diffsFrom]

lemma diffsFrom_append :
    diffsFrom prev (xs ++ ys) = diffsFrom prev xs ++ diffsFrom (xs.getLastD prev) ys := by
  induction xs generalizing prev with
  | nil => rfl
  | cons x xs ih =>
    rw [List.cons_append, diffsFrom, diffsFrom, ih, List.getLastD_cons, List.cons_append]

lemma getLastD_map_range (f : ℕ → BitVec 32) (n : ℕ) :
    ((List.range n).map f).getLastD prev = if n = 0 then prev else f (n - 1) := by
  cases n with
  | zero => rfl
  | succ n => simp [List.range_succ]

/-- The differences of samples that are given by their places. -/
lemma diffsFrom_map_range (f : ℕ → BitVec 32) (n : ℕ) : diffsFrom prev ((List.range n).map f) =
    (List.range n).map fun k => f k - if k = 0 then prev else f (k - 1) := by
  induction n with
  | zero => rfl
  | succ n ih =>
    rw [List.range_succ, List.map_append, diffsFrom_append, ih, getLastD_map_range,
      List.map_append]
    rfl

/-- A list is given by its places. -/
lemma map_range_getD (xs : List (BitVec 32)) :
    (List.range xs.length).map (fun i => xs.getD i 0) = xs := by
  apply List.ext_getElem
  · simp
  · intro i hi hi'
    simp [hi']

/-! ### The frames of data -/

/-- The number of frames that are stored behind the blockettes. -/
def ComPacket.stored (pcom : ComPacket) : ℕ := pcom.frame - (pcom.blocketteCount + 1)

/-- The frame that is filled. -/
def ComPacket.current (pcom : ComPacket) : Frame :=
  ⟨pcom.flagWord, fun j => WordBytes.ofWord true (pcom.frameBuffer (j + 1))⟩

/-- The frames of data, with the one that is filled at its place. -/
def ComPacket.dataFrames (pcom : ComPacket) : ℕ → Frame := fun k =>
  if k = pcom.stored then pcom.current else pcom.frames (pcom.blocketteCount + 1 + k)

/-- Appending a code to the control word. -/
lemma shiftLeft_add_code {code : BitVec 32} (hcode : code &&& 3#32 = code) (v : BitVec 32) :
    (v <<< 2) + code = (v <<< 2) ||| code := by
  refine BitVec.add_eq_or_of_and_eq_zero _ _ ?_
  rw [← hcode]
  apply BitVec.eq_of_getLsbD_eq
  intro i hi
  by_cases hi2 : i < 2
  · simp [hi2]
  · have hthree : (3#32).getLsbD i = false := by
      refine Nat.testBit_lt_two_pow (lt_of_lt_of_le (by decide : (3#32).toNat < 2 ^ 2) ?_)
      exact Nat.pow_le_pow_right (by norm_num) (by omega)
    simp [hthree]

/-- Putting a word is putting it into the frames of data. -/
lemma ComPacket.dataFrames_putWord {code value : BitVec 32} (hcode : code &&& 3#32 = code)
    (hblock : 1 ≤ pcom.block) : (pcom.putWord code value).dataFrames =
      setFrame pcom.dataFrames pcom.stored fun f =>
        f.put (pcom.block - 1) code (bigEndian.fw value) := by
  have hstored : (pcom.putWord code value).stored = pcom.stored := rfl
  funext k
  rw [ComPacket.dataFrames, hstored]
  by_cases hk : k = pcom.stored
  · subst hk
    rw [if_pos rfl, Shake.setFrame_self, ComPacket.dataFrames, if_pos rfl]
    simp only [ComPacket.current, Frame.put, ComPacket.putWord, shiftLeft_add_code hcode,
      Frame.mk.injEq, true_and]
    funext j
    by_cases hj : j = pcom.block - 1
    · subst hj
      simp [Nat.sub_add_cancel hblock, Shake.Swapping.fw, Shake.Swapping.gswap4]
    · rw [Function.update_of_ne (by omega), Function.update_of_ne hj]
  · rw [if_neg hk, Shake.setFrame_of_ne hk, ComPacket.dataFrames, if_neg hk]
    rfl

/-- Storing a frame leaves the frames of data, and clears the next one. -/
lemma ComPacket.dataFrames_storeFrame (hframe : pcom.blocketteCount + 1 ≤ pcom.frame) :
    pcom.storeFrame.stored = pcom.stored + 1 ∧
      pcom.storeFrame.dataFrames =
        setFrame pcom.dataFrames (pcom.stored + 1) fun _ => zeroFrame := by
  have hstored : pcom.storeFrame.stored = pcom.stored + 1 := by
    simp only [ComPacket.stored, ComPacket.storeFrame]
    omega
  refine ⟨hstored, ?_⟩
  funext k
  rw [ComPacket.dataFrames, hstored]
  simp only [ComPacket.dataFrames, setFrame]
  split_ifs with hnext hcurrent
  · simp only [ComPacket.current, ComPacket.storeFrame, zeroFrame, Frame.mk.injEq, true_and]
    funext j i
    simp [WordBytes.ofWord]
  · subst hcurrent
    have hplace : pcom.blocketteCount + 1 + pcom.stored = pcom.frame := by
      rw [ComPacket.stored]
      omega
    simp only [ComPacket.storeFrame, hplace, Function.update_self]
    rfl
  · have hplace : pcom.blocketteCount + 1 + k ≠ pcom.frame := by
      rw [ComPacket.stored] at hcurrent
      omega
    simp only [ComPacket.storeFrame]
    rw [Function.update_of_ne hplace]

/-! ### What a record in progress holds -/

/-- Nothing is stored from the frame that is filled on. -/
def ComPacket.Clear (pcom : ComPacket) : Prop := ∀ k, pcom.frame ≤ k → pcom.frames k = zeroFrame

/-- There are no samples in the record. -/
structure EmptyRecord (pcom : ComPacket) : Prop where
  frame : pcom.frame = pcom.blocketteCount + 1
  block : pcom.block = 1
  flagWord : pcom.flagWord = 0
  clear : pcom.Clear

/-- The words `ws` of the record hold the samples `xs`, the first of which is `x0`. -/
structure InRecord (pcom : ComPacket) (x0 prev : BitVec 32) (ws : List PackedWord)
    (xs : List (BitVec 32)) : Prop where
  frame : pcom.blocketteCount + 1 ≤ pcom.frame
  block : 1 ≤ pcom.block
  clear : pcom.Clear
  filled : Filled bigEndian x0 0 ws pcom.dataFrames pcom.stored
  ctrl : pcom.flagWord = ctrlOf ws pcom.stored (pcom.block - 1)
  place : valsPerFrame * pcom.stored + (pcom.block - 1) = ws.length + 2
  samples : ws.flatMap (PackedWord.samples decoder2 bigEndian) = diffsFrom prev xs
  good : ∀ p ∈ ws, p.Good decoder2 bigEndian
  first : xs.headD x0 = x0

/-- A record is begun with its first sample. -/
lemma EmptyRecord.startFrame (h : EmptyRecord pcom) (x0 prev : BitVec 32) :
    InRecord (pcom.startFrame x0) x0 prev [] [] := by
  have hstored : (pcom.startFrame x0).stored = 0 := by
    have hframe := h.frame
    simp only [ComPacket.stored, ComPacket.startFrame]
    omega
  have hdata : (pcom.startFrame x0).dataFrames 0 = (pcom.startFrame x0).current := by
    rw [ComPacket.dataFrames, hstored, if_pos rfl]
  refine ⟨h.frame.ge, by simp [ComPacket.startFrame], h.clear, ⟨?_, ?_, ?_, ?_⟩, ?_, ?_, rfl, ?_,
    rfl⟩
  · rw [hstored]
    exact fun f hf => absurd hf (Nat.not_lt_zero f)
  · exact fun k p hp => absurd hp (by simp)
  · rw [hdata]
    simp [ComPacket.current, ComPacket.startFrame, Shake.Swapping.fw, Shake.Swapping.gswap4]
  · rw [hdata]
    simp [ComPacket.current, ComPacket.startFrame, Shake.Swapping.fw, Shake.Swapping.gswap4]
  · rw [hstored]
    exact h.flagWord
  · rw [hstored]
    rfl
  · exact fun p hp => absurd hp List.not_mem_nil

/-- A word of samples is put behind those that the record holds. -/
lemma InRecord.putWord {code value : BitVec 32} (h : InRecord pcom x0 prev ws xs)
    (hblock : pcom.block < 16) (hcode : code &&& 3#32 = code) (hne : code ≠ 0) (hys : ys ≠ [])
    (hword : Shake.wordSamples2 false code (WordBytes.ofWord true value) =
      diffsFrom (xs.getLastD prev) ys) (hfirst : (xs ++ ys).headD x0 = x0) :
    InRecord (pcom.putWord code value) x0 prev (ws ++ [⟨code, bigEndian.fw value, ys.length⟩])
      (xs ++ ys) := by
  have hpos := h.block
  have hplace := h.place
  have hwn : pcom.block - 1 < valsPerFrame := by
    rw [valsPerFrame_eq]
    omega
  have hword' : PackedWord.samples decoder2 bigEndian ⟨code, bigEndian.fw value, ys.length⟩ =
      diffsFrom (xs.getLastD prev) ys := hword
  refine ⟨h.frame, by simp [ComPacket.putWord], h.clear, ?_, ?_, ?_, ?_, ?_, hfirst⟩
  · rw [ComPacket.dataFrames_putWord hcode hpos]
    exact h.filled.put hplace hwn
  · have hnext : (pcom.putWord code value).block - 1 = pcom.block - 1 + 1 := by
      simp only [ComPacket.putWord]
      omega
    have hsucc := ctrlOf_append_succ (p := ⟨code, bigEndian.fw value, ys.length⟩) hplace hcode
    rw [hnext]
    refine Eq.trans ?_ hsucc.symm
    rw [← h.ctrl]
    exact shiftLeft_add_code hcode _
  · simp only [ComPacket.putWord, List.length_append, List.length_singleton]
    change valsPerFrame * pcom.stored + (pcom.block + 1 - 1) = _
    omega
  · rw [List.flatMap_append, h.samples, List.flatMap_singleton, hword', diffsFrom_append]
  · intro p hp
    rcases List.mem_append.mp hp with hp | hp
    · exact h.good p hp
    · rw [List.mem_singleton.mp hp]
      refine ⟨hne, hcode, ?_⟩
      intro hnil
      rw [PackedWord.samples] at hword'
      rw [hword', diffsFrom_eq_nil_iff] at hnil
      exact hys hnil

lemma setFrame_gswap4 (dframes : ℕ → Frame) (k : ℕ) :
    setFrame dframes k (fun f => { f with ctrl := bigEndian.gswap4 f.ctrl }) = dframes := by
  funext j
  simp [setFrame, Shake.Swapping.gswap4]

/-- A full frame is stored. -/
lemma InRecord.storeFrame (h : InRecord pcom x0 prev ws xs) (hblock : pcom.block = 16) :
    InRecord pcom.storeFrame x0 prev ws xs := by
  obtain ⟨hstored, hdata⟩ := ComPacket.dataFrames_storeFrame h.frame
  have hplace := h.place
  have hctrl := h.ctrl
  rw [hblock, show 16 - 1 = valsPerFrame from rfl] at hplace hctrl
  have hcurrent : (pcom.dataFrames pcom.stored).ctrl = ctrlOf ws pcom.stored valsPerFrame := by
    rw [ComPacket.dataFrames, if_pos rfl, ← hctrl]
    rfl
  have hfilled := h.filled.swapCtrl hcurrent
  rw [setFrame_gswap4] at hfilled
  refine ⟨h.frame.trans (Nat.le_succ _), le_rfl, fun k hk => ?_, ?_, ?_, ?_, h.samples, h.good,
    h.first⟩
  · have hlt : pcom.frame + 1 ≤ k := hk
    simp only [ComPacket.storeFrame]
    rw [Function.update_of_ne (by omega)]
    exact h.clear k (by omega)
  · rw [hdata, hstored]
    refine hfilled.setWords _ (fun j hj => absurd hj (Nat.not_lt_zero j)) ?_
    rw [Nat.mul_succ]
    omega
  · rfl
  · rw [hstored, Nat.mul_succ]
    exact hplace

/-- The frames that are stored hold all that is in the record. -/
structure CompleteRecord (pcom : ComPacket) (x0 prev : BitVec 32) (ws : List PackedWord)
    (xs : List (BitVec 32)) : Prop where
  frame : pcom.blocketteCount + 1 ≤ pcom.frame
  clear : pcom.Clear
  filled : Filled bigEndian x0 0 ws (fun k => pcom.frames (pcom.blocketteCount + 1 + k)) pcom.stored
  length_le : ws.length + 2 ≤ valsPerFrame * pcom.stored
  samples : ws.flatMap (PackedWord.samples decoder2 bigEndian) = diffsFrom prev xs
  good : ∀ p ∈ ws, p.Good decoder2 bigEndian
  first : xs.headD x0 = x0

/-- Between frames, everything is stored. -/
lemma InRecord.complete (h : InRecord pcom x0 prev ws xs) (hblock : pcom.block = 1) :
    CompleteRecord pcom x0 prev ws xs := by
  have hplace := h.place
  rw [hblock] at hplace
  refine ⟨h.frame, h.clear, h.filled.congr (by omega) fun k hk => ?_, by omega, h.samples, h.good,
    h.first⟩
  rw [ComPacket.dataFrames, if_neg hk.ne]

/-- Completing a partial frame is putting words without differences. -/
lemma InRecord.completeFrame (h : InRecord pcom x0 prev ws xs) (hblock : pcom.block < 16) :
    CompleteRecord pcom.completeFrame x0 prev ws xs := by
  have hpos := h.block
  have hplace := h.place
  rw [ComPacket.completeFrame]
  split_ifs with hpartial
  · set padded : ComPacket :=
      { pcom with flagWord := pcom.flagWord <<< ((16 - pcom.block) * 2) } with hpadded
    have hstored : padded.stored = pcom.stored := rfl
    have hdata : padded.dataFrames = setFrame pcom.dataFrames pcom.stored
        fun f => { f with ctrl := padded.flagWord } := by
      funext k
      by_cases hk : k = pcom.stored
      · subst hk
        rw [Shake.setFrame_self, ComPacket.dataFrames, ComPacket.dataFrames, if_pos hstored.symm,
          if_pos rfl]
        rfl
      · rw [Shake.setFrame_of_ne hk, ComPacket.dataFrames, ComPacket.dataFrames, if_neg hk]
        exact if_neg hk
    have hctrl : padded.flagWord = ctrlOf ws pcom.stored valsPerFrame := by
      have hadd := Shake.ctrlOf_add_of_length_le hplace.ge (16 - pcom.block)
      rw [show pcom.block - 1 + (16 - pcom.block) = valsPerFrame by rw [valsPerFrame_eq]; omega,
        ← h.ctrl, mul_comm] at hadd
      exact hadd.symm
    have hset := h.filled.setCtrl le_rfl (fun f => { f with ctrl := padded.flagWord })
      fun _ => rfl
    rw [← hdata] at hset
    have hcurrent : (padded.dataFrames pcom.stored).ctrl = ctrlOf ws pcom.stored valsPerFrame := by
      rw [hdata, Shake.setFrame_self, hctrl]
    have hfilled := hset.swapCtrl hcurrent
    rw [setFrame_gswap4] at hfilled
    obtain ⟨hstored', hdata'⟩ := padded.dataFrames_storeFrame h.frame
    have hlength : ws.length + 2 ≤ valsPerFrame * (pcom.stored + 1) := by
      rw [valsPerFrame_eq] at hplace ⊢
      omega
    rw [hstored] at hstored' hdata'
    refine ⟨h.frame.trans (Nat.le_succ _), fun k hk => ?_, ?_, ?_, h.samples, h.good, h.first⟩
    · have hlt : pcom.frame + 1 ≤ k := hk
      simp only [ComPacket.storeFrame]
      rw [Function.update_of_ne (by simp only [hpadded]; omega)]
      exact h.clear k (by omega)
    · rw [hstored']
      refine hfilled.congr hlength fun k hk => ?_
      have hsame := congrFun hdata' k
      rw [Shake.setFrame_of_ne hk.ne] at hsame
      rw [← hsame, ComPacket.dataFrames, hstored', if_neg hk.ne]
    · rw [hstored']
      exact hlength
  · exact h.complete (by omega)

/-! ### Blockettes -/

/-- The packet with a blockette in front of the data. -/
def ComPacket.withBlockette (pcom : ComPacket) (pw : Frame) : ComPacket :=
  { pcom with
    frames := insertBlockette pcom pw
    blocketteCount := pcom.blocketteCount + 1
    frame := pcom.frame + 1 }

/-- A blockette moves the frames of data. -/
lemma ComPacket.Clear.frames_withBlockette (hclear : pcom.Clear) (pw : Frame) (k : ℕ) :
    (pcom.withBlockette pw).frames (pcom.blocketteCount + 1 + 1 + k) =
      pcom.frames (pcom.blocketteCount + 1 + k) := by
  have hmoved : (if pcom.blocketteCount + 1 < pcom.blocketteCount + 1 + 1 + k ∧
      pcom.blocketteCount + 1 + 1 + k ≤ pcom.frame then
        pcom.frames (pcom.blocketteCount + 1 + 1 + k - 1)
      else pcom.frames (pcom.blocketteCount + 1 + 1 + k)) =
        pcom.frames (pcom.blocketteCount + 1 + k) := by
    split_ifs with hle
    · congr 1
      omega
    · rw [hclear _ (by omega), hclear _ (by omega)]
  have hupdate : Function.update (fun j => if pcom.blocketteCount + 1 < j ∧ j ≤ pcom.frame then
      pcom.frames (j - 1) else pcom.frames j) (pcom.blocketteCount + 1) pw
        (pcom.blocketteCount + 1 + 1 + k) = pcom.frames (pcom.blocketteCount + 1 + k) := by
    rw [Function.update_of_ne (by omega)]
    exact hmoved
  simp only [ComPacket.withBlockette, insertBlockette]
  split_ifs
  · exact hupdate
  · rw [Shake.setFrame_of_ne (by omega)]
    exact hupdate

lemma ComPacket.stored_withBlockette (pcom : ComPacket) (pw : Frame) :
    (pcom.withBlockette pw).stored = pcom.stored := by
  simp only [ComPacket.stored, ComPacket.withBlockette]
  omega

lemma ComPacket.Clear.withBlockette (pw : Frame) (hclear : pcom.Clear)
    (hframe : pcom.blocketteCount + 1 ≤ pcom.frame) : (pcom.withBlockette pw).Clear := by
  intro k hk
  have hlt : pcom.frame + 1 ≤ k := hk
  obtain ⟨j, rfl⟩ : ∃ j, k = pcom.blocketteCount + 1 + 1 + j :=
    ⟨k - (pcom.blocketteCount + 1 + 1), by omega⟩
  rw [hclear.frames_withBlockette]
  exact hclear _ (by omega)

lemma EmptyRecord.withBlockette (h : EmptyRecord pcom) (pw : Frame) :
    EmptyRecord (pcom.withBlockette pw) where
  frame := congrArg Nat.succ h.frame
  block := h.block
  flagWord := h.flagWord
  clear := h.clear.withBlockette pw h.frame.ge

/-- A record holds the same samples behind a blockette. -/
lemma InRecord.withBlockette (h : InRecord pcom x0 prev ws xs) (pw : Frame) :
    InRecord (pcom.withBlockette pw) x0 prev ws xs := by
  have hstored := pcom.stored_withBlockette pw
  have hdata : (pcom.withBlockette pw).dataFrames = pcom.dataFrames := by
    funext k
    rw [ComPacket.dataFrames, ComPacket.dataFrames, hstored]
    split_ifs with hk
    · rfl
    · exact h.clear.frames_withBlockette pw k
  exact ⟨Nat.succ_le_succ h.frame, h.block, h.clear.withBlockette pw h.frame,
    by rw [hdata, hstored]; exact h.filled, by rw [hstored]; exact h.ctrl,
    by rw [hstored]; exact h.place, h.samples, h.good, h.first⟩

/-! ### Finished records -/

/-- The samples of a record, as the decoder of Steim 2 finds them behind the blockettes; `none` for
an error. -/
def SeedRecord.decode (record : SeedRecord) (strictRIC : Bool) : Option Shake.Decoded :=
  Shake.decode2 strictRIC
    (fun k => Shake.frameByte bigEndian record.frames (record.firstDataByte + k))
    (512 - record.firstDataByte) record.samplesInRecord.toNat bigEndian.swapBytes 0

/-- A record from which the samples are read without an error being noted. -/
def SeedRecord.Holds (record : SeedRecord) (xs : List (BitVec 32)) : Prop :=
  ∀ strictRIC, record.decode strictRIC = some ⟨xs, false, false⟩

/-- A packet whose record has been finished. -/
def ComPacket.finished (pcom : ComPacket) : ComPacket :=
  { pcom with
    recordsWritten := pcom.recordsWritten + 1
    frames := fun _ => zeroFrame
    frame := 1
    nextCompressedSample := 1
    blocketteCount := 0 }

/-- The record that a packet has when it is finished. -/
def ComPacket.record (pcom : ComPacket) : SeedRecord where
  seedNum := pcom.recordsWritten + 1
  samplesInRecord := BitVec.ofNat 16 (pcom.nextCompressedSample - 1)
  firstDataByte := (pcom.blocketteCount + 1) * 64
  frameCount := pcom.frame - 1 - pcom.blocketteCount
  frames := setFrame pcom.frames (pcom.blocketteCount + 1) fun f =>
    { f with w := Function.update f.w 1 (WordBytes.ofWord true pcom.lastSample) }

lemma finishRecord_eq (h : pcom.blocketteCount + 1 < 8) :
    finishRecord pcom = some (pcom.finished, pcom.record) := by
  rw [finishRecord, if_neg (by omega)]
  rfl

lemma ComPacket.emptyRecord_finished (hblock : pcom.block = 1) (hflag : pcom.flagWord = 0) :
    EmptyRecord pcom.finished := ⟨rfl, hblock, hflag, fun _ _ => rfl⟩

/-- A record without samples decodes to none. -/
lemma ComPacket.holds_record_nil (hcount : pcom.nextCompressedSample = 1)
    (hlt : pcom.blocketteCount + 1 < 8) : pcom.record.Holds [] := by
  intro strictRIC
  have hlength : (512 - (pcom.blocketteCount + 1) * 64) % 64 = 0 := by omega
  simp [SeedRecord.decode, ComPacket.record, Shake.decode2, hcount, hlength]

/-- The frames of a record behind its blockettes, with the last sample at its place. -/
lemma ComPacket.frames_record (pcom : ComPacket) :
    (fun j => pcom.record.frames (pcom.blocketteCount + 1 + j)) =
      Shake.updateXN bigEndian (fun j => pcom.frames (pcom.blocketteCount + 1 + j))
        pcom.lastSample := by
  funext j
  simp only [ComPacket.record, Shake.updateXN, setFrame]
  by_cases hj : j = 0
  · subst hj
    simp [Shake.Swapping.fw, Shake.Swapping.gswap4]
  · rw [if_neg (by omega), if_neg hj]

lemma getLastD_eq_getD (hxs : xs ≠ []) : xs.getLastD prev = xs.getD (xs.length - 1) 0 := by
  have hlength : xs.length ≠ 0 := by simpa using hxs
  have hlast : ((List.range xs.length).map fun i => xs.getD i 0).getLastD prev = _ :=
    getLastD_map_range _ _
  rwa [map_range_getD, if_neg hlength] at hlast

/-- The frames of a record that is complete are a block of its samples. -/
lemma CompleteRecord.block (h : CompleteRecord pcom x0 prev ws xs) (hxs : xs ≠ [])
    (hframe : pcom.frame ≤ 8) (hlast : pcom.lastSample = xs.getLastD prev) :
    Shake.Block bigEndian decoder2 (fun i => xs.getD i 0) (xs.getD 0 0 - prev) ws
      (fun j => pcom.record.frames (pcom.blocketteCount + 1 + j)) (7 - pcom.blocketteCount)
      xs.length := by
  have hstored : pcom.stored ≤ 7 - pcom.blocketteCount := by
    rw [ComPacket.stored]
    omega
  have hx0 : xs.getD 0 0 = x0 := by
    have hfirst := h.first
    cases xs with
    | nil => exact absurd rfl hxs
    | cons x xs => exact hfirst
  have hzero : ∀ k, pcom.stored ≤ k → k < 7 - pcom.blocketteCount →
      (pcom.frames (pcom.blocketteCount + 1 + k)).ctrl = bigEndian.gswap4 0 := by
    intro k hk _
    have hframe := h.frame
    rw [ComPacket.stored] at hk
    rw [h.clear _ (by omega)]
    rfl
  have hfilled := (h.filled.extend h.length_le hzero).updateXN pcom.lastSample
  rw [← pcom.frames_record, hlast, getLastD_eq_getD hxs, ← hx0] at hfilled
  refine ⟨hfilled, h.length_le.trans (Nat.mul_le_mul_left _ hstored), ?_, h.good⟩
  have hdiffs : diffsFrom prev ((List.range xs.length).map fun i => xs.getD i 0) = _ :=
    diffsFrom_map_range _ _
  rw [map_range_getD] at hdiffs
  refine h.samples.trans (hdiffs.trans (List.map_congr_left fun k _ => ?_))
  simp only [Shake.difference]
  split_ifs with hk
  · rw [hk]
  · rfl

/-- A record that is finished holds its samples. -/
lemma CompleteRecord.holds (h : CompleteRecord pcom x0 prev ws xs) (hxs : xs ≠ [])
    (hframe : pcom.frame ≤ 8) (hcount : pcom.nextCompressedSample = xs.length + 1)
    (hlast : pcom.lastSample = xs.getLastD prev) :
    pcom.blocketteCount + 1 < 8 ∧ pcom.record.Holds xs := by
  have hblock := h.block hxs hframe hlast
  have hlength := h.length_le
  have hstored : pcom.stored = pcom.frame - (pcom.blocketteCount + 1) := rfl
  rw [valsPerFrame_eq] at hlength
  have hlt : pcom.blocketteCount + 1 < 8 := by omega
  refine ⟨hlt, fun strictRIC => ?_⟩
  have hmost := (hblock.length_le_count Shake.roomy_decoder2).2
  have hnumber : pcom.record.samplesInRecord.toNat = xs.length := by
    simp only [ComPacket.record, hcount, BitVec.toNat_ofNat]
    omega
  have hbytes : (fun k => Shake.frameByte bigEndian pcom.record.frames
      (pcom.record.firstDataByte + k)) = Shake.frameByte bigEndian
        fun j => pcom.record.frames (pcom.blocketteCount + 1 + j) := by
    funext k
    exact Shake.frameByte_add _ _ _ _
  have hsize : 512 - pcom.record.firstDataByte = (7 - pcom.blocketteCount) * 64 := by
    simp only [ComPacket.record]
    omega
  have hdecode := hblock.decode2_eq (by omega) (List.length_pos_iff.mpr hxs)
    (Or.inl rfl : (0 : BitVec 32) = 0 ∨ _) strictRIC
  rw [map_range_getD] at hdecode
  rw [SeedRecord.decode, hnumber, hbytes, hsize]
  exact hdecode

end Lib330

end StationProcessor
