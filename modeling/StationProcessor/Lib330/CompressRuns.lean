import StationProcessor.Lib330.CompressFrames

/-!
# Runs of a channel

Samples, flushes and blockettes come in any order. As long as successive samples do not differ by
more than the table has room for, no sample is lost or changed: those that came are the samples of
the finished records, then those of the record in progress, then those that wait.
-/

namespace StationProcessor

namespace Lib330

open Shake (Frame PackedWord ctrlOf valsPerFrame valsPerFrame_eq)

variable {pcom pcom' : ComPacket} {prev : BitVec 32} {xs ys : List (BitVec 32)}
  {records more : List SeedRecord}

/-! ### What a packet carries -/

/-- The record in progress, with words put in or none yet. -/
inductive Carries (pcom : ComPacket) : List (BitVec 32) → Prop
  | empty (h : EmptyRecord pcom) : Carries pcom []
  | data {x0 prev : BitVec 32} {ws : List PackedWord} {xs : List (BitVec 32)}
      (h : InRecord pcom x0 prev ws xs) (hxs : xs ≠ []) (hblock : pcom.block < 16)
      (hlast : pcom.lastSample = xs.getLastD prev) : Carries pcom xs

/-- The record in progress between two steps. -/
structure Holds (pcom : ComPacket) (xs : List (BitVec 32)) : Prop where
  carries : Carries pcom xs
  count : pcom.nextCompressedSample = xs.length + 1
  frame_le : pcom.frame ≤ pcom.maxframes
  max_le : pcom.maxframes ≤ 7

/-- A packet in which the same samples wait. -/
structure SameWaiting (pcom pcom' : ComPacket) : Prop where
  lastSample : pcom'.lastSample = pcom.lastSample
  maxframes : pcom'.maxframes = pcom.maxframes
  ctabx : pcom'.ctabx = pcom.ctabx
  peekTotal : pcom'.peekTotal = pcom.peekTotal
  nextIn : pcom'.nextIn = pcom.nextIn
  nextOut : pcom'.nextOut = pcom.nextOut
  peeks : pcom'.peeks = pcom.peeks

lemma SameWaiting.refl (pcom : ComPacket) : SameWaiting pcom pcom :=
  ⟨rfl, rfl, rfl, rfl, rfl, rfl, rfl⟩

lemma ComPacket.sameWaiting_storeFull (pcom : ComPacket) : SameWaiting pcom pcom.storeFull := by
  rw [ComPacket.storeFull]
  split_ifs
  · exact ⟨rfl, rfl, rfl, rfl, rfl, rfl, rfl⟩
  · exact .refl pcom

/-- Records that hold samples, and a record in progress with those behind them. -/
def Delivers (records : List SeedRecord) (pcom : ComPacket) (xs : List (BitVec 32)) : Prop :=
  ∃ pieces rest, List.Forall₂ SeedRecord.Holds records pieces ∧ Holds pcom rest ∧
    pieces.flatten ++ rest = xs

lemma Holds.delivers (h : Holds pcom xs) : Delivers [] pcom xs :=
  ⟨[], xs, .nil, h, rfl⟩

/-- The first sample begins a record. -/
lemma EmptyRecord.beginRecord (h : EmptyRecord pcom) (x0 prev : BitVec 32) :
    InRecord (pcom.beginRecord x0) x0 prev [] [] := by
  have hflag := h.flagWord
  rw [ComPacket.beginRecord, if_pos ⟨h.frame, h.block.le⟩]
  have hstart := h.startFrame x0 prev
  rwa [show ({ pcom.startFrame x0 with flagWord := 0 } : ComPacket) = pcom.startFrame x0 by
    rw [← hflag]; rfl]

/-- A record with words has been begun. -/
lemma InRecord.beginRecord {x0 : BitVec 32} {ws : List PackedWord}
    (h : InRecord pcom x0 prev ws xs) (x : BitVec 32) : pcom.beginRecord x = pcom := by
  have hplace := h.place
  rw [ComPacket.beginRecord, if_neg]
  rintro ⟨hframe, hblock⟩
  rw [ComPacket.stored, hframe, Nat.sub_self] at hplace
  omega

/-- Fields that are not those of the record may change. -/
lemma InRecord.congr {x0 : BitVec 32} {ws : List PackedWord} (h : InRecord pcom x0 prev ws xs)
    (hframe : pcom'.frame = pcom.frame) (hcount : pcom'.blocketteCount = pcom.blocketteCount)
    (hframes : pcom'.frames = pcom.frames) (hbuffer : pcom'.frameBuffer = pcom.frameBuffer)
    (hblock : pcom'.block = pcom.block) (hflag : pcom'.flagWord = pcom.flagWord) :
    InRecord pcom' x0 prev ws xs := by
  have hstored : pcom'.stored = pcom.stored := by
    rw [ComPacket.stored, ComPacket.stored, hframe, hcount]
  have hdata : pcom'.dataFrames = pcom.dataFrames := by
    funext k
    rw [ComPacket.dataFrames, ComPacket.dataFrames, ComPacket.current, ComPacket.current, hstored,
      hcount, hframes, hbuffer, hflag]
  refine ⟨by rw [hframe, hcount]; exact h.frame, by rw [hblock]; exact h.block, ?_, ?_, ?_, ?_,
    h.samples, h.good, h.first⟩
  · intro k hk
    rw [hframes]
    exact h.clear k (hframe ▸ hk)
  · rw [hdata, hstored]
    exact h.filled
  · rw [hstored, hflag, hblock]
    exact h.ctrl
  · rw [hstored, hblock]
    exact h.place

lemma getLastD_append : (xs ++ ys).getLastD prev = ys.getLastD (xs.getLastD prev) := by
  induction xs generalizing prev with
  | nil => rfl
  | cons x xs ih => rw [List.cons_append, List.getLastD_cons, List.getLastD_cons, ih]

lemma headD_append (hxs : xs ≠ []) : (xs ++ ys).headD prev = xs.headD prev := by
  cases xs with
  | nil => exact absurd rfl hxs
  | cons x xs => rfl

/-- The samples that wait. -/
def ComPacket.waiting (pcom : ComPacket) : List (BitVec 32) :=
  (List.range pcom.peekTotal).map pcom.peek

lemma diffsFrom_peek (pcom : ComPacket) (n : ℕ) :
    diffsFrom pcom.lastSample ((List.range n).map pcom.peek) = (List.range n).map pcom.diffs :=
  diffsFrom_map_range pcom.peek n

lemma compseq_bc (k : ℕ) : (compseq k).bc &&& 3#32 = (compseq k).bc ∧ (compseq k).bc ≠ 0 := by
  have hcases : (compseq k).bc = 1 ∨ (compseq k).bc = 2 ∨ (compseq k).bc = 3 := by
    unfold compseq
    split <;> simp
  rcases hcases with h | h | h <;> rw [h] <;> decide

/-- A record whose frame is stored when it is full. -/
lemma InRecord.storeFull {x0 : BitVec 32} {ws : List PackedWord} (h : InRecord pcom x0 prev ws xs)
    (hblock : pcom.block ≤ 16) :
    InRecord pcom.storeFull x0 prev ws xs ∧ pcom.storeFull.block < 16 ∧
      pcom.storeFull.frame ≤ pcom.frame + 1 ∧
      (pcom.storeFull.frame = pcom.frame + 1 → pcom.storeFull.block = 1) := by
  rw [ComPacket.storeFull]
  split_ifs with hfull
  · exact ⟨h.storeFrame (by omega), by simp [ComPacket.storeFrame], le_rfl, fun _ => rfl⟩
  · exact ⟨h, by omega, Nat.le_succ _, fun heq => by omega⟩

/-- Packing a word takes the samples in it out of those that wait. -/
lemma Carries.packWord (h : Carries pcom xs) {k : ℕ} (hk : k ≤ 6)
    (hword : Shake.wordSamples2 false (compseq k).bc
      (WordBytes.ofWord true (packDiffs (compseq k) pcom.diffs)) =
        (List.range (7 - k)).map pcom.diffs) :
    Carries (pcom.packWord k).storeFull (xs ++ (List.range (7 - k)).map pcom.peek) := by
  set ys := (List.range (7 - k)).map pcom.peek with hys
  obtain ⟨n, hn⟩ : ∃ n, 7 - k = n + 1 := ⟨6 - k, by omega⟩
  have hne : ys ≠ [] := by
    rw [hys, hn]
    simp
  have hhead : ∀ x, ys.headD x = pcom.peek 0 := by
    intro x
    rw [hys, hn, List.range_succ_eq_map]
    rfl
  have hlast' : ys.getLastD pcom.lastSample = (pcom.packWord k).lastSample := by
    rw [hys, getLastD_map_range, if_neg (by omega)]
    simp only [ComPacket.packWord, scan_compseq hk]
  obtain ⟨hcode, hcode'⟩ := compseq_bc k
  rw [← diffsFrom_peek, ← hys] at hword
  -- the record with the word in it, and its last sample
  obtain ⟨x0, prev, ws, hrecord, hlast, hblock⟩ : ∃ x0 prev ws,
      InRecord (pcom.packWord k) x0 prev ws (xs ++ ys) ∧
      (pcom.packWord k).lastSample = (xs ++ ys).getLastD prev ∧ (pcom.packWord k).block ≤ 16 := by
    cases h with
    | empty h =>
      have hbegin := h.beginRecord (pcom.peek 0) pcom.lastSample
      have hthree : (pcom.beginRecord (pcom.peek 0)).block = 3 := by
        rw [ComPacket.beginRecord, if_pos ⟨h.frame, h.block.le⟩]
        rfl
      have hput := hbegin.putWord (by omega) hcode hcode' hne hword (hhead _)
      refine ⟨_, _, _, hput.congr rfl rfl rfl rfl rfl rfl, hlast'.symm, ?_⟩
      change (pcom.beginRecord (pcom.peek 0)).block + 1 ≤ 16
      omega
    | @data x0 prev ws _ h hxs hblock hlast =>
      rw [hlast] at hword hlast'
      have hput := h.putWord hblock hcode hcode' hne hword (by rw [headD_append hxs]; exact h.first)
      have hbegin := h.beginRecord (pcom.peek 0)
      have hrecord : InRecord (pcom.packWord k) x0 prev (ws ++
          [⟨(compseq k).bc, bigEndian.fw (packDiffs (compseq k) pcom.diffs), ys.length⟩])
          (xs ++ ys) := by
        rw [ComPacket.packWord, hbegin]
        exact hput.congr rfl rfl rfl rfl rfl rfl
      refine ⟨_, _, _, hrecord, ?_, ?_⟩
      · rw [getLastD_append, hlast']
      · change (pcom.beginRecord (pcom.peek 0)).block + 1 ≤ 16
        rw [hbegin]
        omega
  have hxs : xs ++ ys ≠ [] := by simp [hne]
  obtain ⟨hstored, hroom, -⟩ := hrecord.storeFull hblock
  have hsame := (pcom.packWord k).sameWaiting_storeFull
  exact .data hstored hxs hroom (hsame.lastSample.trans hlast)

/-- After a word is packed the record is between two frames when it is full. -/
lemma ComPacket.frame_packWord (k : ℕ) (hframe : pcom.frame ≤ pcom.maxframes) :
    (pcom.packWord k).storeFull.frame ≤ pcom.maxframes + 1 ∧
      ((pcom.packWord k).storeFull.frame = pcom.maxframes + 1 →
        (pcom.packWord k).storeFull.block = 1) := by
  have hsame : (pcom.packWord k).frame = pcom.frame := by
    simp only [ComPacket.packWord, ComPacket.putWord, ComPacket.beginRecord]
    split_ifs <;> rfl
  rw [ComPacket.storeFull]
  split_ifs
  · have hstore : (pcom.packWord k).storeFrame.frame = (pcom.packWord k).frame + 1 := rfl
    rw [hstore, hsame]
    exact ⟨by omega, fun _ => rfl⟩
  · rw [hsame]
    omega

/-- Between frames, the record can be finished. -/
lemma Carries.finish (h : Carries pcom xs) (hblock : pcom.block = 1) (hframe : pcom.frame ≤ 8)
    (hcount : pcom.nextCompressedSample = xs.length + 1) (hxs : xs ≠ []) :
    finishRecord pcom = some (pcom.finished, pcom.record) ∧ pcom.record.Holds xs ∧
      EmptyRecord pcom.finished := by
  cases h with
  | empty h => exact absurd rfl hxs
  | data h _ _ hlast =>
    obtain ⟨hlt, hholds⟩ := (h.complete hblock).holds hxs hframe hcount hlast
    have hflag := h.ctrl
    rw [hblock, Nat.sub_self, Shake.ctrlOf_zero] at hflag
    exact ⟨finishRecord_eq hlt, hholds, pcom.emptyRecord_finished hblock hflag⟩

/-- Counting the samples that were packed finishes the record when it is full. -/
lemma Carries.countUsed {used : ℕ} (h : Carries pcom xs) (hxs : xs ≠ [])
    (hcount : pcom.nextCompressedSample + used = xs.length + 1) (hmax : pcom.maxframes ≤ 7)
    (hpos : 0 < pcom.maxframes) (hframe : pcom.frame ≤ pcom.maxframes + 1)
    (hfull : pcom.frame = pcom.maxframes + 1 → pcom.block = 1) :
    ∃ pcom' records, countUsed pcom used = some (pcom', records) ∧ SameWaiting pcom pcom' ∧
      Delivers records pcom' xs ∧ (1 < pcom'.nextCompressedSample ∨ pcom'.frame = 1) := by
  set counted : ComPacket :=
    { pcom with nextCompressedSample := pcom.nextCompressedSample + used } with hcounted
  have hcarries : Carries counted xs := by
    cases h with
    | empty h => exact absurd rfl hxs
    | data h _ hblock hlast => exact .data (h.congr rfl rfl rfl rfl rfl rfl) hxs hblock hlast
  by_cases hend : pcom.maxframes + 1 ≤ pcom.frame
  · obtain ⟨hfinish, hrecord, hempty⟩ := hcarries.finish (hfull (by omega))
      (show pcom.frame ≤ 8 by omega) hcount hxs
    refine ⟨counted.finished, [counted.record], ?_, ⟨rfl, rfl, rfl, rfl, rfl, rfl, rfl⟩,
      ⟨[xs], [], .cons hrecord .nil, ⟨.empty hempty, rfl, hpos, hmax⟩, by simp⟩, Or.inr rfl⟩
    rw [Lib330.countUsed]
    simp only
    rw [if_pos hend, hfinish]
    rfl
  · refine ⟨counted, [], ?_, ⟨rfl, rfl, rfl, rfl, rfl, rfl, rfl⟩,
      Holds.delivers ⟨hcarries, hcount, by simp only [hcounted]; omega, hmax⟩, Or.inl ?_⟩
    · rw [Lib330.countUsed]
      simp only
      rw [if_neg hend]
    · have hlength := List.length_pos_iff.mpr hxs
      simp only [hcounted]
      omega

/-! ### Samples that wait -/

/-- The samples that wait are at their places, with differences that the table has room for. -/
structure Waits (pcom : ComPacket) : Prop where
  ctabx : pcom.ctabx ≤ 6
  nextIn : pcom.nextIn = (pcom.nextOut + pcom.peekTotal) % 16
  compressible : ∀ i < pcom.peekTotal, Compressible (pcom.diffs i)

lemma ComPacket.waiting_eq_nil (pcom : ComPacket) (hzero : pcom.peekTotal = 0) :
    pcom.waiting = [] := by
  rw [ComPacket.waiting, hzero]
  rfl

/-- The newest sample. -/
def ComPacket.newest (pcom : ComPacket) : BitVec 32 := pcom.waiting.getLastD pcom.lastSample

lemma SameWaiting.peek_eq (h : SameWaiting pcom pcom') : pcom'.peek = pcom.peek := by
  funext k
  rw [ComPacket.peek, ComPacket.peek, h.peeks, h.nextOut]

lemma SameWaiting.waits (h : SameWaiting pcom pcom') (hwaits : Waits pcom) : Waits pcom' := by
  have hdiffs : pcom'.diffs = pcom.diffs := by
    funext k
    rw [ComPacket.diffs, ComPacket.diffs, h.peek_eq, h.lastSample]
  refine ⟨h.ctabx ▸ hwaits.ctabx, ?_, ?_⟩
  · rw [h.nextIn, h.nextOut, h.peekTotal]
    exact hwaits.nextIn
  · rw [h.peekTotal, hdiffs]
    exact hwaits.compressible

lemma SameWaiting.waiting_eq (h : SameWaiting pcom pcom') : pcom'.waiting = pcom.waiting := by
  rw [ComPacket.waiting, ComPacket.waiting, h.peek_eq, h.peekTotal]

lemma SameWaiting.newest_eq (h : SameWaiting pcom pcom') : pcom'.newest = pcom.newest := by
  rw [ComPacket.newest, ComPacket.newest, h.waiting_eq, h.lastSample]

lemma SameWaiting.trans {pcom'' : ComPacket} (h : SameWaiting pcom pcom')
    (h' : SameWaiting pcom' pcom'') : SameWaiting pcom pcom'' :=
  ⟨h'.lastSample.trans h.lastSample, h'.maxframes.trans h.maxframes, h'.ctabx.trans h.ctabx,
    h'.peekTotal.trans h.peekTotal, h'.nextIn.trans h.nextIn, h'.nextOut.trans h.nextOut,
    h'.peeks.trans h.peeks⟩

lemma ComPacket.count_storeFull (pcom : ComPacket) :
    pcom.storeFull.nextCompressedSample = pcom.nextCompressedSample := by
  rw [ComPacket.storeFull]
  split_ifs <;> rfl

/-- Beginning a record changes only the record. -/
lemma ComPacket.sameWaiting_beginRecord (pcom : ComPacket) (x : BitVec 32) :
    SameWaiting pcom (pcom.beginRecord x) ∧
      (pcom.beginRecord x).nextCompressedSample = pcom.nextCompressedSample := by
  rw [ComPacket.beginRecord]
  split_ifs
  · exact ⟨⟨rfl, rfl, rfl, rfl, rfl, rfl, rfl⟩, rfl⟩
  · exact ⟨.refl pcom, rfl⟩

section PackWord

variable {k : ℕ} (hk : k ≤ 6)

include hk

/-- Behind the samples that were packed stand those that still wait. -/
lemma ComPacket.peek_packWord (j : ℕ) : (pcom.packWord k).peek j = pcom.peek (7 - k + j) := by
  have hsame := (pcom.sameWaiting_beginRecord (pcom.peek 0)).1.peeks
  have hpeeks : (pcom.packWord k).peeks = pcom.peeks := hsame
  have hout : (pcom.packWord k).nextOut = (pcom.nextOut + (7 - k)) % 16 := by
    rw [← scan_compseq hk]
    rfl
  rw [ComPacket.peek, ComPacket.peek, hpeeks, hout, Nat.mod_add_mod, Nat.add_assoc]

lemma ComPacket.peekTotal_packWord :
    (pcom.packWord k).peekTotal = pcom.peekTotal - (7 - k) := by
  rw [← scan_compseq hk]
  rfl

lemma ComPacket.waiting_packWord (htotal : 7 - k ≤ pcom.peekTotal) :
    (List.range (7 - k)).map pcom.peek ++ (pcom.packWord k).waiting = pcom.waiting := by
  have hsplit : pcom.peekTotal = 7 - k + (pcom.peekTotal - (7 - k)) := by omega
  rw [ComPacket.waiting, ComPacket.waiting, ComPacket.peekTotal_packWord hk]
  nth_rewrite 2 [hsplit]
  rw [List.range_add, List.map_append, List.map_map]
  congr 1
  exact List.map_congr_left fun j _ => ComPacket.peek_packWord hk j

lemma ComPacket.newest_packWord (htotal : 7 - k ≤ pcom.peekTotal) :
    (pcom.packWord k).newest = pcom.newest := by
  have hlast : (pcom.packWord k).lastSample =
      ((List.range (7 - k)).map pcom.peek).getLastD pcom.lastSample := by
    rw [getLastD_map_range, if_neg (by omega), ← scan_compseq hk]
    rfl
  rw [ComPacket.newest, ComPacket.newest, ← ComPacket.waiting_packWord hk htotal, getLastD_append,
    hlast]

lemma Waits.packWord (h : Waits pcom) (htotal : 7 - k ≤ pcom.peekTotal) :
    Waits (pcom.packWord k) := by
  have hnextIn : (pcom.packWord k).nextIn = pcom.nextIn :=
    (pcom.sameWaiting_beginRecord (pcom.peek 0)).1.nextIn
  have hout : (pcom.packWord k).nextOut = (pcom.nextOut + (7 - k)) % 16 := by
    rw [← scan_compseq hk]
    rfl
  refine ⟨hk, ?_, fun i hi => ?_⟩
  · have hsum : pcom.nextOut + (7 - k) + (pcom.peekTotal - (7 - k)) =
        pcom.nextOut + pcom.peekTotal := by omega
    rw [hnextIn, h.nextIn, hout, ComPacket.peekTotal_packWord hk, Nat.mod_add_mod, hsum]
  · rw [ComPacket.peekTotal_packWord hk] at hi
    have hdiff : (pcom.packWord k).diffs i = pcom.diffs (7 - k + i) := by
      have hlast : (pcom.packWord k).lastSample = pcom.peek (7 - k - 1) := by
        rw [← scan_compseq hk]
        rfl
      have hne : 7 - k + i ≠ 0 := by omega
      rw [ComPacket.diffs, ComPacket.diffs, ComPacket.peek_packWord hk, if_neg hne]
      by_cases hi0 : i = 0
      · rw [if_pos hi0, hlast, hi0, Nat.add_zero]
      · rw [if_neg hi0, ComPacket.peek_packWord hk, Nat.add_sub_assoc (by omega)]
    rw [hdiff]
    exact h.compressible _ (by omega)

end PackWord

lemma Holds.maxframes_pos (h : Holds pcom xs) : 0 < pcom.maxframes := by
  have hle := h.frame_le
  have hpos : 0 < pcom.frame := by
    cases h.carries with
    | empty hempty =>
      rw [hempty.frame]
      exact Nat.succ_pos _
    | data hrecord => exact (Nat.succ_pos _).trans_le hrecord.frame
  exact hpos.trans_le hle

/-- One word of the samples that wait goes into the record. -/
lemma Holds.compressBlock (h : Holds pcom xs) (hwaits : Waits pcom) (hpos : 0 < pcom.peekTotal) :
    ∃ pcom' records taken,
      countUsed (compressBlock pcom).1 (compressBlock pcom).2 = some (pcom', records) ∧
      Delivers records pcom' (xs ++ taken) ∧ taken ++ pcom'.waiting = pcom.waiting ∧
      Waits pcom' ∧ pcom'.peekTotal < pcom.peekTotal ∧ pcom'.newest = pcom.newest ∧
      pcom'.maxframes = pcom.maxframes ∧
      (1 < pcom'.nextCompressedSample ∨ pcom'.frame = 1) := by
  obtain ⟨hle, htotal, hfit⟩ := pcom.scan_spec hwaits.ctabx hpos hwaits.compressible
  have hcompress := compressBlock_eq hwaits.ctabx hpos
  set k := pcom.scan with hk
  have hcarries := h.carries.packWord hle (wordSamples2_packDiffs hle hfit)
  obtain ⟨hframe, hfull⟩ := pcom.frame_packWord k h.frame_le
  have hbegin := pcom.sameWaiting_beginRecord (pcom.peek 0)
  have hstore := (pcom.packWord k).sameWaiting_storeFull
  have hmax : (pcom.packWord k).storeFull.maxframes = pcom.maxframes :=
    hstore.maxframes.trans hbegin.1.maxframes
  have hcount : (pcom.packWord k).storeFull.nextCompressedSample = pcom.nextCompressedSample :=
    (pcom.packWord k).count_storeFull.trans hbegin.2
  have hne : xs ++ (List.range (7 - k)).map pcom.peek ≠ [] := by
    intro hnil
    have hlength := congrArg List.length hnil
    rw [List.length_append, List.length_map, List.length_range, List.length_nil] at hlength
    omega
  have hused : (pcom.packWord k).storeFull.nextCompressedSample + (7 - k) =
      (xs ++ (List.range (7 - k)).map pcom.peek).length + 1 := by
    rw [hcount, h.count, List.length_append, List.length_map, List.length_range]
    omega
  obtain ⟨pcom', records, heq, hsame, hdelivers, hbegun⟩ := hcarries.countUsed hne hused
    (hmax ▸ h.max_le) (hmax ▸ h.maxframes_pos) (hmax ▸ hframe) (hmax ▸ hfull)
  have hsame' := hstore.trans hsame
  refine ⟨pcom', records, (List.range (7 - k)).map pcom.peek, ?_, hdelivers, ?_,
    hsame'.waits (hwaits.packWord hle htotal), ?_, ?_, hsame.maxframes.trans hmax, hbegun⟩
  · rw [hcompress, scan_compseq hle]
    exact heq
  · rw [hsame'.waiting_eq]
    exact ComPacket.waiting_packWord hle htotal
  · rw [hsame'.peekTotal, ComPacket.peekTotal_packWord hle]
    omega
  · rw [hsame'.newest_eq]
    exact ComPacket.newest_packWord hle htotal

/-! ### Steps of a channel -/

/-- The samples of a packet, in its record and behind it. -/
structure Live (pcom : ComPacket) (total : List (BitVec 32)) : Prop where
  waits : Waits pcom
  few : pcom.peekTotal < 7
  held : ∃ xs, Holds pcom xs ∧ xs ++ pcom.waiting = total

/-- Records and a packet behind them that together have all samples. -/
def Passes (records : List SeedRecord) (pcom : ComPacket) (total : List (BitVec 32)) : Prop :=
  ∃ pieces rest, List.Forall₂ SeedRecord.Holds records pieces ∧ Live pcom rest ∧
    pieces.flatten ++ rest = total

lemma Live.passes {total : List (BitVec 32)} (h : Live pcom total) : Passes [] pcom total :=
  ⟨[], total, .nil, h, rfl⟩

/-- Records that come first. -/
lemma Passes.append {pieces : List (List (BitVec 32))} {rest : List (BitVec 32)}
    (hpieces : List.Forall₂ SeedRecord.Holds records pieces) (h : Passes more pcom rest) :
    Passes (records ++ more) pcom (pieces.flatten ++ rest) := by
  obtain ⟨pieces', rest', hpieces', hlive, rfl⟩ := h
  refine ⟨pieces ++ pieces', rest', List.rel_append hpieces hpieces', hlive, ?_⟩
  rw [List.flatten_append, List.append_assoc]

/-- Samples that wait are put behind those that a record and its successors hold. -/
lemma Delivers.passes (h : Delivers records pcom xs) (hwaits : Waits pcom)
    (hfew : pcom.peekTotal < 7) : Passes records pcom (xs ++ pcom.waiting) := by
  obtain ⟨pieces, rest, hpieces, hholds, rfl⟩ := h
  refine ⟨pieces, rest ++ pcom.waiting, hpieces, ⟨hwaits, hfew, rest, hholds, rfl⟩, ?_⟩
  rw [List.append_assoc]

/-- A sample waits behind the others. -/
def ComPacket.withSample (pcom : ComPacket) (value : BitVec 32) : ComPacket :=
  { pcom with
    peeks := Function.update pcom.peeks pcom.nextIn value
    nextIn := (pcom.nextIn + 1) % 16
    peekTotal := pcom.peekTotal + 1 }

section WithSample

variable {value : BitVec 32} (hwaits : Waits pcom) (hfew : pcom.peekTotal < 7)

include hwaits hfew

lemma Waits.peek_withSample {k : ℕ} (hk : k ≤ pcom.peekTotal) :
    (pcom.withSample value).peek k = if k = pcom.peekTotal then value else pcom.peek k := by
  have hin := hwaits.nextIn
  simp only [ComPacket.peek, ComPacket.withSample]
  split_ifs with heq
  · rw [heq, ← hin, Function.update_self]
  · rw [Function.update_of_ne]
    omega

lemma Waits.waiting_withSample :
    (pcom.withSample value).waiting = pcom.waiting ++ [value] := by
  have hlast : (pcom.withSample value).peek pcom.peekTotal = value := by
    rw [hwaits.peek_withSample hfew le_rfl, if_pos rfl]
  rw [ComPacket.waiting, ComPacket.waiting]
  change (List.range (pcom.peekTotal + 1)).map _ = _
  rw [List.range_succ, List.map_append, List.map_singleton, hlast]
  congr 1
  refine List.map_congr_left fun k hk => ?_
  have hk := List.mem_range.mp hk
  rw [hwaits.peek_withSample hfew hk.le, if_neg hk.ne]

lemma Waits.withSample (hcomp : Compressible (value - pcom.newest)) :
    Waits (pcom.withSample value) := by
  refine ⟨hwaits.ctabx, ?_, fun i hi => ?_⟩
  · have hin := hwaits.nextIn
    simp only [ComPacket.withSample]
    omega
  · have hi : i < pcom.peekTotal + 1 := hi
    have hprevious : (if i = 0 then (pcom.withSample value).lastSample
        else (pcom.withSample value).peek (i - 1)) =
          if i = 0 then pcom.lastSample else pcom.peek (i - 1) := by
      split_ifs with hzero
      · rfl
      · rw [hwaits.peek_withSample hfew (by omega), if_neg (by omega)]
    rw [ComPacket.diffs, hwaits.peek_withSample hfew (by omega), hprevious]
    split_ifs with hlast hzero hzero
    · rw [ComPacket.newest, ComPacket.waiting, getLastD_map_range, ← hlast, if_pos hzero] at hcomp
      exact hcomp
    · rw [ComPacket.newest, ComPacket.waiting, getLastD_map_range, ← hlast, if_neg hzero] at hcomp
      exact hcomp
    · have hold := hwaits.compressible i (by omega)
      rwa [ComPacket.diffs, if_pos hzero] at hold
    · have hold := hwaits.compressible i (by omega)
      rwa [ComPacket.diffs, if_neg hzero] at hold

end WithSample

/-- The record does not notice a sample that waits. -/
lemma Holds.withSample (h : Holds pcom xs) (value : BitVec 32) :
    Holds (pcom.withSample value) xs := by
  refine ⟨?_, h.count, h.frame_le, h.max_le⟩
  cases h.carries with
  | empty hempty => exact .empty ⟨hempty.frame, hempty.block, hempty.flagWord, hempty.clear⟩
  | data hrecord hxs hblock hlast =>
    exact .data (hrecord.congr rfl rfl rfl rfl rfl rfl) hxs hblock hlast

lemma processSample_eq (pcom : ComPacket) (value : BitVec 32) : processSample pcom value =
    if (pcom.withSample value).peekTotal < 7 then some (pcom.withSample value, [])
    else countUsed (compressBlock (pcom.withSample value)).1
      (compressBlock (pcom.withSample value)).2 := rfl

/-- A sample is put behind those that came before it. -/
lemma Live.processSample {total : List (BitVec 32)} {value : BitVec 32} (h : Live pcom total)
    (hcomp : Compressible (value - pcom.newest)) :
    ∃ pcom' records, processSample pcom value = some (pcom', records) ∧
      Passes records pcom' (total ++ [value]) ∧ pcom'.newest = value ∧
      pcom'.maxframes = pcom.maxframes := by
  obtain ⟨xs, hholds, rfl⟩ := h.held
  have hwaits := h.waits.withSample h.few hcomp
  have hwaiting : (pcom.withSample value).waiting = pcom.waiting ++ [value] :=
    h.waits.waiting_withSample h.few
  have hnewest : (pcom.withSample value).newest = value := by
    rw [ComPacket.newest, hwaiting, getLastD_append]
    rfl
  have hholds' := hholds.withSample value
  rw [processSample_eq]
  split_ifs with hfew
  · refine ⟨_, _, rfl, Live.passes ⟨hwaits, hfew, xs, hholds', ?_⟩, hnewest, rfl⟩
    rw [hwaiting, List.append_assoc]
  · obtain ⟨pcom', records, taken, heq, hdelivers, htaken, hwaits', hlt, hnewest', hmax, -⟩ :=
      hholds'.compressBlock hwaits (by omega)
    have hseven : (pcom.withSample value).peekTotal = pcom.peekTotal + 1 := rfl
    have hfew' := h.few
    have hpasses := hdelivers.passes hwaits' (by omega)
    rw [List.append_assoc, htaken, hwaiting, ← List.append_assoc] at hpasses
    exact ⟨pcom', records, heq, hpasses, hnewest'.trans hnewest, hmax⟩

/-! ### Flushing -/

/-- Records that come first. -/
lemma Delivers.append {pieces : List (List (BitVec 32))} {rest : List (BitVec 32)}
    (hpieces : List.Forall₂ SeedRecord.Holds records pieces) (h : Delivers more pcom rest) :
    Delivers (records ++ more) pcom (pieces.flatten ++ rest) := by
  obtain ⟨pieces', rest', hpieces', hholds, rfl⟩ := h
  refine ⟨pieces ++ pieces', rest', List.rel_append hpieces hpieces', hholds, ?_⟩
  rw [List.flatten_append, List.append_assoc]

lemma flushPeeks_succ (rounds : ℕ) (pcom : ComPacket) : flushPeeks (rounds + 1) pcom =
    if pcom.peekTotal = 0 then some (pcom, [])
    else (countUsed (compressBlock pcom).1 (compressBlock pcom).2).bind fun r =>
      (flushPeeks rounds r.1).bind fun m => some (m.1, r.2 ++ m.2) := rfl

/-- All samples that wait go into records; each round packs at least one. -/
lemma Holds.flushPeeks {rounds : ℕ} (h : Holds pcom xs) (hwaits : Waits pcom)
    (hrounds : pcom.peekTotal ≤ rounds) :
    ∃ pcom' records, flushPeeks rounds pcom = some (pcom', records) ∧
      Delivers records pcom' (xs ++ pcom.waiting) ∧ Waits pcom' ∧ pcom'.peekTotal = 0 ∧
      pcom'.newest = pcom.newest ∧ pcom'.maxframes = pcom.maxframes ∧
      (pcom.peekTotal ≠ 0 → 1 < pcom'.nextCompressedSample ∨ pcom'.frame = 1) ∧
      (pcom.peekTotal = 0 → pcom' = pcom ∧ records = []) := by
  induction rounds generalizing pcom xs with
  | zero =>
    have hzero : pcom.peekTotal = 0 := by omega
    refine ⟨pcom, [], rfl, ?_, hwaits, hzero, rfl, rfl, fun hne => absurd hzero hne,
      fun _ => ⟨rfl, rfl⟩⟩
    rw [pcom.waiting_eq_nil hzero, List.append_nil]
    exact h.delivers
  | succ rounds ih =>
    rw [flushPeeks_succ]
    split_ifs with hzero
    · refine ⟨pcom, [], rfl, ?_, hwaits, hzero, rfl, rfl, fun hne => absurd hzero hne,
        fun _ => ⟨rfl, rfl⟩⟩
      rw [pcom.waiting_eq_nil hzero, List.append_nil]
      exact h.delivers
    · obtain ⟨middle, records, taken, heq, ⟨pieces, rest, hpieces, hholds, hflat⟩, htaken, hwaits',
        hlt, hnewest, hmax, hbegun⟩ := h.compressBlock hwaits (Nat.pos_of_ne_zero hzero)
      obtain ⟨last, more, heq', hdelivers, hwaits'', hlast, hnewest', hmax', hbegun', hsame⟩ :=
        ih hholds hwaits' (by omega)
      refine ⟨last, records ++ more, ?_, ?_, hwaits'', hlast, hnewest'.trans hnewest,
        hmax'.trans hmax, fun _ => ?_, fun hne => absurd hne hzero⟩
      · rw [heq, Option.bind_some, heq', Option.bind_some]
      · have hall := Delivers.append hpieces hdelivers
        rwa [← List.append_assoc, hflat, List.append_assoc, htaken] at hall
      · by_cases hmiddle : middle.peekTotal = 0
        · rw [(hsame hmiddle).1]
          exact hbegun
        · exact hbegun' hmiddle

/-- Completing a frame changes only the record. -/
lemma ComPacket.sameWaiting_completeFrame (pcom : ComPacket) :
    SameWaiting pcom pcom.completeFrame ∧
      pcom.completeFrame.nextCompressedSample = pcom.nextCompressedSample ∧
      pcom.completeFrame.frame ≤ pcom.frame + 1 := by
  rw [ComPacket.completeFrame]
  split_ifs
  · exact ⟨⟨rfl, rfl, rfl, rfl, rfl, rfl, rfl⟩, rfl, le_rfl⟩
  · exact ⟨.refl pcom, rfl, Nat.le_succ _⟩

/-- A record with samples is finished at any time. -/
lemma Holds.finish (h : Holds pcom xs) (hxs : xs ≠ []) :
    ∃ pcom' record, finishRecord pcom.completeFrame = some (pcom', record) ∧ record.Holds xs ∧
      Holds pcom' [] ∧ SameWaiting pcom pcom' ∧ pcom'.frame = 1 := by
  obtain ⟨hsame, hcount, hframe⟩ := pcom.sameWaiting_completeFrame
  have hle := h.frame_le
  have hmax := h.max_le
  cases h.carries with
  | empty => exact absurd rfl hxs
  | data hrecord _ hblock hlast =>
    have hpos := hrecord.block
    have hclean : pcom.completeFrame.block = 1 ∧ pcom.completeFrame.flagWord = 0 := by
      rw [ComPacket.completeFrame]
      split_ifs with hpartial
      · exact ⟨rfl, rfl⟩
      · have hone : pcom.block = 1 := by omega
        have hflag := hrecord.ctrl
        rw [hone, Nat.sub_self, Shake.ctrlOf_zero] at hflag
        exact ⟨hone, hflag⟩
    obtain ⟨hlt, hholds⟩ := (hrecord.completeFrame hblock).holds hxs (by omega)
      (hcount.trans h.count) (hsame.lastSample.trans hlast)
    refine ⟨_, _, finishRecord_eq hlt, hholds, ⟨.empty ?_, rfl, ?_, ?_⟩,
      hsame.trans ⟨rfl, rfl, rfl, rfl, rfl, rfl, rfl⟩, rfl⟩
    · exact ComPacket.emptyRecord_finished hclean.1 hclean.2
    · exact hsame.maxframes ▸ h.maxframes_pos
    · exact hsame.maxframes ▸ hmax

lemma flushLcq_eq (pcom : ComPacket) : flushLcq pcom = (flushPeeks 21 pcom).bind fun r =>
    if 1 < r.1.nextCompressedSample then
      (finishRecord r.1.completeFrame).bind fun f => some (f.1, r.2 ++ [f.2])
    else some (r.1, r.2) := rfl

/-- A flush puts everything into records; it does nothing when there is nothing. -/
lemma Live.flushLcq {total : List (BitVec 32)} (h : Live pcom total) :
    ∃ pcom' records pieces, flushLcq pcom = some (pcom', records) ∧
      List.Forall₂ SeedRecord.Holds records pieces ∧ pieces.flatten = total ∧
      Holds pcom' [] ∧ Waits pcom' ∧ pcom'.peekTotal = 0 ∧ pcom'.newest = pcom.newest ∧
      pcom'.maxframes = pcom.maxframes ∧
      (pcom'.frame = 1 ∨
        pcom' = pcom ∧ pcom.nextCompressedSample = 1 ∧ pcom.peekTotal = 0) := by
  obtain ⟨xs, hholds, rfl⟩ := h.held
  have hfew := h.few
  obtain ⟨middle, records, heq, ⟨pieces, rest, hpieces, hholds', hflat⟩, hwaits, hzero, hnewest,
    hmax, hbegun, hsame⟩ := hholds.flushPeeks h.waits (show pcom.peekTotal ≤ 21 by omega)
  have hcount := hholds'.count
  rw [flushLcq_eq, heq, Option.bind_some]
  split_ifs with hmore
  · have hne : rest ≠ [] := by
      rintro rfl
      rw [hcount, List.length_nil] at hmore
      omega
    obtain ⟨pcom', record, hfinish, hrecord, hempty, hwaiting, hframe⟩ := hholds'.finish hne
    refine ⟨pcom', records ++ [record], pieces ++ [rest], ?_,
      List.rel_append hpieces (.cons hrecord .nil), ?_, hempty, hwaiting.waits hwaits,
      hwaiting.peekTotal.trans hzero, hwaiting.newest_eq.trans hnewest,
      hwaiting.maxframes.trans hmax, Or.inl hframe⟩
    · rw [hfinish]
      rfl
    · rw [List.flatten_append, ← hflat]
      simp
  · have hmore : ¬ 1 < middle.nextCompressedSample := hmore
    have hnil : rest = [] := by
      rw [← List.length_eq_zero_iff]
      omega
    subst hnil
    refine ⟨middle, records, pieces, rfl, hpieces, by rw [← hflat, List.append_nil], hholds',
      hwaits, hzero, hnewest, hmax, ?_⟩
    by_cases hnone : pcom.peekTotal = 0
    · obtain ⟨rfl, -⟩ := hsame hnone
      exact Or.inr ⟨rfl, hcount, hnone⟩
    · exact Or.inl ((hbegun hnone).resolve_left hmore)

/-! ### Blockettes -/

lemma Holds.withBlockette (h : Holds pcom xs) (pw : Frame) (hlt : pcom.frame < pcom.maxframes) :
    Holds (pcom.withBlockette pw) xs := by
  refine ⟨?_, h.count, hlt, h.max_le⟩
  cases h.carries with
  | empty hempty => exact .empty (hempty.withBlockette pw)
  | data hrecord hxs hblock hlast => exact .data (hrecord.withBlockette pw) hxs hblock hlast

lemma ComPacket.sameWaiting_withBlockette (pcom : ComPacket) (pw : Frame) :
    SameWaiting pcom (pcom.withBlockette pw) := ⟨rfl, rfl, rfl, rfl, rfl, rfl, rfl⟩

lemma addBlockette_eq (pcom : ComPacket) (pw : Frame) : addBlockette pcom pw =
    (if pcom.maxframes ≤ pcom.frame then flushLcq pcom else some (pcom, [])).bind fun r =>
      if (r.1.withBlockette pw).maxframes + 1 ≤ (r.1.withBlockette pw).frame then
        (finishRecord (r.1.withBlockette pw)).bind fun f => some (f.1, r.2 ++ [f.2])
      else some (r.1.withBlockette pw, r.2) := by
  rw [addBlockette]
  by_cases hlast : pcom.maxframes ≤ pcom.frame
  · rw [if_pos hlast, if_pos hlast]
    rfl
  · rw [if_neg hlast, if_neg hlast]
    rfl

/-- There is no room for the last sample behind seven blockettes. -/
structure Overfull (pcom : ComPacket) : Prop where
  maxframes : pcom.maxframes = 7
  blocketteCount : pcom.blocketteCount = 6
  count : pcom.nextCompressedSample = 1
  peekTotal : pcom.peekTotal = 0

/-- A blockette of a record without samples; the seventh has no room in seven frames. -/
lemma Holds.firstBlockette (h : Holds pcom []) (hwaits : Waits pcom) (hzero : pcom.peekTotal = 0)
    (pw : Frame) (records : List SeedRecord) :
    (∃ pcom' more, (if (pcom.withBlockette pw).maxframes + 1 ≤ (pcom.withBlockette pw).frame then
        (finishRecord (pcom.withBlockette pw)).bind fun f => some (f.1, records ++ [f.2])
      else some (pcom.withBlockette pw, records)) = some (pcom', records ++ more) ∧
      Passes more pcom' [] ∧ pcom'.newest = pcom.newest ∧ pcom'.maxframes = pcom.maxframes ∧
      pcom'.peekTotal = 0) ∨
    ((if (pcom.withBlockette pw).maxframes + 1 ≤ (pcom.withBlockette pw).frame then
        (finishRecord (pcom.withBlockette pw)).bind fun f => some (f.1, records ++ [f.2])
      else some (pcom.withBlockette pw, records)) = none ∧ pcom.maxframes = 7 ∧
      pcom.blocketteCount = 6 ∧ pcom.frame = 7) := by
  have hsame := pcom.sameWaiting_withBlockette pw
  have hframe : (pcom.withBlockette pw).frame = pcom.frame + 1 := rfl
  have hmax : (pcom.withBlockette pw).maxframes = pcom.maxframes := rfl
  have hle := h.frame_le
  have hseven := h.max_le
  split_ifs with hfull
  · cases h.carries with
    | data _ hne => exact absurd rfl hne
    | empty hrecord =>
      have hblockettes := hrecord.frame
      have hbc : (pcom.withBlockette pw).blocketteCount = pcom.blocketteCount + 1 := rfl
      by_cases hroom : pcom.blocketteCount + 2 < 8
      · have hholds := (pcom.withBlockette pw).holds_record_nil h.count (by omega)
        have hfinished : SameWaiting pcom (pcom.withBlockette pw).finished :=
          ⟨rfl, rfl, rfl, rfl, rfl, rfl, rfl⟩
        have hempty : Holds (pcom.withBlockette pw).finished [] :=
          ⟨.empty (ComPacket.emptyRecord_finished hrecord.block hrecord.flagWord), rfl,
            h.maxframes_pos, h.max_le⟩
        rw [finishRecord_eq (by omega), Option.bind_some]
        exact Or.inl ⟨_, _, rfl, ⟨[[]], [], .cons hholds .nil, ⟨hfinished.waits hwaits,
          hzero.trans_lt (by norm_num), [], hempty, pcom.waiting_eq_nil hzero⟩, rfl⟩,
          hfinished.newest_eq, rfl, hzero⟩
      · rw [finishRecord, if_pos (by omega), Option.bind_none]
        exact Or.inr ⟨rfl, by omega, by omega, by omega⟩
  · have hlive : Live (pcom.withBlockette pw) [] :=
      ⟨hsame.waits hwaits, hzero.trans_lt (by norm_num), [],
        h.withBlockette pw (by omega), pcom.waiting_eq_nil hzero⟩
    exact Or.inl ⟨_, [], by rw [List.append_nil], hlive.passes, hsame.newest_eq, rfl, hzero⟩

/-- A blockette goes in front of the samples, unless it is the seventh of a record without any. -/
lemma Live.addBlockette {total : List (BitVec 32)} (h : Live pcom total) (pw : Frame) :
    (∃ pcom' records, addBlockette pcom pw = some (pcom', records) ∧ Passes records pcom' total ∧
      pcom'.newest = pcom.newest ∧ pcom'.maxframes = pcom.maxframes ∧
      pcom'.peekTotal ≤ pcom.peekTotal) ∨
    (addBlockette pcom pw = none ∧ Overfull pcom) := by
  rw [addBlockette_eq]
  by_cases hlast : pcom.maxframes ≤ pcom.frame
  · obtain ⟨middle, records, pieces, heq, hpieces, rfl, hempty, hwaits, hzero, hnewest, hmax,
      hcases⟩ := h.flushLcq
    rw [if_pos hlast, heq, Option.bind_some]
    rcases hempty.firstBlockette hwaits hzero pw records with
      ⟨pcom', more, heq', hmore, hnewest', hmax', hzero'⟩ | ⟨hnone, hseven, hsix, hframe⟩
    · have hall := Passes.append hpieces hmore
      rw [List.append_nil] at hall
      exact Or.inl ⟨pcom', records ++ more, heq', hall, hnewest'.trans hnewest, hmax'.trans hmax,
        hzero'.trans_le (Nat.zero_le _)⟩
    · rcases hcases with hone | ⟨rfl, hcount, hnone'⟩
      · omega
      · exact Or.inr ⟨hnone, hseven, hsix, hcount, hnone'⟩
  · obtain ⟨xs, hholds, htotal⟩ := h.held
    have hsame := pcom.sameWaiting_withBlockette pw
    have hframe : (pcom.withBlockette pw).frame = pcom.frame + 1 := rfl
    have hmax : (pcom.withBlockette pw).maxframes = pcom.maxframes := rfl
    left
    rw [if_neg hlast, Option.bind_some, if_neg (by simp only [hframe, hmax]; omega)]
    refine ⟨_, _, rfl, Live.passes ⟨hsame.waits h.waits, h.few, xs, ?_, htotal⟩, hsame.newest_eq,
      rfl, le_rfl⟩
    exact hholds.withBlockette pw (by omega)

/-! ### Runs -/

/-- What comes to a channel of the library. -/
inductive ChannelEvent
  | sample (value : BitVec 32)
  | flush
  | blockette (pw : Frame)

def ChannelEvent.step (pcom : ComPacket) : ChannelEvent → Option (ComPacket × List SeedRecord)
  | .sample value => processSample pcom value
  | .flush => flushLcq pcom
  | .blockette pw => addBlockette pcom pw

/-- The packet after some events, with the records that were finished. -/
def channelRun (pcom : ComPacket) : List ChannelEvent → Option (ComPacket × List SeedRecord)
  | [] => some (pcom, [])
  | event :: events => do
    let (pcom, records) ← event.step pcom
    let (pcom, more) ← channelRun pcom events
    some (pcom, records ++ more)

/-- The samples among the events. -/
def ChannelEvent.samples : ChannelEvent → List (BitVec 32)
  | .sample value => [value]
  | .flush => []
  | .blockette _ => []

/-- Each sample differs from the one before it by no more than the table has room for. -/
def Steady : BitVec 32 → List ChannelEvent → Prop
  | _, [] => True
  | last, .sample value :: events => Compressible (value - last) ∧ Steady value events
  | last, .flush :: events => Steady last events
  | last, .blockette _ :: events => Steady last events

instance decidableSteady : ∀ last events, Decidable (Steady last events)
  | _, [] => inferInstanceAs (Decidable True)
  | last, .sample value :: events =>
    have := decidableSteady value events
    inferInstanceAs (Decidable (Compressible (value - last) ∧ Steady value events))
  | last, .flush :: events => decidableSteady last events
  | last, .blockette _ :: events => decidableSteady last events

lemma channelRun_cons (event : ChannelEvent) (events : List ChannelEvent) :
    channelRun pcom (event :: events) = (event.step pcom).bind fun r =>
      (channelRun r.1 events).bind fun m => some (m.1, r.2 ++ m.2) := rfl

/-- What one event does to the samples. -/
lemma Live.step {total : List (BitVec 32)} (h : Live pcom total) {event : ChannelEvent}
    {events : List ChannelEvent} (hsteady : Steady pcom.newest (event :: events)) :
    (∃ pcom' records, event.step pcom = some (pcom', records) ∧
      Passes records pcom' (total ++ event.samples) ∧ Steady pcom'.newest events ∧
      pcom'.maxframes = pcom.maxframes) ∨
    (event.step pcom = none ∧ Overfull pcom ∧ ∃ pw, event = .blockette pw) := by
  cases event with
  | sample value =>
    obtain ⟨pcom', records, heq, hpasses, hnewest, hmax⟩ := h.processSample hsteady.1
    exact Or.inl ⟨pcom', records, heq, hpasses, hnewest ▸ hsteady.2, hmax⟩
  | flush =>
    obtain ⟨pcom', records, pieces, heq, hpieces, rfl, hholds, hwaits, hzero, hnewest, hmax, -⟩ :=
      h.flushLcq
    refine Or.inl ⟨pcom', records, heq, ⟨pieces, [], hpieces, ⟨hwaits, by omega, [], hholds,
      pcom'.waiting_eq_nil hzero⟩, rfl⟩, ?_, hmax⟩
    rw [hnewest]
    exact hsteady
  | blockette pw =>
    rcases h.addBlockette pw with ⟨pcom', records, heq, hpasses, hnewest, hmax, -⟩ |
      ⟨hnone, hover⟩
    · refine Or.inl ⟨pcom', records, heq, ?_, ?_, hmax⟩
      · rw [ChannelEvent.samples, List.append_nil]
        exact hpasses
      · rw [hnewest]
        exact hsteady
    · exact Or.inr ⟨hnone, hover, pw, rfl⟩

/-- Events pass their samples on, up to a blockette that there is no room for. -/
lemma Live.run {total : List (BitVec 32)} (h : Live pcom total) {events : List ChannelEvent}
    (hsteady : Steady pcom.newest events) :
    (∃ pcom' records, channelRun pcom events = some (pcom', records) ∧
      Passes records pcom' (total ++ events.flatMap ChannelEvent.samples)) ∨
    (channelRun pcom events = none ∧ ∃ before pw after pcom' records,
      events = before ++ .blockette pw :: after ∧
      channelRun pcom before = some (pcom', records) ∧ Overfull pcom') := by
  induction events generalizing pcom total with
  | nil =>
    refine Or.inl ⟨pcom, [], rfl, ?_⟩
    rw [List.flatMap_nil, List.append_nil]
    exact h.passes
  | cons event events ih =>
    rw [channelRun_cons]
    rcases h.step hsteady with ⟨middle, records, heq, ⟨pieces, rest, hpieces, hlive, hflat⟩,
      hsteady', -⟩ | ⟨hnone, hover, pw, rfl⟩
    · rw [heq, Option.bind_some]
      rcases ih hlive hsteady' with ⟨last, more, hrun, hpasses⟩ |
        ⟨hrun, before, pw, after, last, more, rfl, hbefore, hover⟩
      · refine Or.inl ⟨last, records ++ more, by rw [hrun]; rfl, ?_⟩
        have hall := Passes.append hpieces hpasses
        rwa [← List.append_assoc, hflat, List.append_assoc, ← List.flatMap_cons] at hall
      · refine Or.inr ⟨by rw [hrun]; rfl, event :: before, pw, after, last, records ++ more, rfl,
          ?_, hover⟩
        rw [channelRun_cons, heq, Option.bind_some, hbefore]
        rfl
    · exact Or.inr ⟨by rw [hnone]; rfl, [], pw, events, pcom, [], rfl, rfl, hover⟩

lemma live_init {maxframes : ℕ} (hpos : 0 < maxframes) (hle : maxframes ≤ 7) :
    Live (.init maxframes) [] :=
  ⟨⟨Nat.zero_le _, rfl, fun _ hi => absurd hi (Nat.not_lt_zero _)⟩, Nat.zero_lt_succ _, [],
    ⟨.empty ⟨rfl, rfl, rfl, fun _ _ => rfl⟩, rfl, hpos, hle⟩, rfl⟩

/-- Every sample that came to a channel is in a finished record, in the record in progress or waits,
in order and unchanged, and a flush puts the rest into records. The run stops only at the seventh
blockette of a record without samples. -/
theorem channelRun_samples {maxframes : ℕ} (hpos : 0 < maxframes) (hle : maxframes ≤ 7)
    {events : List ChannelEvent} (hsteady : Steady 0 events) :
    (∃ pcom records pieces rest, channelRun (.init maxframes) events = some (pcom, records) ∧
      List.Forall₂ SeedRecord.Holds records pieces ∧
      pieces.flatten ++ rest = events.flatMap ChannelEvent.samples ∧
      rest.length + 1 = pcom.nextCompressedSample + pcom.peekTotal ∧ pcom.peekTotal < 7 ∧
      ∃ pcom' more pieces', flushLcq pcom = some (pcom', more) ∧
        List.Forall₂ SeedRecord.Holds more pieces' ∧ pieces'.flatten = rest) ∨
    (channelRun (.init maxframes) events = none ∧ ∃ before pw after pcom records,
      events = before ++ .blockette pw :: after ∧
      channelRun (.init maxframes) before = some (pcom, records) ∧ Overfull pcom) := by
  rcases (live_init hpos hle).run hsteady with
    ⟨pcom, records, hrun, pieces, rest, hpieces, hlive, hflat⟩ | hstops
  · obtain ⟨xs, hholds, hheld⟩ := hlive.held
    obtain ⟨pcom', more, pieces', hflush, hpieces', hrest, -⟩ := hlive.flushLcq
    refine Or.inl ⟨pcom, records, pieces, rest, hrun, hpieces, hflat, ?_, hlive.few, pcom', more,
      pieces', hflush, hpieces', hrest⟩
    rw [hholds.count, ← hheld, List.length_append, ComPacket.waiting, List.length_map,
      List.length_range]
    omega
  · exact Or.inr hstops

/-- Two samples with a blockette between them. -/
theorem channelRun_samples_two : ∃ pcom records pieces pcom' more pieces',
    channelRun (.init 7) [.sample 5, .blockette zeroFrame, .sample 7] = some (pcom, records) ∧
    flushLcq pcom = some (pcom', more) ∧
    List.Forall₂ SeedRecord.Holds (records ++ more) (pieces ++ pieces') ∧
    (pieces ++ pieces').flatten = [5, 7] := by
  rcases channelRun_samples (show 0 < 7 by norm_num) le_rfl
    (show Steady 0 [.sample 5, .blockette zeroFrame, .sample 7] by decide) with
    ⟨pcom, records, pieces, rest, hrun, hpieces, hflat, -, -, pcom', more, pieces', hflush,
      hpieces', rfl⟩ | ⟨hnone, -⟩
  · refine ⟨pcom, records, pieces, pcom', more, pieces', hrun, hflush,
      List.rel_append hpieces hpieces', ?_⟩
    rw [List.flatten_append, hflat]
    rfl
  · exact absurd hnone (by decide)

end Lib330

end StationProcessor
