import StationProcessor.Shake.SteimWords

/-!
# Frames of compressed differences

The packing loop goes through the words of the frames one by one: word `k` of the data stands at
place `k + 2`, behind the first and the last sample, and its mask at the same place of the control
words. What the loop has written and not yet written is an invariant of it; behind it the rest of
the block is padded with words that hold no difference.
-/

namespace StationProcessor

namespace Shake

open BitField

/-! ### Masks and control words -/

/-- The mask at a place of the block; places without a word of data have none. -/
def maskAt (ws : List PackedWord) (place : ℕ) : BitVec 32 :=
  if place < 2 then 0 else (ws[place - 2]?).elim 0 PackedWord.mask

/-- The control word of the first `n` places of a frame. -/
def ctrlOf (ws : List PackedWord) (fn n : ℕ) : BitVec 32 :=
  packFields 2 n 3#32 fun j => maskAt ws (valsPerFrame * fn + j)

lemma valsPerFrame_eq : valsPerFrame = 15 := rfl

section Masks

variable {ws : List PackedWord} {p : PackedWord} {place fn n : ℕ}

lemma maskAt_of_length_le (h : ws.length + 2 ≤ place) : maskAt ws place = 0 := by
  rw [maskAt, if_neg (by omega), List.getElem?_eq_none (by omega), Option.elim_none]

lemma maskAt_append_of_lt (h : place < ws.length + 2) :
    maskAt (ws ++ [p]) place = maskAt ws place := by
  rw [maskAt, maskAt]
  split_ifs with hplace
  · rfl
  · rw [List.getElem?_append_left (by omega)]

lemma maskAt_append_length : maskAt (ws ++ [p]) (ws.length + 2) = p.mask := by
  simp [maskAt]

@[simp] lemma ctrlOf_zero : ctrlOf ws fn 0 = 0 := rfl

lemma ctrlOf_succ : ctrlOf ws fn (n + 1) =
    (ctrlOf ws fn n <<< 2) ||| (maskAt ws (valsPerFrame * fn + n) &&& 3#32) := packFields_succ

/-- A word behind a place does not change the control word up to it. -/
lemma ctrlOf_append (h : valsPerFrame * fn + n ≤ ws.length + 2) :
    ctrlOf (ws ++ [p]) fn n = ctrlOf ws fn n :=
  packFields_congr fun _ hi => maskAt_append_of_lt (by omega)

/-- The mask of a word appended at its place. -/
lemma ctrlOf_append_succ (h : valsPerFrame * fn + n = ws.length + 2)
    (hmask : p.mask &&& 3#32 = p.mask) :
    ctrlOf (ws ++ [p]) fn (n + 1) = (ctrlOf ws fn n <<< 2) ||| p.mask := by
  rw [ctrlOf_succ, ctrlOf_append h.le, h, maskAt_append_length, hmask]

/-- Places without a word only shift the control word. -/
lemma ctrlOf_succ_of_length_le (h : ws.length + 2 ≤ valsPerFrame * fn + n) :
    ctrlOf ws fn (n + 1) = (ctrlOf ws fn n <<< 2) ||| 0 := by
  rw [ctrlOf_succ, maskAt_of_length_le h]
  rfl

/-- Places without a word shift the control word. -/
lemma ctrlOf_add_of_length_le (h : ws.length + 2 ≤ valsPerFrame * fn + n) (m : ℕ) :
    ctrlOf ws fn (n + m) = ctrlOf ws fn n <<< (2 * m) := by
  induction m with
  | zero => simp
  | succ m ih =>
    rw [← Nat.add_assoc, ctrlOf_succ_of_length_le (by omega), ih, Nat.mul_succ,
      BitVec.shiftLeft_add]
    simp

/-- A frame without words has no control word. -/
lemma ctrlOf_of_length_le (h : ws.length + 2 ≤ valsPerFrame * fn) : ctrlOf ws fn n = 0 := by
  have hadd := ctrlOf_add_of_length_le (by simpa using h : ws.length + 2 ≤ valsPerFrame * fn + 0) n
  simpa using hadd

end Masks

/-! ### What has been written -/

variable {sw : Swapping} {packer : SteimPacker} {dec : SteimDecoder} {data : ℕ → BitVec 32}
  {d0 x0 xn : BitVec 32} {ns nf : ℕ} {ws : List PackedWord} {dframes : ℕ → Frame} {s : PackState}

@[simp] lemma setFrame_self (dframes : ℕ → Frame) (fn : ℕ) (f : Frame → Frame) :
    setFrame dframes fn f fn = f (dframes fn) := if_pos rfl

lemma setFrame_of_ne {fn k : ℕ} (h : k ≠ fn) (dframes : ℕ → Frame) (f : Frame → Frame) :
    setFrame dframes fn f k = dframes k := if_neg h

/-- The frames before `fn` are complete, and the words are at their places, behind the first and the
last sample. -/
structure Filled (sw : Swapping) (x0 xn : BitVec 32) (ws : List PackedWord)
    (dframes : ℕ → Frame) (fn : ℕ) : Prop where
  ctrl : ∀ f < fn, (dframes f).ctrl = sw.gswap4 (ctrlOf ws f valsPerFrame)
  word : ∀ k p, ws[k]? = some p →
    (dframes ((k + 2) / valsPerFrame)).w ((k + 2) % valsPerFrame) = p.w
  first : (dframes 0).w 0 = sw.fw x0
  last : (dframes 0).w 1 = sw.fw xn

/-- Changing control words from `fn` on keeps what is filled. -/
lemma Filled.setCtrl {fn k : ℕ} (h : Filled sw x0 xn ws dframes fn) (hk : fn ≤ k)
    (f : Frame → Frame) (hf : ∀ frame, (f frame).w = frame.w) :
    Filled sw x0 xn ws (setFrame dframes k f) fn := by
  have hw : ∀ i, (setFrame dframes k f i).w = (dframes i).w := by
    intro i
    by_cases hi : i = k
    · rw [hi, setFrame_self, hf]
    · rw [setFrame_of_ne hi]
  refine ⟨fun i hi => ?_, fun i p hp => ?_, ?_, ?_⟩
  · rw [setFrame_of_ne (by omega)]
    exact h.ctrl i hi
  · rw [hw]
    exact h.word i p hp
  · rw [hw]
    exact h.first
  · rw [hw]
    exact h.last

/-- Completing the current frame. -/
lemma Filled.swapCtrl {fn : ℕ} (h : Filled sw x0 xn ws dframes fn)
    (hcurrent : (dframes fn).ctrl = ctrlOf ws fn valsPerFrame) :
    Filled sw x0 xn ws (setFrame dframes fn fun f => { f with ctrl := sw.gswap4 f.ctrl })
      (fn + 1) := by
  have hkeep := h.setCtrl le_rfl (fun f => { f with ctrl := sw.gswap4 f.ctrl }) fun _ => rfl
  refine ⟨fun i hi => ?_, hkeep.word, hkeep.first, hkeep.last⟩
  rcases Nat.lt_succ_iff_lt_or_eq.mp hi with hlt | rfl
  · exact hkeep.ctrl i hlt
  · rw [setFrame_self, hcurrent]

/-- Changing a frame keeps what is filled when its words of data are kept. -/
lemma Filled.setWords {fn wn : ℕ} (h : Filled sw x0 xn ws dframes fn) (f : Frame → Frame)
    (hf : ∀ j < wn, (f (dframes fn)).w j = (dframes fn).w j)
    (hplace : ws.length + 2 ≤ valsPerFrame * fn + wn) :
    Filled sw x0 xn ws (setFrame dframes fn f) fn := by
  have hword : ∀ i j, valsPerFrame * i + j < valsPerFrame * fn + wn → j < valsPerFrame →
      (setFrame dframes fn f i).w j = (dframes i).w j := by
    intro i j hlt hj
    by_cases hi : i = fn
    · subst hi
      rw [setFrame_self, hf j (by omega)]
    · rw [setFrame_of_ne hi]
  refine ⟨fun i hi => ?_, fun k p hp => ?_, ?_, ?_⟩
  · rw [setFrame_of_ne (by omega)]
    exact h.ctrl i hi
  · have hlt : k < ws.length := (List.getElem?_eq_some_iff.mp hp).1
    rw [← h.word k p hp]
    refine hword _ _ ?_ (Nat.mod_lt _ (by decide))
    rw [Nat.div_add_mod]
    omega
  · rw [hword 0 0 (by omega) (by decide)]
    exact h.first
  · rw [hword 0 1 (by omega) (by decide)]
    exact h.last

/-- Only the last sample is set. -/
lemma Filled.updateXN {fn : ℕ} (h : Filled sw x0 xn ws dframes fn) (x : BitVec 32) :
    Filled sw x0 x ws (updateXN sw dframes x) fn := by
  have hctrl : ∀ i, (Shake.updateXN sw dframes x i).ctrl = (dframes i).ctrl := by
    intro i
    simp only [Shake.updateXN, setFrame]
    split_ifs <;> rfl
  have hword : ∀ i j, ¬ (i = 0 ∧ j = 1) →
      (Shake.updateXN sw dframes x i).w j = (dframes i).w j := by
    intro i j hne
    simp only [Shake.updateXN, setFrame]
    split_ifs with hi
    · exact Function.update_of_ne (fun hj => hne ⟨hi, hj⟩) _ _
    · rfl
  refine ⟨fun i hi => ?_, fun k p hp => ?_, ?_, ?_⟩
  · rw [hctrl, h.ctrl i hi]
  · rw [← h.word k p hp]
    refine hword _ _ ?_
    rw [valsPerFrame_eq]
    omega
  · rw [hword 0 0 (by simp)]
    exact h.first
  · simp [Shake.updateXN]

/-- Writing the next word. -/
lemma Filled.put {fn wn : ℕ} {p : PackedWord} (h : Filled sw x0 xn ws dframes fn)
    (hplace : valsPerFrame * fn + wn = ws.length + 2) (hwn : wn < valsPerFrame) :
    Filled sw x0 xn (ws ++ [p]) (setFrame dframes fn fun f => f.put wn p.mask p.w) fn := by
  have hkeep : Filled sw x0 xn ws (setFrame dframes fn fun f => f.put wn p.mask p.w) fn :=
    h.setWords _ (fun j hj => Function.update_of_ne (by omega) _ _) hplace.ge
  refine ⟨fun f hf => ?_, fun k q hq => ?_, hkeep.first, hkeep.last⟩
  · rw [hkeep.ctrl f hf, ctrlOf_append]
    rw [valsPerFrame_eq] at *
    omega
  · rcases Nat.lt_or_ge k ws.length with hlt | hge
    · rw [List.getElem?_append_left hlt] at hq
      exact hkeep.word k q hq
    · have hk : k = ws.length := by
        have := (List.getElem?_eq_some_iff.mp hq).1
        simp at this
        omega
      subst hk
      rw [List.getElem?_concat_length, Option.some.injEq] at hq
      subst hq
      rw [← hplace, Nat.mul_add_div (by decide), Nat.div_eq_of_lt hwn, add_zero,
        Nat.mul_add_mod, Nat.mod_eq_of_lt hwn, setFrame_self]
      exact Function.update_self _ _ _

/-- Only the frames that hold the words matter. -/
lemma Filled.congr {fn : ℕ} {dframes' : ℕ → Frame} (h : Filled sw x0 xn ws dframes fn)
    (hlength : ws.length + 2 ≤ valsPerFrame * fn) (hsame : ∀ k < fn, dframes' k = dframes k) :
    Filled sw x0 xn ws dframes' fn := by
  have hpos : 0 < fn := by
    by_contra hzero
    rw [show fn = 0 by omega] at hlength
    omega
  refine ⟨fun f hf => ?_, fun k p hp => ?_, ?_, ?_⟩
  · rw [hsame f hf]
    exact h.ctrl f hf
  · have hlt := (List.getElem?_eq_some_iff.mp hp).1
    rw [valsPerFrame_eq] at hlength
    rw [hsame _ (by rw [valsPerFrame_eq]; omega)]
    exact h.word k p hp
  · rw [hsame 0 hpos]
    exact h.first
  · rw [hsame 0 hpos]
    exact h.last

/-- Frames without a control word may follow. -/
lemma Filled.extend {fn n : ℕ} (h : Filled sw x0 xn ws dframes fn)
    (hlength : ws.length + 2 ≤ valsPerFrame * fn)
    (hzero : ∀ k, fn ≤ k → k < n → (dframes k).ctrl = sw.gswap4 0) :
    Filled sw x0 xn ws dframes n := by
  refine ⟨fun k hk => ?_, h.word, h.first, h.last⟩
  rcases Nat.lt_or_ge k fn with hlt | hge
  · exact h.ctrl k hlt
  · have hle := hlength.trans (Nat.mul_le_mul_left valsPerFrame hge)
    rw [hzero k hge hk, ctrlOf_of_length_le hle]

/-! ### The loop -/

/-- The differences of the samples; the first one is given. -/
def difference (data : ℕ → BitVec 32) (d0 : BitVec 32) (i : ℕ) : BitVec 32 :=
  if i = 0 then d0 else data i - data (i - 1)

/-- A word that the decoder takes for one with differences. -/
structure PackedWord.Good (dec : SteimDecoder) (sw : Swapping) (p : PackedWord) : Prop where
  mask_ne : p.mask ≠ 0
  mask_eq : p.mask &&& 3#32 = p.mask
  samples_ne : dec.wordSamples sw.swapBytes p.mask p.w ≠ []

/-- What the loop has packed: the words `ws` hold the differences up to `ipt`. -/
structure Packing (sw : Swapping) (dec : SteimDecoder) (data : ℕ → BitVec 32) (d0 : BitVec 32)
    (ns nf : ℕ) (ws : List PackedWord) (s : PackState) : Prop where
  filled : Filled sw (data 0) (data (ns - 1)) ws s.dframes s.fn
  current : s.fn < nf → (s.dframes s.fn).ctrl = ctrlOf ws s.fn s.wn
  place : valsPerFrame * s.fn + s.wn = ws.length + 2
  wn_lt : s.wn < valsPerFrame
  fn_le : s.fn ≤ nf
  full : s.fn = nf → s.wn = 0
  count : s.ipt + s.pointsRemaining = ns
  samples : ws.flatMap (fun p => dec.wordSamples sw.swapBytes p.mask p.w) =
    (List.range s.ipt).map (difference data d0)
  good : ∀ p ∈ ws, p.Good dec sw

/-- The buffers hold the next differences. -/
def Ahead (packer : SteimPacker) (data : ℕ → BitVec 32) (d0 : BitVec 32) (ns : ℕ)
    (s : PackState) : Prop :=
  ∀ i < packer.width, s.ipt + i < ns →
    s.diff i = difference data d0 (s.ipt + i) ∧ s.minbits i = minbitsOf (s.diff i)

lemma Ahead.minbitsHold (h : Ahead packer data d0 ns s) (hcount : s.ipt + s.pointsRemaining = ns) :
    MinbitsHold packer.width s.pointsRemaining s.diff s.minbits := fun i hi hi' =>
  (h i hi (by omega)).2

/-- Shifting and re-filling the buffers behind some points. -/
lemma Ahead.refill {s' : PackState} {pointsPacked : ℕ} (h : Ahead packer data d0 ns s)
    (hpos : 0 < pointsPacked) (hdiff : s'.diff = s.diff) (hminbits : s'.minbits = s.minbits)
    (hipt : s'.ipt = s.ipt + pointsPacked) :
    Ahead packer data d0 ns (refill packer.width pointsPacked data ns s') := by
  intro i hi hin
  simp only [Shake.refill, hdiff, hminbits, hipt] at hin ⊢
  by_cases hshift : i < packer.width - pointsPacked
  · obtain ⟨hd, hm⟩ := h (i + pointsPacked) (by omega) (by omega)
    rw [if_pos hshift, if_pos hshift, hm, hd,
      show s.ipt + (i + pointsPacked) = s.ipt + pointsPacked + i by omega]
    exact ⟨rfl, rfl⟩
  · rw [if_neg hshift, if_neg hshift, if_pos ⟨hi, hin⟩, if_pos ⟨hi, hin⟩, difference,
      if_neg (by omega)]
    exact ⟨rfl, rfl⟩

/-- A packer whose words a decoder gives back. -/
structure Faithful (sw : Swapping) (packer : SteimPacker) (dec : SteimDecoder) : Prop where
  width_pos : 0 < packer.width
  gives : ∀ diff minbits pointsRemaining p, 0 < pointsRemaining →
    MinbitsHold packer.width pointsRemaining diff minbits →
    packer.packWord diff minbits pointsRemaining = some p →
    Gives dec sw diff pointsRemaining p ∧ p.pointsPacked ≤ packer.width

/-- The packer has no form for a difference. -/
def Stuck (packer : SteimPacker) (d : BitVec 32) : Prop :=
  ∃ diff minbits pointsRemaining, 0 < pointsRemaining ∧
    MinbitsHold packer.width pointsRemaining diff minbits ∧ diff 0 = d ∧
    packer.packWord diff minbits pointsRemaining = none

/-- The next word is written. -/
lemma Packing.put {p : PackedWord} (h : Packing sw dec data d0 ns nf ws s)
    (hahead : Ahead packer data d0 ns s) (hfn : s.fn < nf)
    (hgives : Gives dec sw s.diff s.pointsRemaining p) (hwidth : p.pointsPacked ≤ packer.width) :
    Filled sw (data 0) (data (ns - 1)) (ws ++ [p])
      (setFrame s.dframes s.fn fun f => f.put s.wn p.mask p.w) s.fn ∧
    (setFrame s.dframes s.fn (fun f => f.put s.wn p.mask p.w) s.fn).ctrl
      = ctrlOf (ws ++ [p]) s.fn (s.wn + 1) ∧
    (ws ++ [p]).flatMap (fun p => dec.wordSamples sw.swapBytes p.mask p.w) =
      (List.range (s.ipt + p.pointsPacked)).map (difference data d0) ∧
    ∀ q ∈ ws ++ [p], q.Good dec sw := by
  have hsamples : dec.wordSamples sw.swapBytes p.mask p.w =
      (List.range' s.ipt p.pointsPacked).map (difference data d0) := by
    rw [hgives.samples, List.range'_eq_map_range, List.map_map]
    refine List.map_congr_left fun i hi => ?_
    have hi := List.mem_range.mp hi
    have hle := hgives.le
    have hcount := h.count
    exact (hahead i (by omega) (by omega)).1
  refine ⟨h.filled.put h.place h.wn_lt, ?_, ?_, ?_⟩
  · rw [setFrame_self, ctrlOf_append_succ h.place hgives.mask_eq, ← h.current hfn]
    rfl
  · rw [List.flatMap_append, h.samples, List.flatMap_singleton, hsamples, ← List.map_append,
      List.range_eq_range', List.range_eq_range', ← List.range'_append_1, Nat.zero_add]
  · intro q hq
    rcases List.mem_append.mp hq with hq | hq
    · exact h.good q hq
    · rw [List.mem_singleton.mp hq]
      refine ⟨hgives.mask_ne, hgives.mask_eq, ?_⟩
      rw [hgives.samples]
      have := hgives.pos
      simp
      omega

/-- The loop packs until no points remain or the block is full, or it gets stuck. -/
lemma packLoop_spec (hfaithful : Faithful sw packer dec) {rounds : ℕ}
    (h : Packing sw dec data d0 ns nf ws s) (hahead : Ahead packer data d0 ns s)
    (hfn : s.fn < nf) (hrounds : s.pointsRemaining ≤ rounds) :
    (∃ ws' s', packLoop sw packer data ns nf rounds s = some s' ∧
      Packing sw dec data d0 ns nf ws' s' ∧ (s'.pointsRemaining = 0 ∨ s'.fn = nf)) ∨
    (packLoop sw packer data ns nf rounds s = none ∧
      ∃ i < ns, Stuck packer (difference data d0 i)) := by
  induction rounds generalizing s ws with
  | zero => exact Or.inl ⟨ws, s, rfl, h, Or.inl (by omega)⟩
  | succ rounds ih =>
    by_cases hzero : s.pointsRemaining = 0
    · refine Or.inl ⟨ws, s, ?_, h, Or.inl hzero⟩
      rw [packLoop, if_pos hzero]
    have hcount := h.count
    have hmin := hahead.minbitsHold hcount
    rw [packLoop, if_neg hzero]
    cases hpack : packer.packWord s.diff s.minbits s.pointsRemaining with
    | none =>
      have hdiff := (hahead 0 hfaithful.width_pos (by omega)).1
      rw [add_zero] at hdiff
      exact Or.inr ⟨rfl, s.ipt, by omega, s.diff, s.minbits, s.pointsRemaining, by omega, hmin,
        hdiff, hpack⟩
    | some p =>
      obtain ⟨hgives, hwidth⟩ := hfaithful.gives _ _ _ _ (by omega) hmin hpack
      obtain ⟨hfilled, hctrl, hsamples, hgood⟩ := h.put hahead hfn hgives hwidth
      have hpos := hgives.pos
      have hle := hgives.le
      have hplace := h.place
      have hwn := h.wn_lt
      simp only
      rw [valsPerFrame_eq] at hplace hwn ⊢
      split_ifs with hend hfull
      · -- the block is full
        have hcomplete : s.wn + 1 = valsPerFrame := by rw [valsPerFrame_eq]; omega
        refine Or.inl ⟨ws ++ [p], _, rfl, ⟨?_, ?_, ?_, ?_, ?_, fun _ => rfl, ?_, hsamples, hgood⟩,
          Or.inr ?_⟩
        · exact hfilled.swapCtrl (by rw [hctrl, hcomplete])
        · intro hlt
          exact absurd hlt (by simp only; omega)
        · simp only [List.length_append, List.length_singleton, valsPerFrame_eq]
          omega
        · simp [valsPerFrame_eq]
        · simp only
          omega
        · simp only
          omega
        · simp only
          omega
      · -- the frame is full
        have hcomplete : s.wn + 1 = valsPerFrame := by rw [valsPerFrame_eq]; omega
        refine ih ⟨?_, ?_, ?_, ?_, ?_, fun _ => rfl, ?_, hsamples, hgood⟩ ?_ ?_ ?_
        · exact (hfilled.swapCtrl (by rw [hctrl, hcomplete])).setCtrl le_rfl
            (fun f => { f with ctrl := 0 }) fun _ => rfl
        · intro _
          simp only [refill, setFrame_self, ctrlOf_zero]
        · simp only [refill, List.length_append, List.length_singleton, valsPerFrame_eq]
          omega
        · simp [refill, valsPerFrame_eq]
        · simp only [refill]
          omega
        · simp only [refill]
          omega
        · exact hahead.refill hpos rfl rfl rfl
        · simp only [refill]
          omega
        · simp only [refill]
          omega
      · -- the next word of the frame
        refine ih ⟨hfilled, fun _ => hctrl, ?_, ?_, h.fn_le, fun hnf => absurd hnf hfn.ne, ?_,
          hsamples, hgood⟩ ?_ hfn ?_
        · simp only [refill, List.length_append, List.length_singleton, valsPerFrame_eq]
          omega
        · simp only [refill, valsPerFrame_eq]
          omega
        · simp only [refill]
          omega
        · exact hahead.refill hpos rfl rfl rfl
        · simp only [refill]
          omega

/-! ### Padding -/

/-- Null words shift the control word and leave the words before them. -/
lemma foldl_put_null {fn : ℕ} (count : ℕ) {wn : ℕ} (f : Frame)
    (hctrl : f.ctrl = ctrlOf ws fn wn) (hplace : ws.length + 2 ≤ valsPerFrame * fn + wn) :
    ((List.range' wn count).foldl (fun f wn => f.put wn 0 fun _ => 0) f).ctrl
        = ctrlOf ws fn (wn + count) ∧
      ∀ j < wn, ((List.range' wn count).foldl (fun f wn => f.put wn 0 fun _ => 0) f).w j
        = f.w j := by
  induction count generalizing wn f with
  | zero => exact ⟨hctrl, fun _ _ => rfl⟩
  | succ count ih =>
    have hput : (f.put wn 0 fun _ => 0).ctrl = ctrlOf ws fn (wn + 1) := by
      rw [ctrlOf_succ_of_length_le hplace, ← hctrl]
      rfl
    obtain ⟨hlast, hkeep⟩ := ih (f.put wn 0 fun _ => 0) hput (by omega)
    rw [List.range'_succ, List.foldl_cons, show wn + (count + 1) = wn + 1 + count by omega]
    refine ⟨hlast, fun j hj => ?_⟩
    rw [hkeep j (by omega)]
    exact Function.update_of_ne (by omega) _ _

variable (sw) in
/-- Padding completes a frame. -/
lemma padWords_spec {fn wn : ℕ} {f : Frame} (hctrl : f.ctrl = ctrlOf ws fn wn)
    (hplace : ws.length + 2 ≤ valsPerFrame * fn + wn) (hwn : wn ≤ valsPerFrame) :
    (f.padWords sw wn).ctrl = sw.gswap4 (ctrlOf ws fn valsPerFrame) ∧
      ∀ j < wn, (f.padWords sw wn).w j = f.w j := by
  obtain ⟨hlast, hkeep⟩ := foldl_put_null (valsPerFrame - wn) f hctrl hplace
  rw [Nat.add_sub_cancel' hwn] at hlast
  refine ⟨?_, hkeep⟩
  rw [Frame.padWords]
  simp only
  rw [hlast]

/-- Padding a frame that no word of data stands in behind `wn`. -/
lemma Filled.padFrame {fn wn : ℕ} (h : Filled sw x0 xn ws dframes fn)
    (hctrl : (dframes fn).ctrl = ctrlOf ws fn wn)
    (hplace : ws.length + 2 ≤ valsPerFrame * fn + wn) (hwn : wn ≤ valsPerFrame) :
    Filled sw x0 xn ws (setFrame dframes fn fun f => f.padWords sw wn) (fn + 1) := by
  obtain ⟨hlast, hkeep⟩ := padWords_spec sw hctrl hplace hwn
  have hwords := h.setWords (fun f => f.padWords sw wn) hkeep hplace
  refine ⟨fun i hi => ?_, hwords.word, hwords.first, hwords.last⟩
  rcases Nat.lt_succ_iff_lt_or_eq.mp hi with hlt | rfl
  · exact hwords.ctrl i hlt
  · rw [setFrame_self, hlast]

/-- Padding the rest of the block. -/
lemma Filled.padRest {fn : ℕ} (h : Filled sw x0 xn ws dframes fn) (count : ℕ)
    (hplace : ws.length + 2 ≤ valsPerFrame * fn) :
    Filled sw x0 xn ws ((List.range' fn count).foldl (fun dframes fn =>
      setFrame dframes fn fun f => { f with ctrl := 0 }.padWords sw 0) dframes) (fn + count) := by
  induction count generalizing fn dframes with
  | zero => exact h
  | succ count ih =>
    have hclear := h.setCtrl le_rfl (fun f => { f with ctrl := 0 }) fun _ => rfl
    have hempty :
        (setFrame dframes fn (fun f => { f with ctrl := 0 }) fn).ctrl = ctrlOf ws fn 0 := by
      rw [setFrame_self, ctrlOf_zero]
    have hpad := hclear.padFrame hempty hplace (Nat.zero_le _)
    have heq : setFrame (setFrame dframes fn fun f => { f with ctrl := 0 }) fn
        (fun f => f.padWords sw 0) =
          setFrame dframes fn fun f => { f with ctrl := 0 }.padWords sw 0 := by
      funext k
      simp only [setFrame]
      split_ifs <;> rfl
    rw [heq] at hpad
    rw [List.range'_succ, List.foldl_cons, show fn + (count + 1) = fn + 1 + count by omega]
    refine ih hpad ?_
    rw [valsPerFrame_eq] at *
    omega

/-- `pad_steim_frame` completes the frames that hold data, and no more than there are. -/
lemma Filled.padSteimFrame {fn wn : ℕ} (h : Filled sw x0 xn ws dframes fn)
    (hctrl : fn < nf → (dframes fn).ctrl = ctrlOf ws fn wn)
    (hplace : valsPerFrame * fn + wn = ws.length + 2) (hwn : wn < valsPerFrame) (hfn : fn ≤ nf)
    (hfull : fn = nf → wn = 0) (pad : Bool) :
    Filled sw x0 xn ws (padSteimFrame sw dframes fn wn nf pad).1
        (padSteimFrame sw dframes fn wn nf pad).2 ∧
      ws.length + 2 ≤ valsPerFrame * (padSteimFrame sw dframes fn wn nf pad).2 ∧
      (padSteimFrame sw dframes fn wn nf pad).2 ≤ nf ∧
      (pad = true → (padSteimFrame sw dframes fn wn nf pad).2 = nf) := by
  -- the current frame
  obtain ⟨dframes', fn', heq, hfilled, hlength, hle⟩ : ∃ dframes' fn',
      (if wn < valsPerFrame ∧ fn < nf then
        (setFrame dframes fn fun f => f.padWords sw wn, fn + 1) else (dframes, fn))
          = (dframes', fn') ∧
      Filled sw x0 xn ws dframes' fn' ∧ ws.length + 2 ≤ valsPerFrame * fn' ∧ fn' ≤ nf := by
    by_cases hlt : fn < nf
    · refine ⟨_, _, if_pos ⟨hwn, hlt⟩, h.padFrame (hctrl hlt) hplace.ge hwn.le, ?_, hlt⟩
      rw [valsPerFrame_eq] at *
      omega
    · have hzero := hfull (by omega)
      exact ⟨_, _, if_neg (fun hc => hlt hc.2), h, by omega, hfn⟩
  rw [Shake.padSteimFrame, heq]
  cases pad with
  | false => exact ⟨hfilled, hlength, hle, by simp⟩
  | true =>
    have hrest := hfilled.padRest (nf - fn') hlength
    rw [Nat.add_sub_cancel' hle] at hrest
    simp only [if_true, max_eq_right hle]
    exact ⟨hrest, hlength.trans (Nat.mul_le_mul_left _ hle), le_rfl, fun _ => trivial⟩

/-! ### The block -/

/-- A block of `n` frames that holds `N` samples. -/
structure Block (sw : Swapping) (dec : SteimDecoder) (data : ℕ → BitVec 32) (d0 : BitVec 32)
    (ws : List PackedWord) (dframes : ℕ → Frame) (n N : ℕ) : Prop where
  filled : Filled sw (data 0) (data (N - 1)) ws dframes n
  length_le : ws.length + 2 ≤ valsPerFrame * n
  samples : ws.flatMap (fun p => dec.wordSamples sw.swapBytes p.mask p.w) =
    (List.range N).map (difference data d0)
  good : ∀ p ∈ ws, p.Good dec sw

/-- The loop starts with nothing but the first and the last sample. -/
lemma packing_initialState (dframes : ℕ → Frame) (hnf : 0 < nf) :
    Packing sw dec data d0 ns nf [] (initialState packer
      (initialFrames sw dframes (data 0) (data (ns - 1))) data d0 ns) where
  filled := ⟨by simp [initialState], by simp, by simp [initialState, initialFrames, Frame.put],
    by simp [initialState, initialFrames, Frame.put]⟩
  current := by simp [initialState, initialFrames, Frame.put, ctrlOf, packFields_succ, maskAt]
  place := by simp [initialState]
  wn_lt := by simp [initialState, valsPerFrame_eq]
  fn_le := hnf.le
  full := fun h => absurd h hnf.ne
  count := by simp [initialState]
  samples := by simp [initialState]
  good := by simp

lemma ahead_initialState (dframes : ℕ → Frame) (data : ℕ → BitVec 32) (d0 : BitVec 32) (ns : ℕ) :
    Ahead packer data d0 ns (initialState packer dframes data d0 ns) := by
  intro i hi hin
  simp only [initialState, Nat.zero_add] at hin ⊢
  refine ⟨?_, trivial⟩
  rw [difference]
  split_ifs with hzero hrange
  · rfl
  · rfl
  · exact absurd ⟨hi, hin⟩ hrange

/-- Packing makes a block of the samples, as many as there are unless the block is full; it fails
only when the packer has no form for a difference. -/
lemma msrPackSteim_spec (hfaithful : Faithful sw packer dec) (dframes : ℕ → Frame)
    (data : ℕ → BitVec 32) (d0 : BitVec 32) (hnf : 0 < nf) (hns : 0 < ns) (pad : Bool) :
    (∃ ws dframes' n N, msrPackSteim sw packer dframes data d0 ns nf pad = some (dframes', n, N) ∧
      Block sw dec data d0 ws dframes' n N ∧ 0 < N ∧ N ≤ ns ∧ n ≤ nf ∧ (pad = true → n = nf) ∧
      (N = ns ∨ ws.length + 2 = valsPerFrame * nf)) ∨
    (msrPackSteim sw packer dframes data d0 ns nf pad = none ∧
      ∃ i < ns, Stuck packer (difference data d0 i)) := by
  rcases packLoop_spec hfaithful (packing_initialState dframes hnf)
    (ahead_initialState (initialFrames sw dframes (data 0) (data (ns - 1))) data d0 ns) hnf
    (le_refl ns) with ⟨ws, s, hloop, hpacking, hend⟩ | ⟨hloop, hstuck⟩
  · left
    have hcount := hpacking.count
    have hplace := hpacking.place
    have hlast : ns - 1 - s.pointsRemaining = s.ipt - 1 := by omega
    have hpos : 0 < s.ipt := by
      by_contra hzero
      have hws : ws = [] := by
        rw [List.eq_nil_iff_forall_not_mem]
        intro p hp
        have hsamples := hpacking.samples
        rw [show s.ipt = 0 by omega, List.range_zero, List.map_nil, List.flatMap_eq_nil_iff]
          at hsamples
        exact (hpacking.good p hp).samples_ne (hsamples p hp)
      rw [hws, valsPerFrame_eq, List.length_nil] at hplace
      rcases hend with hend | hend <;> omega
    have hne : s.fn + s.wn ≠ 0 := by
      rw [valsPerFrame_eq] at hplace
      omega
    have hfilled := hpacking.filled.updateXN (data (s.ipt - 1))
    have hcurrent : s.fn < nf →
        (updateXN sw s.dframes (data (s.ipt - 1)) s.fn).ctrl = ctrlOf ws s.fn s.wn := by
      intro hlt
      rw [← hpacking.current hlt]
      simp only [updateXN, setFrame]
      split_ifs <;> rfl
    obtain ⟨hblock, hlength, hle, hpad⟩ := hfilled.padSteimFrame hcurrent hplace hpacking.wn_lt
      hpacking.fn_le hpacking.full pad
    refine ⟨ws, _, _, s.ipt, ?_, ⟨hblock, hlength, hpacking.samples, hpacking.good⟩, hpos, by omega,
      hle, hpad, ?_⟩
    · rw [msrPackSteim, hloop]
      simp only [Option.map_some, hlast, hne, if_false]
      rw [show ns - s.pointsRemaining = s.ipt by omega]
    · rcases hend with hend | hend
      · exact Or.inl (by omega)
      · rw [hend, hpacking.full hend, add_zero] at hplace
        exact Or.inr hplace.symm
  · right
    refine ⟨?_, hstuck⟩
    rw [msrPackSteim, hloop]
    rfl

end Shake

end StationProcessor
