import StationProcessor.Shake.SteimFrames

/-!
# Decoding what was packed

A block that the packer made, read byte by byte in the order it was packed in, decodes to the
samples it was made of.
-/

namespace StationProcessor

namespace Shake

open BitField

variable {sw : Swapping} {packer : SteimPacker} {dec : SteimDecoder} {data : ℕ → BitVec 32}
  {d0 : BitVec 32} {ns nf : ℕ} {ws : List PackedWord} {dframes : ℕ → Frame} {n N : ℕ}

/-! ### Bytes and nibbles -/

/-- The words of a frame in memory. -/
lemma frameWord_frameByte (sw : Swapping) (dframes : ℕ → Frame) (f : ℕ) {i : ℕ} (hi : i < 16) :
    frameWord (frameByte sw dframes) (f * 64) i =
      if i = 0 then WordBytes.ofWord sw.bigHost (dframes f).ctrl else (dframes f).w (i - 1) := by
  funext k
  have hk := k.isLt
  have hframe : (f * 64 + i * 4 + k) / 64 = f := by omega
  have hword : (f * 64 + i * 4 + k) % 64 / 4 = i := by omega
  have hbyte : Fin.ofNat 4 (f * 64 + i * 4 + k) = k := by
    rw [Fin.ext_iff, Fin.val_ofNat]
    omega
  rw [frameWord, frameByte, hframe, hword, hbyte]

/-- Frames behind others, byte by byte. -/
lemma frameByte_add (sw : Swapping) (dframes : ℕ → Frame) (n k : ℕ) :
    frameByte sw dframes (n * 64 + k) = frameByte sw (fun j => dframes (n + j)) k := by
  have hdiv : (n * 64 + k) / 64 = n + k / 64 := by omega
  have hmod : (n * 64 + k) % 64 = k % 64 := by omega
  have hbyte : Fin.ofNat 4 (n * 64 + k) = Fin.ofNat 4 k := by
    rw [Fin.ext_iff, Fin.val_ofNat, Fin.val_ofNat]
    omega
  rw [frameByte, frameByte, hdiv, hmod, hbyte]

/-- The control word is read as it was before it was swapped. -/
lemma bytesToInt_ctrl (sw : Swapping) (v : BitVec 32) :
    bytesToInt (WordBytes.ofWord sw.bigHost (sw.gswap4 v)) sw.swapBytes = v :=
  bytesToInt_fw sw v

section Nibbles

variable {f : ℕ} (h : Block sw dec data d0 ws dframes n N) (hf : f < n)

include h hf

lemma Block.ctrl_eq : bytesToInt (frameWord (frameByte sw dframes) (f * 64) 0) sw.swapBytes =
    ctrlOf ws f valsPerFrame := by
  rw [frameWord_frameByte sw dframes f (by norm_num), if_pos rfl, h.filled.ctrl f hf]
  exact bytesToInt_ctrl sw _

/-- The control word itself has no nibble. -/
lemma Block.nibble_zero :
    (bytesToInt (frameWord (frameByte sw dframes) (f * 64) 0) sw.swapBytes).sshiftRight 30
      &&& 3#32 = 0#32 := by
  rw [h.ctrl_eq hf]
  exact above_packFields (by norm_num) (isMask 2) (by decide)

/-- The nibble of a place is its mask. -/
lemma Block.nibble_succ {j : ℕ} (hj : j < valsPerFrame) :
    (bytesToInt (frameWord (frameByte sw dframes) (f * 64) 0) sw.swapBytes).sshiftRight
      (30 - (j + 1) * 2) &&& 3#32 = maskAt ws (valsPerFrame * f + j) &&& 3#32 := by
  rw [valsPerFrame_eq] at hj
  rw [h.ctrl_eq hf, ctrlOf, show 30 - (j + 1) * 2 = 2 * (valsPerFrame - 1 - j) by
    rw [valsPerFrame_eq]; omega]
  exact and_mask_packFields (by norm_num) (isMask 2) (by decide) hj

/-- A place with a word of data. -/
lemma Block.extractWord_data {j k : ℕ} {p : PackedWord} (hj : j < valsPerFrame)
    (hk : valsPerFrame * f + j = k + 2) (hp : ws[k]? = some p) (temp : List (BitVec 32)) :
    extractWord dec (frameByte sw dframes) (f * 64) sw.swapBytes temp (j + 1) =
      temp ++ dec.wordSamples sw.swapBytes p.mask p.w := by
  have hgood := h.good p (List.mem_of_getElem? hp)
  have hmask : maskAt ws (valsPerFrame * f + j) = p.mask := by
    rw [maskAt, if_neg (by omega), hk, Nat.add_sub_cancel, hp, Option.elim_some]
  have hnibble := h.nibble_succ hf hj
  rw [hmask, hgood.mask_eq] at hnibble
  have hword := h.filled.word k p hp
  rw [← hk, Nat.mul_add_div (by decide), Nat.div_eq_of_lt hj, add_zero, Nat.mul_add_mod,
    Nat.mod_eq_of_lt hj] at hword
  rw [valsPerFrame_eq] at hj
  have hread := frameWord_frameByte sw dframes f (show j + 1 < 16 by omega)
  rw [if_neg (by omega), Nat.add_sub_cancel, hword] at hread
  simp only [extractWord]
  rw [show (3 : BitVec 32) = 3#32 from rfl, hnibble, if_neg hgood.mask_ne, hread]

/-- A place behind the data holds nothing, unless the decoder takes it for a part of the header. -/
lemma Block.extractWord_null {j : ℕ} (hj : j < valsPerFrame)
    (hplace : ws.length + 2 ≤ valsPerFrame * f + j) (temp : List (BitVec 32)) :
    ∃ junk, extractWord dec (frameByte sw dframes) (f * 64) sw.swapBytes temp (j + 1) =
      temp ++ junk ∧ (junk ≠ [] → f = 0) := by
  have hnibble := h.nibble_succ hf hj
  rw [maskAt_of_length_le hplace] at hnibble
  simp only [extractWord]
  rw [show (3 : BitVec 32) = 3#32 from rfl, hnibble, if_pos (by rfl)]
  split_ifs with hheader
  · exact ⟨_, rfl, fun _ => by omega⟩
  · exact ⟨[], by simp, by simp⟩

end Nibbles

/-! ### Frames -/

/-- The differences of a word. -/
abbrev PackedWord.samples (dec : SteimDecoder) (sw : Swapping) (p : PackedWord) :
    List (BitVec 32) := dec.wordSamples sw.swapBytes p.mask p.w

/-- A decoder whose array has room for a frame, and which keeps the header. -/
structure SteimDecoder.Roomy (dec : SteimDecoder) (most : ℕ) : Prop where
  header : ∀ k < 3, dec.keepHeader k = true
  words : ∀ swapBytes currNibble w, (dec.wordSamples swapBytes currNibble w).length ≤ most
  pos : 0 < most
  size : 1 + 15 * most ≤ dec.size

lemma roomy_decoder1 : decoder1.Roomy 4 where
  header _ _ := rfl
  words swapBytes currNibble w := by
    simp only [decoder1, wordSamples1, byteSamples]
    split_ifs <;> simp
  pos := by norm_num
  size := by decide

lemma roomy_decoder2 : decoder2.Roomy 7 where
  header k hk := by
    simp only [decoder2, decide_eq_true_eq]
    omega
  words swapBytes currNibble w := by
    simp only [decoder2, wordSamples2, byteSamples]
    split_ifs <;> simp [shiftedSamples]
  pos := by norm_num
  size := by decide

/-- A word adds at most so many differences. -/
lemma length_extractWord {most : ℕ} (hroomy : dec.Roomy most) (bytes : ℕ → BitVec 8)
    (offset : ℕ) (swapBytes : Bool) (temp : List (BitVec 32)) (i : ℕ) :
    (extractWord dec bytes offset swapBytes temp i).length ≤ temp.length + most := by
  have hpos := hroomy.pos
  simp only [extractWord]
  split_ifs
  · rw [List.length_append, List.length_singleton]
    omega
  · omega
  · rw [List.length_append]
    have := hroomy.words swapBytes
      ((bytesToInt (frameWord bytes offset 0) swapBytes).sshiftRight (30 - i * 2) &&& 3)
      (frameWord bytes offset i)
    omega

/-- The first places of a frame, as far as the decoder has read them. -/
def readWords (dec : SteimDecoder) (sw : Swapping) (dframes : ℕ → Frame) (f i : ℕ) :
    List (BitVec 32) :=
  (List.range i).foldl (extractWord dec (frameByte sw dframes) (f * 64) sw.swapBytes) []

lemma readWords_succ (f i : ℕ) : readWords dec sw dframes f (i + 1) =
    extractWord dec (frameByte sw dframes) (f * 64) sw.swapBytes (readWords dec sw dframes f i)
      i := by
  simp [readWords, List.range_succ]

section Frames

variable {f : ℕ} (h : Block sw dec data d0 ws dframes n N)

include h

lemma Block.readWords_one {most : ℕ} (hroomy : dec.Roomy most) (hf : f < n) :
    readWords dec sw dframes f 1 = if f = 0 then [ctrlOf ws 0 valsPerFrame] else [] := by
  have hnibble := h.nibble_zero hf
  have hctrl := h.ctrl_eq hf
  rw [readWords_succ]
  simp only [extractWord, readWords, List.range_zero, List.foldl_nil, List.length_nil]
  rw [show (3 : BitVec 32) = 3#32 from rfl, show 30 - 0 * 2 = 30 from rfl, hnibble,
    if_pos (by rfl), hctrl]
  by_cases hf0 : f = 0
  · subst hf0
    simp [hroomy.header 0 (by norm_num)]
  · rw [if_neg hf0]
    exact if_neg (by omega)

/-- A frame never needs more room than there is. -/
lemma Block.length_readWords {most : ℕ} (hroomy : dec.Roomy most) (hf : f < n) (i : ℕ) :
    (readWords dec sw dframes f (i + 1)).length ≤ 1 + i * most := by
  induction i with
  | zero =>
    rw [h.readWords_one hroomy hf]
    split_ifs <;> simp
  | succ i ih =>
    rw [readWords_succ, add_mul]
    have := length_extractWord hroomy (frameByte sw dframes) (f * 64) sw.swapBytes
      (readWords dec sw dframes f (i + 1)) (i + 1)
    omega

/-- A frame behind the first one holds its words of data. -/
lemma Block.readWords_later {most : ℕ} (hroomy : dec.Roomy most) (hf : f < n) (hpos : 0 < f)
    {i : ℕ} (hi : i ≤ valsPerFrame) : readWords dec sw dframes f (i + 1) =
      ((ws.drop (valsPerFrame * f - 2)).take i).flatMap (PackedWord.samples dec sw) := by
  induction i with
  | zero => simp [h.readWords_one hroomy hf, hpos.ne']
  | succ i ih =>
    have hge : 2 ≤ valsPerFrame * f := by
      rw [valsPerFrame_eq]
      omega
    rw [readWords_succ, ih (by omega)]
    rcases hword : ws[valsPerFrame * f - 2 + i]? with _ | p
    · have hlength := List.getElem?_eq_none_iff.mp hword
      obtain ⟨junk, heq, hjunk⟩ := h.extractWord_null hf (show i < valsPerFrame by omega)
        (by omega) (((ws.drop (valsPerFrame * f - 2)).take i).flatMap (PackedWord.samples dec sw))
      have hnil : junk = [] := by
        by_contra hne
        exact hpos.ne' (hjunk hne)
      rw [heq, hnil, List.append_nil]
      congr 1
      rw [List.take_of_length_le, List.take_of_length_le] <;>
      · rw [List.length_drop]
        omega
    · rw [h.extractWord_data hf (show i < valsPerFrame by omega) (by omega) hword]
      have hdrop : (ws.drop (valsPerFrame * f - 2))[i]? = some p := by
        rw [List.getElem?_drop, hword]
      rw [List.take_add_one, hdrop, List.flatMap_append]
      simp

/-- The first frame holds the first and the last sample and its words of data. -/
lemma Block.readWords_first {most : ℕ} (hroomy : dec.Roomy most) (hn : 0 < n) {i : ℕ}
    (hi : i + 2 ≤ valsPerFrame) : ∃ junk, readWords dec sw dframes 0 (i + 3) =
      [ctrlOf ws 0 valsPerFrame, data 0, data (N - 1)]
        ++ ((ws.take i).flatMap (PackedWord.samples dec sw) ++ junk) ∧
      (junk ≠ [] → ws.length < i) := by
  induction i with
  | zero =>
    have hheader : ∀ (j : ℕ) (temp : List (BitVec 32)), j < 2 → temp.length < 3 →
        extractWord dec (frameByte sw dframes) (0 * 64) sw.swapBytes temp (j + 1) =
          temp ++ [bytesToInt ((dframes 0).w j) sw.swapBytes] := by
      intro j temp hj htemp
      have hnibble := h.nibble_succ hn (show j < valsPerFrame by rw [valsPerFrame_eq]; omega)
      have hread := frameWord_frameByte sw dframes 0 (show j + 1 < 16 by omega)
      rw [if_neg (by omega), Nat.add_sub_cancel] at hread
      rw [maskAt, if_pos (by rw [mul_zero]; omega)] at hnibble
      simp only [extractWord]
      rw [show (3 : BitVec 32) = 3#32 from rfl, hnibble, if_pos (by rfl),
        if_pos ⟨trivial, hroomy.header _ htemp⟩, hread]
    refine ⟨[], ?_, by simp⟩
    rw [readWords_succ, readWords_succ, h.readWords_one hroomy hn, if_pos rfl,
      hheader 0 _ (by norm_num) (by simp), hheader 1 _ (by norm_num) (by simp), h.filled.first,
      h.filled.last]
    simp
  | succ i ih =>
    obtain ⟨junk, hread, hjunk⟩ := ih (by omega)
    rw [readWords_succ, hread]
    rcases hword : ws[i]? with _ | p
    · have hlength := List.getElem?_eq_none_iff.mp hword
      obtain ⟨more, heq, -⟩ := h.extractWord_null hn (show i + 2 < valsPerFrame by omega)
        (by omega) ([ctrlOf ws 0 valsPerFrame, data 0, data (N - 1)]
          ++ ((ws.take i).flatMap (PackedWord.samples dec sw) ++ junk))
      refine ⟨junk ++ more, ?_, fun _ => by omega⟩
      rw [heq, List.take_of_length_le (by omega), List.take_of_length_le (by omega)]
      simp
    · have hlt := (List.getElem?_eq_some_iff.mp hword).1
      have hnil : junk = [] := by
        by_contra hne
        have := hjunk hne
        omega
      rw [h.extractWord_data hn (show i + 2 < valsPerFrame by omega) (by omega) hword, hnil]
      refine ⟨[], ?_, by simp⟩
      rw [List.take_add_one, hword, List.flatMap_append]
      simp

end Frames

/-! ### Integration -/

section Integrate

variable {numSamples : ℕ} {lastValue : BitVec 32} {samples ds rest : List (BitVec 32)}

/-- With all samples there, differences are ignored. -/
lemma integrate_full (h : numSamples ≤ samples.length) :
    integrate numSamples lastValue samples ds = (lastValue, samples) := by
  cases ds with
  | nil => rfl
  | cons d ds => rw [integrate, if_neg (by omega)]

lemma integrate_append : integrate numSamples lastValue samples (ds ++ rest) =
    integrate numSamples (integrate numSamples lastValue samples ds).1
      (integrate numSamples lastValue samples ds).2 rest := by
  induction ds generalizing lastValue samples with
  | nil => rfl
  | cons d ds ih =>
    rw [List.cons_append, integrate, integrate]
    split_ifs with h
    · exact ih
    · exact (integrate_full (by omega)).symm

/-- The sample before a place; before the first one it is the one that the first difference is
from. -/
def before (data : ℕ → BitVec 32) (d0 : BitVec 32) (i : ℕ) : BitVec 32 :=
  if i = 0 then data 0 - d0 else data (i - 1)

lemma before_add_difference (data : ℕ → BitVec 32) (d0 : BitVec 32) (i : ℕ) :
    before data d0 i + difference data d0 i = data i := by
  rw [before, difference]
  split_ifs with hi
  · rw [hi, BitVec.sub_add_cancel]
  · rw [BitVec.add_comm, BitVec.sub_add_cancel]

/-- Differences that follow each other give the samples. -/
lemma integrate_difference (a m : ℕ) (h : a + m ≤ numSamples) :
    integrate numSamples (before data d0 a) ((List.range a).map data)
        ((List.range' a m).map (difference data d0)) =
      (before data d0 (a + m), (List.range (a + m)).map data) := by
  induction m generalizing a with
  | zero => rfl
  | succ m ih =>
    have hroom : ((List.range a).map data).length < numSamples := by
      rw [List.length_map, List.length_range]
      omega
    have hnext : before data d0 (a + 1) = data a := by simp [before]
    have hlist : (List.range a).map data ++ [data a] = (List.range (a + 1)).map data := by
      rw [List.range_succ, List.map_append, List.map_singleton]
    rw [List.range'_succ, List.map_cons, integrate, if_pos hroom, before_add_difference, hlist,
      ← hnext, ih (a + 1) (by omega), Nat.add_right_comm, Nat.add_assoc]

end Integrate

/-! ### Blocks -/

/-- The differences in the frames before `f`. -/
def countBefore (dec : SteimDecoder) (sw : Swapping) (ws : List PackedWord) (f : ℕ) : ℕ :=
  ((ws.take (valsPerFrame * f - 2)).flatMap (PackedWord.samples dec sw)).length

section Blocks

variable {most f : ℕ} (h : Block sw dec data d0 ws dframes n N)

@[simp] lemma countBefore_zero : countBefore dec sw ws 0 = 0 := by
  simp [countBefore]

/-- The words of a frame follow those of the frames before it. -/
lemma take_frame (f : ℕ) : ws.take (valsPerFrame * (f + 1) - 2) =
    ws.take (valsPerFrame * f - 2) ++
      (ws.drop (valsPerFrame * f - 2)).take (if f = 0 then 13 else 15) := by
  have hsplit : valsPerFrame * (f + 1) - 2 =
      (valsPerFrame * f - 2) + if f = 0 then 13 else 15 := by
    rw [valsPerFrame_eq]
    split_ifs <;> omega
  rw [hsplit, List.take_add]

include h

lemma Block.countBefore_end : countBefore dec sw ws n = N := by
  have hlength := h.length_le
  have hsamples := congrArg List.length h.samples
  rw [List.length_map, List.length_range] at hsamples
  rw [countBefore, List.take_of_length_le (by omega)]
  exact hsamples

/-- The words of a frame hold the differences behind those of the frames before it. -/
lemma Block.flatMap_frame (f : ℕ) :
    countBefore dec sw ws f ≤ countBefore dec sw ws (f + 1) ∧
    countBefore dec sw ws (f + 1) ≤ N ∧
    ((ws.drop (valsPerFrame * f - 2)).take (if f = 0 then 13 else 15)).flatMap
        (PackedWord.samples dec sw) =
      (List.range' (countBefore dec sw ws f)
        (countBefore dec sw ws (f + 1) - countBefore dec sw ws f)).map
        (difference data d0) := by
  set A := (ws.take (valsPerFrame * f - 2)).flatMap (PackedWord.samples dec sw) with hA
  set B := ((ws.drop (valsPerFrame * f - 2)).take (if f = 0 then 13 else 15)).flatMap
    (PackedWord.samples dec sw) with hB
  set C := (ws.drop (valsPerFrame * (f + 1) - 2)).flatMap (PackedWord.samples dec sw) with hC
  have hAB : (ws.take (valsPerFrame * (f + 1) - 2)).flatMap (PackedWord.samples dec sw)
      = A ++ B := by
    rw [take_frame, List.flatMap_append]
  have hall : (A ++ B) ++ C = (List.range N).map (difference data d0) := by
    rw [← h.samples, ← hAB, hC, ← List.flatMap_append, List.take_append_drop]
  have hcount : countBefore dec sw ws f = A.length := rfl
  have hcount' : countBefore dec sw ws (f + 1) = A.length + B.length := by
    rw [countBefore, hAB, List.length_append]
  have hlength := congrArg List.length hall
  simp only [List.length_append, List.length_map, List.length_range] at hlength
  refine ⟨by omega, by omega, ?_⟩
  have hdrop := congrArg (fun l => (l.drop A.length).take B.length) hall
  simp only [List.append_assoc, List.drop_left, List.take_left] at hdrop
  rw [hdrop, hcount, hcount', Nat.add_sub_cancel_left, ← List.map_drop, ← List.map_take,
    List.range_eq_range', List.drop_range', List.take_range'_of_length_ge (by omega), Nat.zero_add,
    Nat.mul_one]

/-- A frame is read as the differences in it, the first one behind the first and the last sample. -/
lemma Block.extractSamples_eq (hroomy : dec.Roomy most) (hf : f < n) :
    ∃ junk, extractSamples dec (frameByte sw dframes) (f * 64) sw.swapBytes =
      some ((if f = 0 then [ctrlOf ws 0 valsPerFrame, data 0, data (N - 1)] else [])
        ++ ((List.range' (countBefore dec sw ws f)
          (countBefore dec sw ws (f + 1) - countBefore dec sw ws f)).map (difference data d0)
          ++ junk)) ∧
      (junk ≠ [] → countBefore dec sw ws (f + 1) = N) := by
  obtain ⟨-, -, hframe⟩ := h.flatMap_frame f
  have hsize : (readWords dec sw dframes f 16).length ≤ dec.size :=
    (h.length_readWords hroomy hf 15).trans hroomy.size
  have hextract : extractSamples dec (frameByte sw dframes) (f * 64) sw.swapBytes =
      some (readWords dec sw dframes f 16) := if_pos hsize
  rw [hextract, ← hframe]
  by_cases hf0 : f = 0
  · subst hf0
    obtain ⟨junk, hread, hjunk⟩ := h.readWords_first hroomy hf (i := 13) (by decide)
    refine ⟨junk, by simpa using hread, fun hne => ?_⟩
    have hlt := hjunk hne
    rw [← h.countBefore_end, countBefore, countBefore, List.take_of_length_le,
      List.take_of_length_le] <;>
    · have hlength := h.length_le
      rw [valsPerFrame_eq] at *
      omega
  · have hread := h.readWords_later hroomy hf (by omega) (i := 15) (by decide)
    refine ⟨[], ?_, by simp⟩
    rw [hread, if_neg hf0, if_neg hf0, List.nil_append, List.append_nil]

/-- Adding the differences of a frame. -/
lemma Block.integrate_frame (f : ℕ) {junk : List (BitVec 32)}
    (hjunk : junk ≠ [] → countBefore dec sw ws (f + 1) = N) :
    integrate N (before data d0 (countBefore dec sw ws f))
        ((List.range (countBefore dec sw ws f)).map data)
        ((List.range' (countBefore dec sw ws f)
          (countBefore dec sw ws (f + 1) - countBefore dec sw ws f)).map (difference data d0)
          ++ junk) =
      (before data d0 (countBefore dec sw ws (f + 1)),
        (List.range (countBefore dec sw ws (f + 1))).map data) := by
  obtain ⟨hle, hN, -⟩ := h.flatMap_frame f
  rw [integrate_append, integrate_difference _ _ (by omega), Nat.add_sub_cancel' hle]
  rcases junk with _ | ⟨d, junk⟩
  · rfl
  · refine integrate_full ?_
    rw [List.length_map, List.length_range, hjunk (by simp)]

/-- The first frame gives the value before the first sample, and the last sample. -/
lemma Block.firstFrame_eq (hpos : 0 < N) (strict : Bool) {bias : BitVec 32}
    (hbias : bias = 0 ∨ bias = data 0 - d0) (x : BitVec 32) (junk : List (BitVec 32))
    (s : DecodeState) :
    firstFrame strict bias ([x, data 0, data (N - 1)]
        ++ ((List.range' (countBefore dec sw ws 0)
          (countBefore dec sw ws 1 - countBefore dec sw ws 0)).map (difference data d0) ++ junk)) s
      = some { s with lastValue := before data d0 0, endValue := data (N - 1) } := by
  have hcount : 0 < countBefore dec sw ws 1 := by
    -- the first word holds a difference
    rcases hws : ws with _ | ⟨p, tail⟩
    · have hsamples := congrArg List.length h.samples
      simp [hws] at hsamples
      omega
    · have hne := (h.good p (by simp [hws])).samples_ne
      have hlength : 0 < (p.samples dec sw).length := List.length_pos_iff.mpr hne
      simp only [countBefore, valsPerFrame_eq, List.take_succ_cons, List.flatMap_cons,
        List.length_append]
      omega
  obtain ⟨m, hm⟩ : ∃ m, countBefore dec sw ws 1 = m + 1 := ⟨_, (Nat.sub_add_cancel hcount).symm⟩
  rw [countBefore_zero, hm, Nat.sub_zero, List.range'_succ, List.map_cons]
  simp only [List.cons_append, List.nil_append, firstFrame, difference, if_true]
  rw [before, if_pos rfl]
  rcases hbias with rfl | rfl
  · rw [if_pos rfl]
  · split_ifs <;> rfl

/-- The variables of `decode` in front of frame `f`: the samples so far. -/
structure Decoding (dec : SteimDecoder) (sw : Swapping) (data : ℕ → BitVec 32) (d0 : BitVec 32)
    (ws : List PackedWord) (N f : ℕ) (s : DecodeState) : Prop where
  samples : s.samples = (List.range (countBefore dec sw ws f)).map data
  last : 0 < f → s.lastValue = before data d0 (countBefore dec sw ws f)
  endValue : 0 < f → s.endValue = data (N - 1)

/-- One frame. -/
lemma Block.decoding_succ (hroomy : dec.Roomy most) (hf : f < n) (hpos : 0 < N) (strict : Bool)
    {bias : BitVec 32} (hbias : bias = 0 ∨ bias = data 0 - d0) {s : DecodeState}
    (hs : Decoding dec sw data d0 ws N f s) :
    ∃ temp s' result, extractSamples dec (frameByte sw dframes) (f * 64) sw.swapBytes = some temp ∧
      (if f = 0 then firstFrame strict bias temp s else some s) = some s' ∧
      integrate N s'.lastValue s'.samples (if f = 0 then temp.drop 3 else temp) = result ∧
      Decoding dec sw data d0 ws N (f + 1)
        { s' with lastValue := result.1, samples := result.2 } := by
  obtain ⟨junk, hextract, hjunk⟩ := h.extractSamples_eq hroomy hf
  have hframe := h.integrate_frame f hjunk
  by_cases hf0 : f = 0
  · subst hf0
    have hfirst := h.firstFrame_eq hpos strict hbias (ctrlOf ws 0 valsPerFrame) junk s
    refine ⟨_, _, _, hextract, hfirst, rfl, ?_⟩
    simp only [if_true, List.cons_append, List.nil_append, List.drop_succ_cons, List.drop_zero]
    rw [hs.samples]
    rw [countBefore_zero] at hframe ⊢
    rw [hframe]
    exact ⟨rfl, fun _ => rfl, fun _ => rfl⟩
  · rw [if_neg hf0, List.nil_append] at hextract
    have hf0' := Nat.pos_of_ne_zero hf0
    refine ⟨_, s, _, hextract, if_neg hf0, rfl, ?_⟩
    rw [if_neg hf0, hs.samples, hs.last hf0', hframe]
    exact ⟨rfl, fun _ => rfl, fun _ => hs.endValue hf0'⟩

lemma Block.decoding_end {s : DecodeState} (hs : Decoding dec sw data d0 ws N n s) :
    s.samples = (List.range N).map data := by
  rw [hs.samples, h.countBefore_end]

end Blocks

section Step

variable {bytes : ℕ → BitVec 8} {numSamples left i : ℕ} {swapBytes : Bool} {bias : BitVec 32}
  {temp : List (BitVec 32)} {s s' : DecodeState} {result : BitVec 32 × List (BitVec 32)}

lemma decodeFrames2_succ
    (hextract : extractSamples decoder2 bytes (i * 64) swapBytes = some temp)
    (hfirst : (if i = 0 then firstFrame false bias temp s else some s) = some s')
    (hresult : integrate numSamples s'.lastValue s'.samples
      (if i = 0 then temp.drop 3 else temp) = result) :
    decodeFrames2 bytes numSamples swapBytes bias (left + 1) i s =
      if 63 ≤ i then none
      else if numSamples ≤ result.2.length then
        some { s' with lastValue := result.1, samples := result.2 }
      else decodeFrames2 bytes numSamples swapBytes bias left (i + 1)
        { s' with lastValue := result.1, samples := result.2 } := by
  by_cases hi : i = 0
  · subst hi
    rw [zero_mul] at hextract
    rw [if_pos rfl] at hfirst hresult
    simp [decodeFrames2, hextract, hfirst, hresult]
  · rw [if_neg hi] at hfirst hresult
    obtain rfl := Option.some.inj hfirst
    simp [decodeFrames2, hextract, hi, hresult]

lemma decodeFrames1_succ
    (hextract : extractSamples decoder1 bytes (i * 64) swapBytes = some temp)
    (hfirst : (if i = 0 then firstFrame true bias temp s else some s) = some s')
    (hresult : integrate numSamples s'.lastValue s'.samples
      (if i = 0 then temp.drop 3 else temp) = result) :
    decodeFrames1 bytes numSamples swapBytes bias (left + 1) i s =
      decodeFrames1 bytes numSamples swapBytes bias left (i + 1)
        { s' with lastValue := result.1, samples := result.2 } := by
  by_cases hi : i = 0
  · subst hi
    rw [zero_mul] at hextract
    rw [if_pos rfl] at hfirst hresult
    simp [decodeFrames1, hextract, hfirst, hresult]
  · rw [if_neg hi] at hfirst hresult
    obtain rfl := Option.some.inj hfirst
    simp [decodeFrames1, hextract, hi, hresult]

end Step

/-- Steim 2 stops at the last sample. -/
lemma Block.decodeFrames2_eq (h : Block sw decoder2 data d0 ws dframes n N) (hn : n ≤ 63)
    (hpos : 0 < N) {bias : BitVec 32} (hbias : bias = 0 ∨ bias = data 0 - d0) {left f : ℕ}
    (hleft : f + left = n) (hpos' : 0 < f + left) {s : DecodeState}
    (hs : Decoding decoder2 sw data d0 ws N f s) :
    ∃ s', decodeFrames2 (frameByte sw dframes) N sw.swapBytes bias left f s = some s' ∧
      s'.samples = (List.range N).map data ∧ s'.endValue = data (N - 1) := by
  induction left generalizing f s with
  | zero =>
    obtain rfl : f = n := by omega
    exact ⟨s, rfl, h.decoding_end hs, hs.endValue (by omega)⟩
  | succ left ih =>
    obtain ⟨temp, s', result, hextract, hfirst, hresult, hs'⟩ :=
      h.decoding_succ roomy_decoder2 (show f < n by omega) hpos false hbias hs
    rw [decodeFrames2_succ hextract hfirst hresult, if_neg (by omega)]
    split_ifs with hall
    · obtain ⟨-, hle, -⟩ := h.flatMap_frame f
      have hsamples := hs'.samples
      simp only at hsamples
      have hcount : countBefore decoder2 sw ws (f + 1) = N := by
        rw [hsamples, List.length_map, List.length_range] at hall
        omega
      refine ⟨_, rfl, ?_, hs'.endValue (by omega)⟩
      rw [hsamples, hcount]
    · exact ih (by omega) (by omega) hs'

/-- Steim 1 reads every frame. -/
lemma Block.decodeFrames1_eq (h : Block sw decoder1 data d0 ws dframes n N) (hpos : 0 < N)
    {bias : BitVec 32} (hbias : bias = 0 ∨ bias = data 0 - d0) {left f : ℕ} (hleft : f + left = n)
    {s : DecodeState} (hs : Decoding decoder1 sw data d0 ws N f s) :
    ∃ s', decodeFrames1 (frameByte sw dframes) N sw.swapBytes bias left f s = some s' ∧
      s'.samples = (List.range N).map data := by
  induction left generalizing f s with
  | zero =>
    obtain rfl : f = n := by omega
    exact ⟨s, rfl, h.decoding_end hs⟩
  | succ left ih =>
    obtain ⟨temp, s', result, hextract, hfirst, hresult, hs'⟩ :=
      h.decoding_succ roomy_decoder1 (show f < n by omega) hpos true hbias hs
    rw [decodeFrames1_succ hextract hfirst hresult]
    exact ih (by omega) hs'

lemma Block.pos (h : Block sw dec data d0 ws dframes n N) : 0 < n := by
  have hlength := h.length_le
  rw [valsPerFrame_eq] at hlength
  omega

lemma decoding_zero {s : DecodeState} (hs : s.samples = []) : Decoding dec sw data d0 ws N 0 s :=
  ⟨by simp [hs], fun h => absurd h (lt_irrefl 0), fun h => absurd h (lt_irrefl 0)⟩

/-- A block of Steim 2 decodes to its samples, and nothing is wrong with it. -/
lemma Block.decode2_eq (h : Block sw decoder2 data d0 ws dframes n N) (hn : n ≤ 63) (hpos : 0 < N)
    {bias : BitVec 32} (hbias : bias = 0 ∨ bias = data 0 - d0) (strictRIC : Bool) :
    decode2 strictRIC (frameByte sw dframes) (n * 64) N sw.swapBytes bias =
      some ⟨(List.range N).map data, false, false⟩ := by
  have hn' := h.pos
  obtain ⟨s, hdecode, hsamples, hend⟩ := h.decodeFrames2_eq hn hpos hbias (Nat.zero_add n)
    (by omega) (decoding_zero (s := ⟨0, [], 0⟩) rfl)
  have hlast : ((List.range N).map data).getLast? = some (data (N - 1)) := by
    obtain ⟨m, rfl⟩ : ∃ m, N = m + 1 := ⟨N - 1, by omega⟩
    rw [List.range_succ, List.map_append, List.map_singleton, List.getLast?_concat]
    rfl
  rw [decode2]
  simp only [Nat.mul_div_cancel n (show 0 < 64 by norm_num), Nat.mul_mod_left, ne_eq,
    not_true_eq_false, if_false, hpos.ne']
  rw [if_neg (by omega), hdecode]
  simp [hsamples, hlast, hend]

/-- A block of Steim 1 decodes to its samples. -/
lemma Block.decode1_eq (h : Block sw decoder1 data d0 ws dframes n N) (hpos : 0 < N)
    {bias : BitVec 32} (hbias : bias = 0 ∨ bias = data 0 - d0) :
    decode1 (frameByte sw dframes) (n * 64) N sw.swapBytes bias =
      some ((List.range N).map data) := by
  obtain ⟨s, hdecode, hsamples⟩ := h.decodeFrames1_eq hpos hbias (Nat.zero_add n)
    (decoding_zero (s := ⟨0, [], 0⟩) rfl)
  rw [decode1]
  simp only [Nat.mul_div_cancel n (show 0 < 64 by norm_num), Nat.mul_mod_left, ne_eq,
    not_true_eq_false, if_false, hdecode]
  simp [hsamples]

end Shake

end StationProcessor
