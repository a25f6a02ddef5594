import StationProcessor.Falcon.Buffer

/-!
# Calls on a growing buffer

`buffer_t` with its fields, as the functions of `falcon/buffer.c` update them. A buffer is compared
with bytes and a position, call by call. Memory can be had; `realloc` to no bytes releases the
memory and returns null.
-/

namespace StationProcessor

/-- `content`: null, memory, or memory that was released. -/
inductive BufferContent
  | null
  | memory (bytes : Bytes)
  | released
deriving DecidableEq

/-- The fields of a `buffer_t`. -/
structure BufferFields where
  content : BufferContent
  capacity : ℕ
  length : ℕ
  offset : ℕ
deriving DecidableEq

/-- A call on a buffer; the destination of a read has `length` bytes. -/
inductive BufferCall
  | write (src : Bytes)
  | read (length : ℕ)
  | seek (offset : ℕ)
  | erase (length : ℕ)
deriving DecidableEq

/-- What a call returns, and what it puts into the destination. -/
structure CallResult where
  value : ℕ
  copied : Bytes
deriving DecidableEq

namespace BufferFields

variable (buf : BufferFields)

/-- The fields that `buffer_init` sets. -/
def init : BufferFields := ⟨.null, 0, 0, 0⟩

/-- `buffer_good`. -/
def good : Prop := buf.length ≤ buf.capacity ∧ buf.offset ≤ buf.length

instance : Decidable buf.good := inferInstanceAs (Decidable (_ ∧ _))

/-- `realloc` of these bytes to a size that is not 0. -/
def realloc (bytes : Bytes) (size : ℕ) : Bytes := (bytes.take size).rightpad size 0

/-- The end of `buffer_write`, with the memory it writes to. -/
def writeTo (bytes src : Bytes) (newLength newCapacity : ℕ) : BufferFields where
  content := .memory
    (bytes.take buf.offset ++ src ++ bytes.drop (buf.offset + src.length))
  capacity := newCapacity
  length := newLength
  offset := buf.offset + src.length

/-- `buffer_write`. `none` is a use of released memory. -/
def write (src : Bytes) : Option (BufferFields × CallResult) :=
  if buf.good ∧ src.length ≠ 0 then
    let newLength := if buf.offset + src.length < buf.length then buf.length
      else buf.offset + src.length
    match buf.content with
    | .released => none
    | .null => some (buf.writeTo (realloc [] newLength) src newLength newLength, ⟨src.length, []⟩)
    | .memory bytes =>
      if newLength ≤ buf.capacity then
        some (buf.writeTo bytes src newLength buf.capacity, ⟨src.length, []⟩)
      else
        some (buf.writeTo (realloc bytes newLength) src newLength newLength, ⟨src.length, []⟩)
  else some (buf, ⟨0, []⟩)

/-- `buffer_read`. -/
def read (length : ℕ) : Option (BufferFields × CallResult) :=
  if buf.good ∧ length ≠ 0 then
    let srcLen := if buf.length > buf.offset then buf.length - buf.offset else 0
    match buf.content with
    | .null => some (buf, ⟨0, []⟩)
    | .released => if srcLen ≠ 0 then none else some (buf, ⟨0, []⟩)
    | .memory bytes =>
      if srcLen ≠ 0 then some (buf, ⟨srcLen, (bytes.drop buf.offset).take srcLen⟩)
      else some (buf, ⟨0, []⟩)
  else some (buf, ⟨0, []⟩)

/-- `buffer_seek`. -/
def seek (offset : ℕ) : BufferFields × CallResult :=
  if buf.good ∧ offset ≤ buf.length then ({ buf with offset := offset }, ⟨offset, []⟩)
  else (buf, ⟨0, []⟩)

/-- `memmove` of `count` bytes within memory. -/
def memmove (bytes : Bytes) (dst src count : ℕ) : Bytes :=
  bytes.take dst ++ (bytes.drop src).take count ++ bytes.drop (dst + count)

/-- `buffer_erase`. It never counts the bytes it erases. -/
def erase (length : ℕ) : Option (BufferFields × CallResult) :=
  if buf.good ∧ length ≠ 0 ∧ length ≤ buf.length - buf.offset then
    match buf.content with
    | .null => some (buf, ⟨0, []⟩)
    | .released => none
    | .memory bytes =>
      let moved := memmove bytes buf.offset (buf.offset + length)
        (buf.length - (buf.offset + length))
      let newLength := buf.length - length
      if newLength = 0 then some ({ buf with content := .released }, ⟨0, []⟩)
      else some (⟨.memory (realloc moved newLength), newLength, newLength, newLength⟩, ⟨0, []⟩)
  else some (buf, ⟨0, []⟩)

/-- One call. -/
def call : BufferCall → Option (BufferFields × CallResult)
  | .write src => buf.write src
  | .read length => buf.read length
  | .seek offset => some (buf.seek offset)
  | .erase length => buf.erase length

end BufferFields

/-! ### Bytes with a position -/

/-- The buffer holds these bytes and this position, and `offset ≤ length ≤ capacity`. -/
structure HoldsBuffer (buf : BufferFields) (b : Buffer) : Prop where
  content : (buf.content = .null ∧ buf.capacity = 0 ∧ b.content = []) ∨
    ∃ bytes, buf.content = .memory bytes ∧ bytes.length = buf.capacity ∧
      bytes.take buf.length = b.content
  offset : buf.offset = b.offset
  length : buf.length = b.content.length
  length_le : buf.length ≤ buf.capacity

namespace Buffer

variable (b : Buffer)

/-- The bytes from the position on. -/
def remaining : Bytes := b.content.drop b.offset

/-- What a call on bytes with a position leaves and returns. The position after a read and after
an erase is not said, and an erase of more than there is has no meaning. -/
def Answers (b' : Buffer) (result : CallResult) : BufferCall → Prop
  | .write src => b' = bufferWrite b src ∧ result.value = src.length
  | .read length => b'.content = b.content ∧ result.copied = b.remaining.take length ∧
      result.value = min length b.remaining.length
  | .seek offset => b' = bufferSeek b offset ∧ result.value = b'.offset
  | .erase length => length ≤ b.remaining.length →
      b'.content = b.content.take b.offset ++ b.content.drop (b.offset + length) ∧
        result.value = length

/-- The calls that are answered as they should be: no read into less than what remains, no seek out
of the bytes from behind their start, and no erase of what is there. -/
def Answerable : BufferCall → Prop
  | .write _ => True
  | .read length => length = 0 ∨ b.remaining.length ≤ length
  | .seek offset => offset ≤ b.content.length ∨ b.offset = 0
  | .erase length => length = 0 ∨ b.remaining.length < length

instance : (call : BufferCall) → Decidable (b.Answerable call)
  | .write _ => isTrue trivial
  | .read _ => inferInstanceAs (Decidable (_ ∨ _))
  | .seek _ => inferInstanceAs (Decidable (_ ∨ _))
  | .erase _ => inferInstanceAs (Decidable (_ ∨ _))

/-- The bytes and the position after such a call. -/
def next : BufferCall → Buffer
  | .write src => bufferWrite b src
  | .seek offset => bufferSeek b offset
  | _ => b

/-- All calls of a run are answerable. -/
def AllAnswerable (b : Buffer) : List BufferCall → Prop
  | [] => True
  | call :: calls => b.Answerable call ∧ AllAnswerable (b.next call) calls

instance decidableAllAnswerable :
    (b : Buffer) → (calls : List BufferCall) → Decidable (b.AllAnswerable calls)
  | _, [] => isTrue trivial
  | b, call :: calls =>
    have := decidableAllAnswerable (b.next call) calls
    inferInstanceAs (Decidable (_ ∧ _))

end Buffer

/-- Calls on a buffer are answered one after the other as by bytes with a position. -/
def BehavesAs (buf : BufferFields) (b : Buffer) : List BufferCall → Prop
  | [] => HoldsBuffer buf b
  | call :: calls => HoldsBuffer buf b ∧ ∃ buf' result b', buf.call call = some (buf', result) ∧
      b.Answers b' result call ∧ BehavesAs buf' b' calls

/-! ### One call -/

section Calls

variable {buf buf' : BufferFields} {b b' : Buffer}

lemma HoldsBuffer.good (h : HoldsBuffer buf b) : buf.good := by
  refine ⟨h.length_le, ?_⟩
  rw [h.offset, h.length]
  exact b.good

lemma HoldsBuffer.unique (h : HoldsBuffer buf b) (h' : HoldsBuffer buf b') : b = b' := by
  apply Buffer.ext
  · rcases h.content with ⟨hnull, hzero, hnil⟩ | ⟨bytes, hbytes, -, htake⟩
    · have hlen := h'.length_le
      rw [h'.length, hzero] at hlen
      rw [hnil, List.length_eq_zero_iff.mp (Nat.le_zero.mp hlen)]
    · rcases h'.content with ⟨hnull, -, -⟩ | ⟨bytes', hbytes', -, htake'⟩
      · rw [hbytes] at hnull
        cases hnull
      · rw [hbytes] at hbytes'
        cases hbytes'
        rw [← htake, ← htake']
  · rw [← h.offset, ← h'.offset]

lemma holdsBuffer_init : HoldsBuffer .init bufferInit :=
  ⟨Or.inl ⟨rfl, rfl, rfl⟩, rfl, rfl, le_rfl⟩

lemma length_realloc (bytes : Bytes) (size : ℕ) :
    (BufferFields.realloc bytes size).length = size := by
  rw [BufferFields.realloc, List.length_rightpad, List.length_take]
  exact max_eq_left (min_le_left _ _)

lemma take_realloc {bytes : Bytes} {size k : ℕ} (hk : k ≤ bytes.length) (hsize : k ≤ size) :
    (BufferFields.realloc bytes size).take k = bytes.take k := by
  have hlen : k ≤ (bytes.take size).length := by
    rw [List.length_take]
    exact le_min hsize hk
  rw [BufferFields.realloc, List.rightpad, List.take_append_of_le_length hlen, List.take_take,
    min_eq_left hsize]

/-- The memory that a write overlays, by what is before the position and behind what is written. -/
lemma holds_writeTo (h : HoldsBuffer buf b) {bytes src : Bytes} {newLength newCapacity : ℕ}
    (hnew : newLength = max buf.length (buf.offset + src.length))
    (hlen : bytes.length = newCapacity) (hle : newLength ≤ newCapacity)
    (hbefore : bytes.take buf.offset = b.content.take b.offset)
    (hbehind : (bytes.drop (buf.offset + src.length)).take (newLength - (buf.offset + src.length))
      = b.content.drop (b.offset + src.length)) :
    HoldsBuffer (buf.writeTo bytes src newLength newCapacity) (bufferWrite b src) := by
  have hoffset := h.offset
  have hgood := b.good
  have hlength := h.length
  have hroom : (bytes.take buf.offset ++ src).length = buf.offset + src.length := by
    rw [List.length_append, List.length_take]
    omega
  refine ⟨Or.inr ⟨_, rfl, ?_, ?_⟩, ?_, ?_, hle⟩
  · rw [List.length_append, hroom, List.length_drop]
    show _ = newCapacity
    omega
  · show (bytes.take buf.offset ++ src ++ _).take newLength = _
    rw [List.take_append, List.take_of_length_le (by rw [hroom]; omega), hroom, hbehind, hbefore]
    rfl
  · show buf.offset + src.length = b.offset + src.length
    rw [hoffset]
  · show newLength = _
    simp only [bufferWrite, List.length_append, List.length_take, List.length_drop]
    omega

lemma HoldsBuffer.write (h : HoldsBuffer buf b) (src : Bytes) :
    ∃ buf', buf.write src = some (buf', ⟨src.length, []⟩) ∧
      HoldsBuffer buf' (bufferWrite b src) := by
  rw [BufferFields.write]
  by_cases hsrc : src.length = 0
  · obtain rfl := List.length_eq_zero_iff.mp hsrc
    have hsame : bufferWrite b [] = b := by
      apply Buffer.ext
      · simp [bufferWrite]
      · rfl
    rw [if_neg fun hgood => hgood.2 rfl, hsame]
    exact ⟨buf, rfl, h⟩
  rw [if_pos ⟨h.good, hsrc⟩]
  have hoffset := h.offset
  have hlength := h.length
  have hle := h.length_le
  have hgood := b.good
  generalize hnew : (if buf.offset + src.length < buf.length then buf.length
    else buf.offset + src.length) = newLength
  have hmax : newLength = max buf.length (buf.offset + src.length) := by
    rw [← hnew]
    split_ifs <;> omega
  rcases h.content with ⟨hnull, hzero, hnil⟩ | ⟨bytes, hbytes, hsize, htake⟩
  · simp only [hnull]
    refine ⟨_, rfl, holds_writeTo h hmax (length_realloc _ _) le_rfl ?_ ?_⟩
    · have hstart : buf.offset = 0 := by
        rw [hnil] at hgood
        exact hoffset.trans (Nat.le_zero.mp hgood)
      rw [← hoffset, hstart, List.take_zero, List.take_zero]
    · have hnone : newLength - (buf.offset + src.length) = 0 := by omega
      rw [hnone, List.take_zero, hnil, List.drop_nil]
  · simp only [hbytes]
    by_cases hfits : newLength ≤ buf.capacity
    · rw [if_pos hfits]
      refine ⟨_, rfl, holds_writeTo h hmax hsize hfits ?_ ?_⟩
      · rw [← htake, List.take_take, ← hoffset, min_eq_left (by omega)]
      · rw [← htake, ← hoffset, List.drop_take]
        congr 1
        omega
    · rw [if_neg hfits]
      refine ⟨_, rfl, holds_writeTo h hmax (length_realloc _ _) le_rfl ?_ ?_⟩
      · rw [take_realloc (by omega) (by omega), ← htake, List.take_take, ← hoffset,
          min_eq_left (by omega)]
      · have hnone : newLength - (buf.offset + src.length) = 0 := by omega
        rw [hnone, List.take_zero, List.drop_of_length_le (by omega)]

/-- `buffer_read` copies all that remains, whatever the destination holds. -/
lemma HoldsBuffer.read (h : HoldsBuffer buf b) {length : ℕ} (hlength : length ≠ 0) :
    buf.read length = some (buf, ⟨b.remaining.length, b.remaining⟩) := by
  have hoffset := h.offset
  have hlen := h.length
  have hgood := b.good
  have hremaining : b.remaining.length = buf.length - buf.offset := by
    rw [Buffer.remaining, List.length_drop, hlen, hoffset]
  have hsrc : (if buf.length > buf.offset then buf.length - buf.offset else 0)
      = b.remaining.length := by
    rw [hremaining]
    split_ifs <;> omega
  rw [BufferFields.read, if_pos ⟨h.good, hlength⟩]
  simp only [hsrc]
  by_cases hnone : b.remaining.length = 0
  · rcases h.content with ⟨hnull, -, -⟩ | ⟨bytes, hbytes, -, -⟩
    · simp only [hnull, List.length_eq_zero_iff.mp hnone, List.length_nil]
    · simp only [hbytes, List.length_eq_zero_iff.mp hnone, List.length_nil, ne_eq, not_true,
        if_false]
  · rcases h.content with ⟨-, -, hnil⟩ | ⟨bytes, hbytes, -, htake⟩
    · rw [Buffer.remaining, hnil, List.drop_nil] at hnone
      exact absurd rfl hnone
    · simp only [hbytes, ne_eq, hnone, not_false_eq_true, if_true]
      rw [hremaining, Buffer.remaining, ← htake, ← hoffset, List.drop_take]

lemma HoldsBuffer.seek_of_le (h : HoldsBuffer buf b) {offset : ℕ}
    (hle : offset ≤ b.content.length) :
    buf.seek offset = ({ buf with offset := offset }, ⟨offset, []⟩) := by
  rw [BufferFields.seek, if_pos ⟨h.good, h.length.symm ▸ hle⟩]

/-- A seek out of the bytes reports the start. -/
lemma HoldsBuffer.seek_of_lt (h : HoldsBuffer buf b) {offset : ℕ}
    (hlt : b.content.length < offset) : buf.seek offset = (buf, ⟨0, []⟩) := by
  rw [BufferFields.seek, if_neg]
  rintro ⟨-, hle⟩
  rw [h.length] at hle
  exact absurd hle (not_le.mpr hlt)

lemma HoldsBuffer.seek (h : HoldsBuffer buf b) (offset : ℕ) :
    HoldsBuffer (buf.seek offset).1 (bufferSeek b offset) := by
  rcases le_or_gt offset b.content.length with hle | hlt
  · rw [h.seek_of_le hle, bufferSeek, dif_pos hle]
    exact ⟨h.content, rfl, h.length, h.length_le⟩
  · rw [h.seek_of_lt hlt, bufferSeek, dif_neg (not_le.mpr hlt)]
    exact h

/-- No erase is counted. -/
lemma erase_value {length : ℕ} {result : CallResult}
    (h : buf.erase length = some (buf', result)) : result.value = 0 := by
  rw [BufferFields.erase] at h
  split_ifs at h with hsome
  · cases hcontent : buf.content with
    | null =>
      simp only [hcontent] at h
      cases h
      rfl
    | released =>
      simp only [hcontent] at h
      cases h
    | memory bytes =>
      simp only [hcontent] at h
      split_ifs at h
      all_goals
        cases h
        rfl
  · cases h
    rfl

/-- An erase of some bytes, but not of all, removes them and goes to the end. -/
lemma HoldsBuffer.erase (h : HoldsBuffer buf b) {length : ℕ} (hpos : length ≠ 0)
    (hle : length ≤ b.remaining.length) (hsome : length ≠ b.content.length) :
    ∃ buf', buf.erase length = some (buf', ⟨0, []⟩) ∧ HoldsBuffer buf'
      (Buffer.ofBytes (b.content.take b.offset ++ b.content.drop (b.offset + length))) := by
  have hoffset := h.offset
  have hlen := h.length
  rw [Buffer.remaining, List.length_drop] at hle
  rcases h.content with ⟨-, -, hnil⟩ | ⟨bytes, hbytes, hsize, htake⟩
  · rw [hnil, List.length_nil, Nat.zero_sub] at hle
    exact absurd (Nat.le_zero.mp hle) hpos
  have hcap := h.length_le
  have hgood := b.good
  have hrest : buf.length - length ≠ 0 := by omega
  rw [BufferFields.erase, if_pos ⟨h.good, hpos, by omega⟩]
  simp only [hbytes, if_neg hrest]
  have hkept : (BufferFields.memmove bytes buf.offset (buf.offset + length)
      (buf.length - (buf.offset + length))).take (buf.length - length)
        = b.content.take b.offset ++ b.content.drop (b.offset + length) := by
    have hfirst : (bytes.take buf.offset ++ (bytes.drop (buf.offset + length)).take
        (buf.length - (buf.offset + length))).length = buf.length - length := by
      rw [List.length_append, List.length_take, List.length_take, List.length_drop]
      omega
    rw [BufferFields.memmove, List.take_left' hfirst, ← htake, List.take_take, List.drop_take,
      ← hoffset, min_eq_left (by omega)]
  have hlong : buf.length - length ≤ (BufferFields.memmove bytes buf.offset (buf.offset + length)
      (buf.length - (buf.offset + length))).length := by
    have hcount := congrArg List.length hkept
    simp only [List.length_append, List.length_take, List.length_drop] at hcount
    omega
  refine ⟨_, rfl, Or.inr ⟨_, rfl, length_realloc _ _, ?_⟩, ?_, ?_, le_rfl⟩
  · rw [take_realloc hlong le_rfl, hkept]
    rfl
  · show buf.length - length = Buffer.offset (Buffer.ofBytes _)
    rw [← hkept, Buffer.offset_ofBytes, List.length_take, min_eq_left hlong]
  · show buf.length - length = List.length _
    rw [← hkept, Buffer.content_ofBytes, List.length_take, min_eq_left hlong]

/-! ### Runs of calls -/

/-- An answerable call is answered. -/
lemma HoldsBuffer.answers (h : HoldsBuffer buf b) {call : BufferCall} (hcall : b.Answerable call) :
    ∃ buf' result, buf.call call = some (buf', result) ∧ HoldsBuffer buf' (b.next call) ∧
      b.Answers (b.next call) result call := by
  cases call with
  | write src =>
    obtain ⟨buf', hwrite, hholds⟩ := h.write src
    exact ⟨buf', _, hwrite, hholds, rfl, rfl⟩
  | read length =>
    by_cases hzero : length = 0
    · subst hzero
      refine ⟨buf, ⟨0, []⟩, if_neg fun hgood => hgood.2 rfl, h, rfl, ?_, ?_⟩
      · rw [List.take_zero]
      · rw [Nat.zero_min]
    · have hle := hcall.resolve_left hzero
      refine ⟨buf, _, h.read hzero, h, rfl, ?_, ?_⟩
      · rw [List.take_of_length_le hle]
      · rw [min_eq_right hle]
  | seek offset =>
    refine ⟨_, (buf.seek offset).2, rfl, h.seek offset, rfl, ?_⟩
    show (buf.seek offset).2.value = (bufferSeek b offset).offset
    rcases le_or_gt offset b.content.length with hle | hlt
    · rw [h.seek_of_le hle, bufferSeek, dif_pos hle]
    · rw [h.seek_of_lt hlt, bufferSeek, dif_neg (not_le.mpr hlt)]
      exact (hcall.resolve_left (not_le.mpr hlt)).symm
  | erase length =>
    have hnone : ¬(buf.good ∧ length ≠ 0 ∧ length ≤ buf.length - buf.offset) := by
      rintro ⟨-, hpos, hle⟩
      have hlt := hcall.resolve_left hpos
      rw [Buffer.remaining, List.length_drop, ← h.length, ← h.offset] at hlt
      exact absurd hle (not_le.mpr hlt)
    refine ⟨buf, ⟨0, []⟩, if_neg hnone, h, fun hle => ?_⟩
    have hzero : length = 0 := hcall.resolve_right (not_lt.mpr hle)
    subst hzero
    exact ⟨(List.take_append_drop _ _).symm, rfl⟩

/-- What is answered was answerable. -/
lemma HoldsBuffer.answerable (h : HoldsBuffer buf b) {call : BufferCall} {result : CallResult}
    (hrun : buf.call call = some (buf', result)) (hanswers : b.Answers b' result call) :
    b.Answerable call := by
  cases call with
  | write src => trivial
  | read length =>
    refine or_iff_not_imp_left.mpr fun hzero => ?_
    cases (h.read hzero).symm.trans hrun
    exact min_eq_right_iff.mp hanswers.2.2.symm
  | seek offset =>
    refine or_iff_not_imp_left.mpr fun hout => ?_
    have hlt := not_le.mp hout
    obtain ⟨rfl, hvalue⟩ := hanswers
    cases (congrArg some (h.seek_of_lt hlt)).symm.trans hrun
    rw [bufferSeek, dif_neg hout] at hvalue
    exact hvalue.symm
  | erase length =>
    refine or_iff_not_imp_right.mpr fun hlt => ?_
    rw [← (hanswers (not_lt.mp hlt)).2]
    exact erase_value hrun

lemma HoldsBuffer.behavesAs_iff (h : HoldsBuffer buf b) (calls : List BufferCall) :
    BehavesAs buf b calls ↔ b.AllAnswerable calls := by
  induction calls generalizing buf b with
  | nil => exact iff_of_true h trivial
  | cons call calls ih =>
    constructor
    · rintro ⟨-, buf', result, b', hrun, hanswers, hrest⟩
      have hcall := h.answerable hrun hanswers
      obtain ⟨buf'', result', hrun', hholds, -⟩ := h.answers hcall
      cases hrun.symm.trans hrun'
      have hholds' : HoldsBuffer buf' b' := by
        cases calls with
        | nil => exact hrest
        | cons _ _ => exact hrest.1
      cases hholds'.unique hholds
      exact ⟨hcall, (ih hholds).mp hrest⟩
    · rintro ⟨hcall, hrest⟩
      obtain ⟨buf', result, hrun, hholds, hanswers⟩ := h.answers hcall
      exact ⟨h, buf', result, _, hrun, hanswers, (ih hholds).mpr hrest⟩

/-- **Calls on a buffer.** Calls on a new buffer are answered as by bytes with a position if and
only if no read is into less than what remains, no seek from behind the start is out of the bytes,
and no bytes are erased that are there. -/
theorem bufferCalls_behave_iff (calls : List BufferCall) :
    BehavesAs .init bufferInit calls ↔ bufferInit.AllAnswerable calls :=
  holdsBuffer_init.behavesAs_iff calls

/-- A read into one byte gets three, and an erase of them is not counted. -/
theorem bufferCalls_overrun :
    ¬ BehavesAs .init bufferInit [.write [1, 2, 3], .seek 0, .read 1] ∧
      ¬ BehavesAs .init bufferInit [.write [1, 2, 3], .seek 4] ∧
      ¬ BehavesAs .init bufferInit [.write [1, 2, 3], .seek 1, .erase 1] := by
  have hnot : ∀ calls, ¬ bufferInit.AllAnswerable calls → ¬ BehavesAs .init bufferInit calls :=
    fun calls => (holdsBuffer_init.behavesAs_iff calls).not.mpr
  exact ⟨hnot _ (by decide), hnot _ (by decide), hnot _ (by decide)⟩

end Calls

end StationProcessor
