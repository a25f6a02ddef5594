import StationProcessor.SeedHeader

/-!
# Growing buffers

The buffers of `falcon/buffer.c`: bytes and an offset, where the next write goes. A write at the
end of the bytes appends, one before it overwrites.
-/

namespace StationProcessor

/-- `buffer_t`; `good` is what `buffer_good` checks. -/
structure Buffer where
  content : Bytes
  offset : ℕ
  good : offset ≤ content.length

/-- `buffer_init`. -/
def bufferInit : Buffer := ⟨[], 0, le_rfl⟩

/-- `buffer_write`. -/
def bufferWrite (buf : Buffer) (src : Bytes) : Buffer where
  content := buf.content.take buf.offset ++ src ++ buf.content.drop (buf.offset + src.length)
  offset := buf.offset + src.length
  good := by
    have h := buf.good
    simp only [List.length_append, List.length_take, Nat.min_eq_left h]
    exact Nat.le_add_right _ _

/-- `buffer_terminate`. -/
def bufferTerminate (buf : Buffer) : Buffer := bufferWrite buf [0]

/-- `buffer_seek`. -/
def bufferSeek (buf : Buffer) (offset : ℕ) : Buffer :=
  if h : offset ≤ buf.content.length then { buf with offset := offset, good := h } else buf

namespace Buffer

/-- The buffer with its offset at the end of the bytes. -/
def ofBytes (bs : Bytes) : Buffer := ⟨bs, bs.length, le_rfl⟩

@[simp] lemma content_ofBytes (bs : Bytes) : (ofBytes bs).content = bs := rfl

@[simp] lemma offset_ofBytes (bs : Bytes) : (ofBytes bs).offset = bs.length := rfl

@[ext] lemma ext {b c : Buffer} (hcontent : b.content = c.content) (hoffset : b.offset = c.offset) :
    b = c := by
  cases b
  cases c
  simp_all

lemma bufferInit_eq : bufferInit = ofBytes [] := rfl

/-- A write at the end appends. -/
@[simp] lemma write_ofBytes (bs src : Bytes) :
    bufferWrite (ofBytes bs) src = ofBytes (bs ++ src) := by
  apply ext
  · simp [bufferWrite]
  · simp [bufferWrite]

@[simp] lemma terminate_ofBytes (bs : Bytes) : bufferTerminate (ofBytes bs) = ofBytes (bs ++ [0]) :=
  write_ofBytes bs [0]

/-- The buffer with its offset between two parts of the bytes. -/
def between (a b : Bytes) : Buffer :=
  ⟨a ++ b, a.length, by rw [List.length_append]; exact Nat.le_add_right _ _⟩

@[simp] lemma content_between (a b : Bytes) : (between a b).content = a ++ b := rfl

lemma seek_ofBytes (a b : Bytes) {offset : ℕ} (h : a.length = offset) :
    bufferSeek (ofBytes (a ++ b)) offset = between a b := by
  subst h
  apply ext
  · simp [bufferSeek]
  · simp [bufferSeek, between]

/-- A write before the end overwrites. -/
lemma write_between (a c : Bytes) {b src : Bytes} (h : src.length = b.length) :
    bufferWrite (between a (b ++ c)) src = between (a ++ src) c := by
  apply ext
  · simp [bufferWrite, between, h]
  · simp [bufferWrite, between]

end Buffer

end StationProcessor
