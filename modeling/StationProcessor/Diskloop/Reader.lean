import StationProcessor.Diskloop.Transfer

/-!
# A reader beside the writer

`netreq`, `netseed` and `falcon` open a loop once and keep the context while `archd` appends to
the same file. Every call of the reader sees the flushed bytes of the file, but `size` stays what
it was when the loop was opened.
-/

namespace StationProcessor

open Fallible

variable {n c : ℕ} {cfg : Config n} {ctx : DiskloopContext n} {ch : Channel}

/-! ### The index file of a writer -/

/-- The writer keeps its index within the capacity `c`, and the index file holds some such
index, current or not. -/
structure IndexOnFile (c : ℕ) (ctx : DiskloopContext n) : Prop where
  capacity : ctx.capacity = c
  index : -1 ≤ ctx.index ∧ ctx.index < c
  file : ∃ i : ℤ, -1 ≤ i ∧ i < c ∧ ctx.indexFp.data = indexImage i c

lemma IndexOnFile.flush (h : IndexOnFile c ctx) (now : Timeval) :
    IndexOnFile c (adlFlush ctx now) := by
  unfold adlFlush
  split_ifs
  · exact ⟨h.capacity, h.index, h.file⟩
  · exact h

lemma IndexOnFile.writeIndex (h : IndexOnFile c ctx) (now : Timeval) :
    IndexOnFile c (adlWriteIndex ctx now) := by
  unfold adlWriteIndex
  split_ifs
  · obtain ⟨i, -, -, hdata⟩ := h.file
    refine ⟨h.capacity, h.index, ctx.index, h.index.1, h.index.2, ?_⟩
    simp only [Stream.fflush]
    rw [hdata, List.drop_eq_nil_of_le (length_indexImage _ _).le, List.append_nil, h.capacity]
  · exact h

lemma IndexOnFile.flushIfDue (h : IndexOnFile c ctx) (env : WriteEnv) :
    IndexOnFile c (flushIfDue env ctx) := by
  unfold StationProcessor.flushIfDue
  split_ifs
  · exact (h.flush _).writeIndex _
  · exact h.flush _
  · exact h

lemma IndexOnFile.stored (h : IndexOnFile c ctx) {newIndex : ℤ}
    (hnew : -1 ≤ newIndex ∧ newIndex < c) (r : Record n) :
    IndexOnFile c (ctx.stored cfg newIndex r) :=
  ⟨h.capacity, hnew, h.file⟩

/-- An append keeps the index within bounds, on file too. -/
lemma IndexOnFile.append (hc : 0 < c) (h : IndexOnFile c ctx) (env : WriteEnv) (r : Record n) :
    IndexOnFile c (adlWrite cfg env ctx (-1) r).2 := by
  have hcap := h.capacity
  have hindex := h.index
  have hnew : -1 ≤ (if ctx.index + 1 ≥ ctx.capacity then 0 else ctx.index + 1) ∧
      (if ctx.index + 1 ≥ ctx.capacity then 0 else ctx.index + 1) < (c : ℤ) := by
    split_ifs <;> omega
  unfold adlWrite
  rw [if_neg (show ¬((0 : ℤ) ≤ -1 ∧ (-1 : ℤ) ≥ ctx.capacity) by omega)]
  by_cases hover : overlaps cfg ctx.lastRecordSamples ctx.lastRecordEnd r = true
  · rw [if_pos hover]
    exact h
  rw [if_neg hover]
  dsimp only
  by_cases hok : (!env.fwriteOk) = true
  · rw [if_pos hok]
    exact h
  · rw [if_neg hok]
    exact (h.stored hnew r).flushIfDue env

lemma IndexOnFile.appendAll (hc : 0 < c) (h : IndexOnFile c ctx)
    (writes : List (WriteEnv × Record n)) :
    IndexOnFile c (appendAll cfg ctx writes) := by
  induction writes generalizing ctx with
  | nil => exact h
  | cons w writes ih => exact ih (h.append hc w.1 w.2)

/-! ### Opening by the reader -/

/-- The context of the reader when it looks at the present contents of the file. -/
def DiskloopContext.reread (ctx : DiskloopContext n) (file : Bytes) : DiskloopContext n :=
  { ctx with loopFp := Stream.ofFile file }

/-- The writing process and one reading process; `reader` is the context in the map of the
latter. -/
structure Shared (n : ℕ) where
  writer : DiskloopContext n
  reader : Option (DiskloopContext n)

/-- The writer appends a record and flushes, or the reader makes a call: `GetRecordRange`,
`TransferData`, `ReadIndex` or `RangeSpans`, which open the loop and then only read. -/
inductive Event (n : ℕ)
  | append (env : WriteEnv) (record : Record n)
  | call (tempB : Bytes)

/-- The files as the reader finds them. -/
def Shared.files (s : Shared n) : ChannelFiles :=
  ⟨some s.writer.loopFp.data, some s.writer.indexFp.data⟩

/-- The cached context of the reader at the present contents of the file. -/
def Shared.cached (s : Shared n) : Option (DiskloopContext n) :=
  s.reader.map (·.reread s.writer.loopFp.data)

def Shared.step (cfg : Config n) (ch : Channel) (s : Shared n) : Event n → Shared n
  | .append env record => { s with writer := (adlWrite cfg env s.writer (-1) record).2 }
  | .call tempB =>
    { s with
      reader := match (adlOpen cfg ch s.cached s.files tempB).1 with
        | .ok ctx => some ctx
        | .error _ => s.reader }

def Shared.run (cfg : Config n) (ch : Channel) (s : Shared n) (events : List (Event n)) :
    Shared n :=
  events.foldl (Shared.step cfg ch) s

/-- A loop of four slots with its first record, before any reader opened it. -/
def firstRecord : Shared 512 :=
  ⟨(adlWrite hostConfig quietWrite (newLoop "BHZ.buf" "BHZ.idx" 4) (-1) (logRecord 0 10)).2, none⟩

end StationProcessor
