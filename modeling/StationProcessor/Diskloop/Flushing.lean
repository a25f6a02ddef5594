import StationProcessor.Diskloop.Open
import StationProcessor.Lib.Fallible

/-!
# Flushing a disk loop

The calls that write to an open loop, flush it and update its index file: `adl_write`, the
callbacks of `adl_flush_all` and `adl_write_all_indices`, and `adl_close`. Each is a run of three
routines: a record is stored, the loop file is flushed, the index is written. An index is written
right after a flush in all of them, so the index file is never ahead of the loop file.
-/

namespace StationProcessor

open Fallible

variable {n : ℕ} {cfg : Config n} {ctx : DiskloopContext n}

/-! ### The calls -/

/-- `flush_callback`. -/
def flushCallback (ctx : DiskloopContext n) (now : Timeval) : DiskloopContext n :=
  adlFlush ctx now

/-- `write_index_callback`. -/
def writeIndexCallback (ctx : DiskloopContext n) (flushNow indexNow : Timeval) :
    DiskloopContext n :=
  adlWriteIndex (adlFlush ctx flushNow) indexNow

/-- What happens to an open context, with the clock readings: a write, and the calls of
`adl_flush_all` and `adl_write_all_indices` for it. -/
inductive ContextCall (n : ℕ)
  | write (env : WriteEnv) (index : ℤ) (r : Record n)
  | flushAll (now : Timeval)
  | writeAllIndices (flushNow indexNow : Timeval)

def ContextCall.run (cfg : Config n) (ctx : DiskloopContext n) : ContextCall n → DiskloopContext n
  | .write env index r => (adlWrite cfg env ctx index r).2
  | .flushAll now => flushCallback ctx now
  | .writeAllIndices flushNow indexNow => writeIndexCallback ctx flushNow indexNow

/-- The context after a number of calls. -/
def afterCalls (cfg : Config n) (ctx : DiskloopContext n) (calls : List (ContextCall n)) :
    DiskloopContext n :=
  calls.foldl (ContextCall.run cfg) ctx

/-! ### The routines of a call -/

inductive Routine (n : ℕ)
  | store (index : ℤ) (r : Record n)
  | flush (now : Timeval)
  | writeIndex (now : Timeval)
deriving DecidableEq

def Routine.run (cfg : Config n) (ctx : DiskloopContext n) : Routine n → DiskloopContext n
  | .store index r => ctx.stored cfg index r
  | .flush now => adlFlush ctx now
  | .writeIndex now => adlWriteIndex ctx now

def runRoutines (cfg : Config n) (ctx : DiskloopContext n) (routines : List (Routine n)) :
    DiskloopContext n :=
  routines.foldl (Routine.run cfg) ctx

@[simp] lemma runRoutines_append (s t : List (Routine n)) :
    runRoutines cfg ctx (s ++ t) = runRoutines cfg (runRoutines cfg ctx s) t := by
  simp [runRoutines]

/-- The routines the end of `adl_write` calls. -/
def dueRoutines (env : WriteEnv) (ctx : DiskloopContext n) : List (Routine n) :=
  if stampDiff env.now ctx.lastIndex ≥ indexInterval then
    [.flush env.flushNow, .writeIndex env.indexNow]
  else if stampDiff env.now ctx.lastFlush ≥ flushInterval then [.flush env.flushNow]
  else []

/-- The routines of `adl_write`. -/
def writeRoutines (cfg : Config n) (env : WriteEnv) (ctx : DiskloopContext n) (index : ℤ)
    (r : Record n) : List (Routine n) :=
  if overlaps cfg ctx.lastRecordSamples ctx.lastRecordEnd r then []
  else if 0 ≤ index ∧ index ≥ ctx.capacity then []
  else
    let newIndex :=
      if index < 0 then if ctx.index + 1 ≥ ctx.capacity then 0 else ctx.index + 1 else index
    if !env.fwriteOk then []
    else .store newIndex r :: dueRoutines env (ctx.stored cfg newIndex r)

def ContextCall.routines (cfg : Config n) (ctx : DiskloopContext n) :
    ContextCall n → List (Routine n)
  | .write env index r => writeRoutines cfg env ctx index r
  | .flushAll now => [.flush now]
  | .writeAllIndices flushNow indexNow => [.flush flushNow, .writeIndex indexNow]

/-- The routines of a number of calls. -/
def performed (cfg : Config n) (ctx : DiskloopContext n) : List (ContextCall n) → List (Routine n)
  | [] => []
  | call :: calls => call.routines cfg ctx ++ performed cfg (call.run cfg ctx) calls

lemma runRoutines_dueRoutines (env : WriteEnv) :
    runRoutines cfg ctx (dueRoutines env ctx) = flushIfDue env ctx := by
  rw [dueRoutines, flushIfDue]
  by_cases hindex : stampDiff env.now ctx.lastIndex ≥ indexInterval
  · simp [hindex, runRoutines, Routine.run]
  · by_cases hflush : stampDiff env.now ctx.lastFlush ≥ flushInterval
    · simp [hindex, hflush, runRoutines, Routine.run]
    · simp [hindex, hflush, runRoutines]

/-- A call does what its routines do. -/
lemma ContextCall.run_eq (call : ContextCall n) :
    call.run cfg ctx = runRoutines cfg ctx (call.routines cfg ctx) := by
  cases call with
  | flushAll now => rfl
  | writeAllIndices flushNow indexNow => rfl
  | write env index r =>
    simp only [ContextCall.run, ContextCall.routines, adlWrite, writeRoutines]
    by_cases hover : overlaps cfg ctx.lastRecordSamples ctx.lastRecordEnd r = true
    · simp [hover, runRoutines]
    by_cases hrange : 0 ≤ index ∧ index ≥ ctx.capacity
    · simp [hover, hrange, runRoutines]
    rw [if_neg hover, if_neg hrange, if_neg hover, if_neg hrange]
    by_cases hok : (!env.fwriteOk) = true
    · simp [hok, runRoutines]
    · rw [if_neg hok, if_neg hok]
      exact (runRoutines_dueRoutines env).symm

lemma afterCalls_eq (calls : List (ContextCall n)) :
    afterCalls cfg ctx calls = runRoutines cfg ctx (performed cfg ctx calls) := by
  induction calls generalizing ctx with
  | nil => rfl
  | cons call calls ih =>
    rw [performed, runRoutines_append, ← call.run_eq]
    exact ih

/-! ### An index is written after a flush -/

/-- Every index update follows a flush. -/
def FlushedFirst (routines : List (Routine n)) : Prop :=
  ∀ before now after, routines = before ++ .writeIndex now :: after →
    ∃ earlier flushNow, before = earlier ++ [.flush flushNow]

lemma FlushedFirst.append {s t : List (Routine n)} (hs : FlushedFirst s) (ht : FlushedFirst t) :
    FlushedFirst (s ++ t) := by
  intro before now after heq
  rcases List.append_eq_append_iff.mp heq with ⟨b, rfl, hb⟩ | ⟨b, rfl, hb⟩
  · obtain ⟨earlier, flushNow, rfl⟩ := ht b now after hb
    exact ⟨s ++ earlier, flushNow, (List.append_assoc _ _ _).symm⟩
  · cases b with
    | nil =>
      obtain ⟨earlier, flushNow, hnil⟩ := ht [] now after (by simpa using hb.symm)
      simp at hnil
    | cons routine b =>
      obtain ⟨rfl, rfl⟩ := List.cons_eq_cons.mp hb
      exact hs before now b rfl

lemma FlushedFirst.of_append {s t : List (Routine n)} (h : FlushedFirst (s ++ t)) :
    FlushedFirst s := by
  rintro before now after rfl
  exact h before now (after ++ t) (by simp)

lemma flushedFirst_of_forall {s : List (Routine n)} (h : ∀ now, .writeIndex now ∉ s) :
    FlushedFirst s := by
  rintro before now after rfl
  exact absurd (by simp) (h now)

lemma flushedFirst_pair (flushNow indexNow : Timeval) :
    FlushedFirst ([.flush flushNow, .writeIndex indexNow] : List (Routine n)) := by
  intro before now after heq
  match before with
  | [] => simp at heq
  | [routine] =>
    simp only [List.cons_append, List.nil_append, List.cons.injEq] at heq
    exact ⟨[], flushNow, by rw [← heq.1]; rfl⟩
  | routine :: routine' :: before =>
    have := congrArg List.length heq
    simp at this

lemma flushedFirst_dueRoutines (env : WriteEnv) : FlushedFirst (dueRoutines env ctx) := by
  unfold dueRoutines
  split_ifs
  · exact flushedFirst_pair _ _
  · exact flushedFirst_of_forall (by simp)
  · exact flushedFirst_of_forall (by simp)

lemma ContextCall.flushedFirst (call : ContextCall n) : FlushedFirst (call.routines cfg ctx) := by
  cases call with
  | flushAll now => exact flushedFirst_of_forall (by simp [ContextCall.routines])
  | writeAllIndices flushNow indexNow => exact flushedFirst_pair _ _
  | write env index r =>
    simp only [ContextCall.routines, writeRoutines]
    split_ifs
    · exact flushedFirst_of_forall (by simp)
    · exact flushedFirst_of_forall (by simp)
    · exact flushedFirst_of_forall (by simp)
    all_goals
      rw [← List.singleton_append]
      exact (flushedFirst_of_forall (by simp)).append (flushedFirst_dueRoutines env)

lemma flushedFirst_performed (calls : List (ContextCall n)) :
    FlushedFirst (performed cfg ctx calls) := by
  induction calls generalizing ctx with
  | nil => exact flushedFirst_of_forall (by simp [performed])
  | cons call calls ih => exact call.flushedFirst.append ih

/-! ### What is on disk -/

/-- Nothing waits to be flushed while no write is tracked. -/
structure Tracked (ctx : DiskloopContext n) : Prop where
  synced : ctx.hasWritten = false → ctx.loopFp.disk = ctx.loopFp.data
  index : -1 ≤ ctx.index

lemma Tracked.flushed (h : Tracked ctx) (now : Timeval) :
    (adlFlush ctx now).loopFp.disk = (adlFlush ctx now).loopFp.data := by
  rw [adlFlush]
  split_ifs with hwritten
  · rfl
  · apply h.synced
    simpa using hwritten

lemma Tracked.flush (h : Tracked ctx) (now : Timeval) : Tracked (adlFlush ctx now) where
  synced _ := h.flushed now
  index := by rw [(adlFlush_sameLoop ctx now).index]; exact h.index

/-- An index update after a flush keeps the loop file as it is. -/
lemma Tracked.writeIndex (h : Tracked ctx) (hsynced : ctx.loopFp.disk = ctx.loopFp.data)
    (now : Timeval) : Tracked (adlWriteIndex ctx now) where
  synced _ := by
    rw [adlWriteIndex]
    split_ifs
    · exact hsynced
    · exact hsynced
  index := by rw [(adlWriteIndex_sameLoop ctx now).index]; exact h.index

lemma tracked_stored {index : ℤ} (h : 0 ≤ index) (r : Record n) :
    Tracked (ctx.stored cfg index r) where
  synced hwritten := by simp [DiskloopContext.stored, DiskloopContext.setLast] at hwritten
  index := by
    simp only [DiskloopContext.stored, DiskloopContext.setLast]
    exact le_trans (by norm_num) h

/-- The slots a call stores to. -/
lemma ContextCall.nonneg_of_store (h : -1 ≤ ctx.index) {call : ContextCall n} {index : ℤ}
    {r : Record n} (hmem : .store index r ∈ call.routines cfg ctx) : 0 ≤ index := by
  cases call with
  | flushAll now => simp [ContextCall.routines] at hmem
  | writeAllIndices flushNow indexNow => simp [ContextCall.routines] at hmem
  | write env requested r' =>
    have hdue : ∀ ctx' : DiskloopContext n, .store index r ∉ dueRoutines env ctx' := by
      intro ctx'
      unfold dueRoutines
      split_ifs <;> simp
    have hnew : 0 ≤ if requested < 0 then if ctx.index + 1 ≥ ctx.capacity then 0
        else ctx.index + 1 else requested := by
      split_ifs
      · exact le_rfl
      · linarith
      · linarith
    simp only [ContextCall.routines, writeRoutines] at hmem
    by_cases hover : overlaps cfg ctx.lastRecordSamples ctx.lastRecordEnd r' = true
    · simp [hover] at hmem
    by_cases hrange : 0 ≤ requested ∧ requested ≥ ctx.capacity
    · simp [hrange] at hmem
    by_cases hok : (!env.fwriteOk) = true
    · simp [hok] at hmem
    · rw [if_neg hover, if_neg hrange, if_neg hok] at hmem
      simp only [List.mem_cons, Routine.store.injEq, hdue, or_false] at hmem
      rw [hmem.1]
      exact hnew

/-- Where every index update follows a flush the tracker stays right, and nothing waits to be
flushed after a flush. -/
lemma Tracked.run (h : Tracked ctx) {routines : List (Routine n)} (hfirst : FlushedFirst routines)
    (hstore : ∀ index r, .store index r ∈ routines → 0 ≤ index) :
    Tracked (runRoutines cfg ctx routines) ∧
      ∀ earlier now, routines = earlier ++ [.flush now] →
        (runRoutines cfg ctx routines).loopFp.disk =
          (runRoutines cfg ctx routines).loopFp.data := by
  induction routines using List.reverseRecOn with
  | nil => exact ⟨h, by simp⟩
  | append_singleton routines routine ih =>
    obtain ⟨htracked, hflushed⟩ := ih hfirst.of_append
      fun index r hmem => hstore index r (by simp [hmem])
    rw [runRoutines_append]
    cases routine with
    | store index r => exact ⟨tracked_stored (hstore index r (by simp)) r, by simp⟩
    | flush now => exact ⟨htracked.flush now, fun _ _ _ => htracked.flushed now⟩
    | writeIndex now =>
      obtain ⟨earlier, flushNow, heq⟩ := hfirst routines now [] rfl
      exact ⟨htracked.writeIndex (hflushed earlier flushNow heq) now, by simp⟩

/-- The routines after the last index update. -/
def sinceUpdate (routines : List (Routine n)) : List (Routine n) :=
  routines.rtakeWhile fun
    | .writeIndex _ => false
    | _ => true

@[simp] lemma hasWritten_adlFlush (now : Timeval) :
    (adlFlush ctx now).hasWritten = ctx.hasWritten := by
  rw [adlFlush]
  split_ifs <;> rfl

@[simp] lemma hasWritten_adlWriteIndex (now : Timeval) :
    (adlWriteIndex ctx now).hasWritten = false := by
  rw [adlWriteIndex]
  split_ifs with hwritten
  · rfl
  · simpa using hwritten

/-- The tracker is set while a record was stored after the last index update. -/
lemma hasWritten_runRoutines (h : ctx.hasWritten = false) (routines : List (Routine n)) :
    (runRoutines cfg ctx routines).hasWritten = true ↔
      ∃ index r, .store index r ∈ sinceUpdate routines := by
  induction routines using List.reverseRecOn with
  | nil => simp [runRoutines, sinceUpdate, h]
  | append_singleton routines routine ih =>
    rw [runRoutines_append]
    cases routine with
    | store index r =>
      apply iff_of_true
      · rfl
      · exact ⟨index, r, by simp [sinceUpdate]⟩
    | flush now => simpa [runRoutines, Routine.run, sinceUpdate] using ih
    | writeIndex now => simp [runRoutines, Routine.run, sinceUpdate]

lemma Tracked.nonneg_of_store (h : Tracked ctx) (calls : List (ContextCall n)) {index : ℤ}
    {r : Record n} (hmem : .store index r ∈ performed cfg ctx calls) : 0 ≤ index := by
  induction calls generalizing ctx with
  | nil => simp [performed] at hmem
  | cons call calls ih =>
    rcases List.mem_append.mp hmem with hmem | hmem
    · exact call.nonneg_of_store h.index hmem
    · apply ih _ hmem
      rw [call.run_eq]
      exact (h.run call.flushedFirst fun _ _ hstore => call.nonneg_of_store h.index hstore).1

/-! ### The last record and its index -/

/-- Routines that store nothing keep the loop. -/
lemma runRoutines_sameLoop {routines : List (Routine n)}
    (h : ∀ index r, .store index r ∉ routines) : SameLoop (runRoutines cfg ctx routines) ctx := by
  induction routines using List.reverseRecOn with
  | nil => exact SameLoop.refl ctx
  | append_singleton routines routine ih =>
    have hsame := ih fun index r hmem => h index r (by simp [hmem])
    rw [runRoutines_append]
    cases routine with
    | store index r => exact absurd (by simp) (h index r)
    | flush now => exact (adlFlush_sameLoop _ now).trans hsame
    | writeIndex now => exact (adlWriteIndex_sameLoop _ now).trans hsame

lemma capacity_runRoutines (routines : List (Routine n)) :
    (runRoutines cfg ctx routines).capacity = ctx.capacity := by
  induction routines using List.reverseRecOn with
  | nil => rfl
  | append_singleton routines routine ih =>
    rw [runRoutines_append, ← ih]
    cases routine with
    | store index r => rfl
    | flush now => exact (adlFlush_sameLoop _ now).capacity
    | writeIndex now => exact (adlWriteIndex_sameLoop _ now).capacity

/-- Without a tracked write, flushes and index updates do nothing. -/
lemma runRoutines_eq_self (hwritten : ctx.hasWritten = false) {routines : List (Routine n)}
    (h : ∀ index r, .store index r ∉ routines) : runRoutines cfg ctx routines = ctx := by
  induction routines using List.reverseRecOn with
  | nil => rfl
  | append_singleton routines routine ih =>
    rw [runRoutines_append, ih fun index r hmem => h index r (by simp [hmem])]
    cases routine with
    | store index r => exact absurd (by simp) (h index r)
    | flush now => simp [runRoutines, Routine.run, adlFlush, hwritten]
    | writeIndex now => simp [runRoutines, Routine.run, adlWriteIndex, hwritten]

/-- The index file starts with the current index, unless a write is tracked. -/
def IndexCurrent (ctx : DiskloopContext n) : Prop :=
  ctx.hasWritten = false →
    ∃ tail, ctx.indexFp.data = indexImage ctx.index ctx.capacity ++ tail

lemma IndexCurrent.writeIndex (h : IndexCurrent ctx) (now : Timeval) :
    ∃ tail, (adlWriteIndex ctx now).indexFp.data = indexImage ctx.index ctx.capacity ++ tail := by
  rw [adlWriteIndex]
  split_ifs with hwritten
  · exact ⟨_, rfl⟩
  · exact h (by simpa using hwritten)

lemma IndexCurrent.flush (h : IndexCurrent ctx) (now : Timeval) :
    IndexCurrent (adlFlush ctx now) := by
  rw [adlFlush]
  split_ifs
  · exact h
  · exact h

lemma IndexCurrent.run (h : IndexCurrent ctx) (routines : List (Routine n)) :
    IndexCurrent (runRoutines cfg ctx routines) := by
  induction routines using List.reverseRecOn with
  | nil => exact h
  | append_singleton routines routine ih =>
    rw [runRoutines_append]
    cases routine with
    | store index r =>
      intro hwritten
      simp [runRoutines, Routine.run, DiskloopContext.stored, DiskloopContext.setLast] at hwritten
    | flush now => exact ih.flush now
    | writeIndex now =>
      intro _
      obtain ⟨tail, htail⟩ := ih.writeIndex now
      have hsame := adlWriteIndex_sameLoop (runRoutines cfg ctx routines) now
      refine ⟨tail, ?_⟩
      show (adlWriteIndex (runRoutines cfg ctx routines) now).indexFp.data = _
      rw [htail, ← hsame.index, ← hsame.capacity]
      rfl

/-- Closing leaves the whole loop file and the current index on disk. -/
lemma IndexCurrent.close (h : IndexCurrent ctx) (flushNow indexNow : Timeval) :
    ∃ tail, adlClose ctx flushNow indexNow
      = ⟨some ctx.loopFp.data, some (indexImage ctx.index ctx.capacity ++ tail)⟩ := by
  have hflush := adlFlush_sameLoop ctx flushNow
  have hdata := ((adlWriteIndex_sameLoop (adlFlush ctx flushNow) indexNow).trans hflush).data
  obtain ⟨tail, htail⟩ := (h.flush flushNow).writeIndex indexNow
  refine ⟨tail, ?_⟩
  rw [adlClose]
  simp only [Stream.fflush, hdata, htail, hflush.index, hflush.capacity]

/-! ### Runs on an opened loop -/

/-- A context as `adl_open` makes it: nothing was written to its streams yet. -/
structure NewlyOpened (ctx : DiskloopContext n) : Prop where
  hasWritten : ctx.hasWritten = false
  loopFp : ctx.loopFp.disk = ctx.loopFp.data
  indexFp : ctx.indexFp.disk = ctx.indexFp.data
  index : -1 ≤ ctx.index

lemma NewlyOpened.tracked (h : NewlyOpened ctx) : Tracked ctx := ⟨fun _ => h.loopFp, h.index⟩

lemma neg_one_le_bestIndex (time : StdTime2) (timeOf : RecordInfo n → StdTime2)
    (qualifies better : ℤ → Bool) (records : List (RecordInfo n)) :
    -1 ≤ bestIndex cfg time timeOf qualifies better records := by
  rw [bestIndex]
  split
  · exact le_rfl
  · linarith

lemma neg_one_le_adlNewestIndex {index : ℤ} (h : -1 ≤ index) :
    -1 ≤ (adlNewestIndex cfg ctx index).2 := by
  rw [adlNewestIndex, adlLocateIndex]
  split
  case h_2 => exact h
  case h_1 i hi =>
    rw [locateIndex] at hi
    split_ifs at hi
    · cases hi
      exact le_rfl
    · cases hi
      norm_num
    · obtain ⟨-, -, hi⟩ := exists_of_bind_ok hi
      obtain ⟨-, -, hi⟩ := exists_of_bind_ok hi
      obtain ⟨first, -, hi⟩ := exists_of_bind_ok hi
      obtain ⟨last, -, hi⟩ := exists_of_bind_ok hi
      obtain ⟨search, -, hi⟩ := exists_of_bind_ok hi
      obtain ⟨before, -, hi⟩ := exists_of_bind_ok hi
      obtain ⟨after, -, hi⟩ := exists_of_bind_ok hi
      cases hi
      exact neg_one_le_bestIndex _ _ _ _ _

lemma NewlyOpened.setPosition (h : NewlyOpened ctx) {index : ℤ} (hindex : -1 ≤ index) (size : ℤ) :
    NewlyOpened (ctx.setPosition size index) :=
  ⟨h.hasWritten, h.loopFp, h.indexFp, hindex⟩

lemma NewlyOpened.recoverIndex {tempB : Bytes} {ctx' : DiskloopContext n} (h : NewlyOpened ctx)
    (hok : recoverIndex cfg ctx tempB = .ok ctx') : NewlyOpened ctx' := by
  simp only [StationProcessor.recoverIndex] at hok
  split at hok
  · cases hok
  split at hok
  · cases hok
  split_ifs at hok
  · cases hok
    exact h.setPosition (neg_one_le_adlNewestIndex h.index) _
  · cases hok
    exact h

lemma NewlyOpened.locateCurrent {tempB : Bytes} {ctx' : DiskloopContext n} (h : NewlyOpened ctx)
    (hok : locateCurrent cfg ctx tempB = .ok ctx') : NewlyOpened ctx' := by
  simp only [StationProcessor.locateCurrent] at hok
  split_ifs at hok
  · cases hok
    have : (0 : ℤ) ≤ ctx.loopFp.data.length / n := by positivity
    exact h.setPosition (by linarith) _
  · exact h.recoverIndex hok
  · cases hok
    exact h

lemma NewlyOpened.loadLast {ctx' : DiskloopContext n} (h : NewlyOpened ctx)
    (hok : loadLast cfg ctx = .ok ctx') : NewlyOpened ctx' := by
  rw [StationProcessor.loadLast] at hok
  split at hok
  · cases hok
  · cases hok
    exact ⟨h.hasWritten, h.loopFp, h.indexFp, h.index⟩

/-- `adl_open` makes a fresh context. -/
lemma adlOpen_newlyOpened {ch : Channel} {files : ChannelFiles} {tempB : Bytes}
    (h : (adlOpen cfg ch none files tempB).1 = .ok ctx) : NewlyOpened ctx := by
  rw [adlOpen] at h
  split_ifs at h
  split at h
  · cases h
  rw [openContext] at h
  split at h
  · cases h
  split_ifs at h with hinvalid
  obtain ⟨located, hlocate, hload⟩ := exists_of_bind_ok h
  have hraw : ∀ {buf idx : Bytes} {index capacity : ℤ}, -1 ≤ index →
      NewlyOpened (rawContext ch buf idx index capacity : DiskloopContext n) :=
    fun hindex => ⟨rfl, rfl, rfl, hindex⟩
  rw [not_or, not_lt] at hinvalid
  exact ((hraw hinvalid.1).locateCurrent hlocate).loadLast hload

/-- The routines of `adl_close`. -/
def closeRoutines (flushNow indexNow : Timeval) : List (Routine n) :=
  [.flush flushNow, .writeIndex indexNow]

/-- **Flushing.** On a loop that `adl_open` opened, in every run of writes, flushes and index
updates and the close after it: when the index is written, everything written to the loop file is
on disk; the write tracker is set exactly while a record was stored after the last index update;
and after the close the last record is in its slot of the loop file, and the index file starts
with this slot. A loop nothing was stored in is left as it was found. -/
theorem index_never_ahead {ch : Channel} {files : ChannelFiles} {tempB : Bytes}
    (hopen : (adlOpen cfg ch none files tempB).1 = .ok ctx) (calls : List (ContextCall n))
    (flushNow indexNow : Timeval) :
    let routines := performed cfg ctx calls
    let last := afterCalls cfg ctx calls
    let closed := adlClose last flushNow indexNow
    last = runRoutines cfg ctx routines ∧
      (∀ before now after,
        routines ++ closeRoutines flushNow indexNow = before ++ .writeIndex now :: after →
          (runRoutines cfg ctx before).loopFp.disk = (runRoutines cfg ctx before).loopFp.data) ∧
      (last.hasWritten = true ↔ ∃ index r, .store index r ∈ sinceUpdate routines) ∧
      (∀ before index r after, routines = before ++ .store index r :: after →
        (∀ index r, .store index r ∉ after) →
          0 ≤ index ∧ ∃ buf tail,
            closed = ⟨some buf, some (indexImage index ctx.capacity ++ tail)⟩ ∧
              Blocks.read n buf index.toNat = some r) ∧
      ((∀ index r, .store index r ∉ routines) →
        closed = ⟨some ctx.loopFp.data, some ctx.indexFp.data⟩) := by
  have hfresh := adlOpen_newlyOpened hopen
  have hrun : afterCalls cfg ctx calls = runRoutines cfg ctx (performed cfg ctx calls) :=
    afterCalls_eq calls
  refine ⟨hrun, ?_, ?_, ?_, ?_⟩
  · intro before now after heq
    have hfirst : FlushedFirst (performed cfg ctx calls ++ closeRoutines flushNow indexNow) :=
      (flushedFirst_performed calls).append (flushedFirst_pair flushNow indexNow)
    obtain ⟨earlier, flushNow', rfl⟩ := hfirst before now after heq
    rw [heq] at hfirst
    refine (hfresh.tracked.run hfirst.of_append ?_).2 earlier flushNow' rfl
    intro index r hmem
    have hperformed : .store index r ∈
        performed cfg ctx calls ++ closeRoutines flushNow indexNow := by
      rw [heq]
      exact List.mem_append_left _ hmem
    apply hfresh.tracked.nonneg_of_store calls
    simpa [closeRoutines] using hperformed
  · rw [hrun]
    exact hasWritten_runRoutines hfresh.hasWritten _
  · intro before index r after heq hafter
    have hstore : .store index r ∈ performed cfg ctx calls := by
      rw [heq]
      simp
    refine ⟨hfresh.tracked.nonneg_of_store calls hstore, ?_⟩
    -- the state right after the record was stored
    have hlast : afterCalls cfg ctx calls
        = runRoutines cfg ((runRoutines cfg ctx before).stored cfg index r) after := by
      rw [hrun, heq, runRoutines_append]
      rfl
    have hcurrent : IndexCurrent ((runRoutines cfg ctx before).stored cfg index r) := by
      intro hwritten
      simp [DiskloopContext.stored, DiskloopContext.setLast] at hwritten
    have hsame : SameLoop
        (runRoutines cfg ((runRoutines cfg ctx before).stored cfg index r) after)
        ((runRoutines cfg ctx before).stored cfg index r) := runRoutines_sameLoop hafter
    obtain ⟨tail, hclose⟩ := (hcurrent.run after).close flushNow indexNow
    rw [← hlast] at hsame hclose
    have hindex : (afterCalls cfg ctx calls).index = index := hsame.index
    have hcapacity : (afterCalls cfg ctx calls).capacity = ctx.capacity := by
      rw [hrun, capacity_runRoutines]
    rw [hindex, hcapacity] at hclose
    refine ⟨_, tail, hclose, ?_⟩
    rw [hsame.data]
    exact Blocks.read_write _ _ r
  · intro hnone
    show adlClose (afterCalls cfg ctx calls) flushNow indexNow = _
    rw [hrun, runRoutines_eq_self hfresh.hasWritten hnone]
    simp [adlClose, adlFlush, adlWriteIndex, hfresh.hasWritten, Stream.fflush]

/-- A loop of three slots with one record. -/
def oneRecordFiles : ChannelFiles := ⟨some (logRecord 0 10).toList, some (indexImage 0 3)⟩

/-- The context for it. -/
def oneRecordLoop : DiskloopContext 512 :=
  { sampleLoop 3 [logRecord 0 10] with
    indexFp := Stream.ofFile (indexImage 0 3)
    lastRecordStart := (parseSeedHeader hostConfig.plat (logRecord 0 10).toList).recStart
    lastRecordEnd := (parseSeedHeader hostConfig.plat (logRecord 0 10).toList).recEnd }

/-- A write within the flush interval, a flush, and a write after the index interval. -/
def twoWrites : List (ContextCall 512) :=
  [.write quietWrite (-1) (logRecord 0 20), .flushAll ⟨70, 0⟩,
    .write ⟨true, ⟨301, 0⟩, ⟨301, 0⟩, ⟨301, 0⟩⟩ (-1) (logRecord 0 30)]

theorem index_never_ahead_two : ∃ ctx buf tail,
    (adlOpen hostConfig (sampleChannel 3) none oneRecordFiles []).1 = .ok ctx ∧
      adlClose (afterCalls hostConfig ctx twoWrites) ⟨302, 0⟩ ⟨302, 0⟩
        = ⟨some buf, some (indexImage 2 3 ++ tail)⟩ ∧
      Blocks.read 512 buf 2 = some (logRecord 0 30) := by
  have hopen : (adlOpen hostConfig (sampleChannel 3) none oneRecordFiles []).1
      = .ok oneRecordLoop := by decide +kernel
  have hperformed : performed hostConfig oneRecordLoop twoWrites
      = [.store 1 (logRecord 0 20), .flush ⟨70, 0⟩] ++
        .store 2 (logRecord 0 30) :: [.flush ⟨301, 0⟩, .writeIndex ⟨301, 0⟩] := by decide +kernel
  obtain ⟨-, -, -, hlast, -⟩ := index_never_ahead hopen twoWrites ⟨302, 0⟩ ⟨302, 0⟩
  obtain ⟨-, buf, tail, hclosed, hread⟩ := hlast _ _ _ _ hperformed (by simp)
  exact ⟨oneRecordLoop, buf, tail, hopen, hclosed, hread⟩

end StationProcessor
