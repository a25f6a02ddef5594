import StationProcessor.Archd.Context
import StationProcessor.Archd.Seedmsg

/-!
# Archiving the queued records

`callback_archive` of `archd/archd.c`. LOG records are held back for a while and combined with
later ones, in the memory of the first.
-/

namespace StationProcessor

variable {n : ℕ}

/-- `BUFFER_TIME_SEC`. -/
def bufferTimeSec : ℤ := 60

/-- The clock, and the memory after the record that is combined. -/
structure ArchiveEnv where
  now : Timeval
  beyond : ℕ → UInt8

/-- Whether the channel of a record starts with `LOG`. -/
def isLog (r : Record n) : Bool := ascii "LOG" <+: r.toList.drop 15

/-- A LOG message record with this text. -/
def messageFrame (text : Bytes) : Record 512 :=
  frameOf (ascii "000001D ANMO 00LOGIU" ++ List.replicate 10 0 ++ htons text.length
    ++ List.replicate 12 0 ++ htons 56 ++ List.replicate 10 0 ++ text)

/-- Hand a record to `ArchiveSeed` and drop it. -/
def ArchdContext.archive (archd : ArchdContext n) (id : ℕ) : ArchdContext n × List (Record n) :=
  ({ archd with records := recordDeallocate archd.records id }, [(archd.records id).data])

/-- Make a record the pending LOG message, and archive it at once where it is too old. -/
def ArchdContext.hold (archd : ArchdContext n) (now : Timeval) (id : ℕ) :
    ArchdContext n × List (Record n) :=
  let archd := { archd with logMessage := some id }
  let logDelta := now.sec - (archd.records id).receiveTime.sec
  if logDelta < 0 ∨ logDelta ≥ bufferTimeSec then
    let (archd, archived) := archd.archive id
    ({ archd with logMessage := none }, archived)
  else (archd, [])

/-- Combine a record into the pending message. -/
def ArchdContext.combine (archd : ArchdContext n) (log id : ℕ) (combined : Record n) :
    ArchdContext n :=
  { archd with
    records := recordDeallocate
      (Function.update archd.records log { archd.records log with data := combined }) id }

/-- One round of the loop, with the records it archives. -/
def archiveRecord (env : ArchiveEnv) (archd : ArchdContext n) (id : ℕ) :
    ArchdContext n × List (Record n) :=
  let archd := { archd with recordsArchived := archd.recordsArchived + 1 }
  if !isLog (archd.records id).data then archd.archive id
  else
    let archd := { archd with logRecordCount := archd.logRecordCount + 1 }
    match archd.logMessage with
    | none => archd.hold env.now id
    | some log =>
      match combineSeed (archd.records log).data (archd.records id).data env.beyond with
      | some combined => (archd.combine log id combined, [])
      | none =>
        let (archd, first) := archd.archive log
        let (archd, second) := archd.hold env.now id
        (archd, first ++ second)

/-- The loop of `callback_archive`. -/
def archiveLoop : ℕ → (ℕ → ArchiveEnv) → ArchdContext n → ArchdContext n × List (Record n)
  | 0, _, archd => (archd, [])
  | fuel + 1, env, archd =>
    match prioqueuePopHigh archd.recordQueue with
    | none => (archd, [])
    | some (id, recordQueue) =>
      let (archd, first) := archiveRecord (env 0) { archd with recordQueue := recordQueue } id
      let (archd, second) := archiveLoop fuel (fun i => env (i + 1)) archd
      (archd, first ++ second)

/-- `callback_archive`, with the records handed to `ArchiveSeed`. Each round takes one record from
the queue. -/
def callbackArchive (env : ℕ → ArchiveEnv) (archd : ArchdContext n) :
    ArchdContext n × List (Record n) :=
  archiveLoop archd.recordQueue.tree.elements.length env archd

/-- Each round satisfies `P`, with the state in which its record was popped. -/
def EachArchived (P : ArchiveEnv → ArchdContext n → ℕ → Prop) :
    ℕ → (ℕ → ArchiveEnv) → ArchdContext n → Prop
  | 0, _, _ => True
  | fuel + 1, env, archd =>
    match prioqueuePopHigh archd.recordQueue with
    | none => True
    | some (id, recordQueue) =>
      P (env 0) { archd with recordQueue := recordQueue } id ∧
        EachArchived P fuel (fun i => env (i + 1))
          (archiveRecord (env 0) { archd with recordQueue := recordQueue } id).1

instance EachArchived.decidable {P : ArchiveEnv → ArchdContext n → ℕ → Prop}
    [∀ env archd id, Decidable (P env archd id)] :
    ∀ fuel env archd, Decidable (EachArchived P fuel env archd)
  | 0, _, _ => isTrue trivial
  | fuel + 1, env, archd =>
    match h : prioqueuePopHigh archd.recordQueue with
    | none => isTrue (by rw [EachArchived, h]; trivial)
    | some (id, recordQueue) =>
      have := EachArchived.decidable (P := P) fuel (fun i => env (i + 1))
        (archiveRecord (env 0) { archd with recordQueue := recordQueue } id).1
      decidable_of_iff (P (env 0) { archd with recordQueue := recordQueue } id ∧
        EachArchived P fuel (fun i => env (i + 1))
          (archiveRecord (env 0) { archd with recordQueue := recordQueue } id).1)
        (by rw [EachArchived, h])

/-! ### The cases of a round -/

/-- The counters of a round that handles a LOG record. -/
def ArchdContext.countLog (archd : ArchdContext n) : ArchdContext n :=
  { archd with
    recordsArchived := archd.recordsArchived + 1
    logRecordCount := archd.logRecordCount + 1 }

@[simp] lemma archive_receiveTime (archd : ArchdContext n) (id i : ℕ) :
    ((archd.archive id).1.records i).receiveTime = (archd.records i).receiveTime :=
  recordDeallocate_receiveTime _ _ _

section Cases

variable {env : ArchiveEnv} {archd : ArchdContext n} {id log : ℕ}

lemma archiveRecord_of_not_log (h : isLog (archd.records id).data = false) :
    archiveRecord env archd id
      = { archd with recordsArchived := archd.recordsArchived + 1 }.archive id := by
  simp [archiveRecord, h]

/-- A LOG record while no message is pending. -/
lemma archiveRecord_of_first (h : isLog (archd.records id).data = true)
    (hmessage : archd.logMessage = none) :
    archiveRecord env archd id = archd.countLog.hold env.now id := by
  simp [archiveRecord, h, hmessage, ArchdContext.countLog]

/-- A LOG record that the pending message takes in. -/
lemma archiveRecord_of_combined (h : isLog (archd.records id).data = true)
    (hmessage : archd.logMessage = some log) {combined : Record n}
    (hcombine : combineSeed (archd.records log).data (archd.records id).data env.beyond
      = some combined) :
    archiveRecord env archd id = (archd.countLog.combine log id combined, []) := by
  simp [archiveRecord, h, hmessage, hcombine, ArchdContext.countLog]

/-- A LOG record that the pending message makes room for. -/
lemma archiveRecord_of_replaced (h : isLog (archd.records id).data = true)
    (hmessage : archd.logMessage = some log)
    (hcombine : combineSeed (archd.records log).data (archd.records id).data env.beyond = none) :
    archiveRecord env archd id = (((archd.countLog.archive log).1.hold env.now id).1,
      (archd.records log).data :: ((archd.countLog.archive log).1.hold env.now id).2) := by
  simp [archiveRecord, h, hmessage, hcombine, ArchdContext.countLog, ArchdContext.archive]

/-- A LOG record that no pending message takes in. -/
def StartsMessage (env : ArchiveEnv) (archd : ArchdContext n) (id : ℕ) : Prop :=
  isLog (archd.records id).data = true ∧ ∀ log ∈ archd.logMessage,
    combineSeed (archd.records log).data (archd.records id).data env.beyond = none

/-- Whether a record is kept as the pending message at this reading of the clock. -/
def Fresh (now : Timeval) (record : DataRecord n) : Prop :=
  0 ≤ now.sec - record.receiveTime.sec ∧ now.sec - record.receiveTime.sec < bufferTimeSec

instance : Decidable (StartsMessage env archd id) := inferInstanceAs (Decidable (_ ∧ _))

instance (now : Timeval) (record : DataRecord n) : Decidable (Fresh now record) :=
  inferInstanceAs (Decidable (_ ∧ _))

lemma hold_logMessage (archd : ArchdContext n) (now : Timeval) (id : ℕ) :
    (archd.hold now id).1.logMessage
      = if Fresh now (archd.records id) then some id else none := by
  have hold : now.sec - (archd.records id).receiveTime.sec < 0 ∨
      now.sec - (archd.records id).receiveTime.sec ≥ bufferTimeSec ↔
        ¬Fresh now (archd.records id) := by
    unfold Fresh
    omega
  unfold ArchdContext.hold
  simp only [hold]
  by_cases hfresh : Fresh now (archd.records id)
  · rw [if_neg (not_not.mpr hfresh), if_pos hfresh]
  · rw [if_pos hfresh, if_neg hfresh]

/-- The pending message is replaced only by a record that starts one. -/
lemma archiveRecord_logMessage (env : ArchiveEnv) (archd : ArchdContext n) (id : ℕ) :
    (archiveRecord env archd id).1.logMessage
      = if StartsMessage env archd id then
          if Fresh env.now (archd.records id) then some id else none
        else archd.logMessage := by
  cases hlog : isLog (archd.records id).data with
  | false =>
    rw [archiveRecord_of_not_log hlog, if_neg (by simp [StartsMessage, hlog])]
    rfl
  | true =>
    cases hmessage : archd.logMessage with
    | none =>
      have hstarts : StartsMessage env archd id := by simp [StartsMessage, hlog, hmessage]
      rw [archiveRecord_of_first hlog hmessage, if_pos hstarts]
      exact hold_logMessage archd.countLog env.now id
    | some log =>
      cases hcombine : combineSeed (archd.records log).data (archd.records id).data env.beyond with
      | some combined =>
        have hstarts : ¬StartsMessage env archd id := by
          simp [StartsMessage, hlog, hmessage, hcombine]
        rw [archiveRecord_of_combined hlog hmessage hcombine, if_neg hstarts]
        exact hmessage
      | none =>
        have hstarts : StartsMessage env archd id := by
          simp [StartsMessage, hlog, hmessage, hcombine]
        rw [archiveRecord_of_replaced hlog hmessage hcombine, if_pos hstarts]
        show ((archd.countLog.archive log).1.hold env.now id).1.logMessage = _
        rw [hold_logMessage]
        simp only [Fresh, archive_receiveTime]
        rfl

end Cases

/-! ### What archiving does to the records -/

@[simp] lemma archive_data (archd : ArchdContext n) (id i : ℕ) :
    ((archd.archive id).1.records i).data = (archd.records i).data :=
  recordDeallocate_data _ _ _

@[simp] lemma hold_data (archd : ArchdContext n) (now : Timeval) (id i : ℕ) :
    ((archd.hold now id).1.records i).data = (archd.records i).data := by
  unfold ArchdContext.hold
  dsimp only
  split_ifs
  · exact archive_data { archd with logMessage := some id } id i
  · rfl

/-- A round changes no record but the pending message, and that only by combining. -/
lemma archiveRecord_data (env : ArchiveEnv) (archd : ArchdContext n) (id i : ℕ) :
    ((archiveRecord env archd id).1.records i).data = (archd.records i).data ∨
      archd.logMessage = some i ∧ isLog (archd.records id).data = true ∧
        combineSeed (archd.records i).data (archd.records id).data env.beyond
          = some ((archiveRecord env archd id).1.records i).data := by
  unfold archiveRecord
  dsimp only
  cases hlog : isLog (archd.records id).data with
  | false => exact Or.inl (archive_data _ _ _)
  | true =>
    simp only [Bool.not_true, Bool.false_eq_true, if_false]
    cases hmessage : archd.logMessage with
    | none => exact Or.inl (hold_data _ _ _ _)
    | some log =>
      dsimp only
      cases hcombine : combineSeed (archd.records log).data (archd.records id).data env.beyond with
      | none =>
        dsimp only
        exact Or.inl ((hold_data _ _ _ _).trans (archive_data _ _ _))
      | some combined =>
        dsimp only [ArchdContext.combine]
        rw [recordDeallocate_data]
        rcases eq_or_ne i log with rfl | hne
        · refine Or.inr ⟨rfl, trivial, ?_⟩
          rw [hcombine, Function.update_self]
        · exact Or.inl (by rw [Function.update_of_ne hne])

@[simp] lemma hold_allocated (archd : ArchdContext n) (now : Timeval) (id : ℕ) :
    (archd.hold now id).1.allocated = archd.allocated := by
  unfold ArchdContext.hold
  dsimp only
  split_ifs <;> rfl

@[simp] lemma hold_receiveTime (archd : ArchdContext n) (now : Timeval) (id i : ℕ) :
    ((archd.hold now id).1.records i).receiveTime = (archd.records i).receiveTime := by
  unfold ArchdContext.hold
  dsimp only
  split_ifs
  · exact archive_receiveTime { archd with logMessage := some id } id i
  · rfl

@[simp] lemma combine_receiveTime (archd : ArchdContext n) (log id : ℕ) (combined : Record n)
    (i : ℕ) : ((archd.combine log id combined).records i).receiveTime
      = (archd.records i).receiveTime := by
  rw [ArchdContext.combine, recordDeallocate_receiveTime]
  rcases eq_or_ne i log with rfl | h
  · rw [Function.update_self]
  · rw [Function.update_of_ne h]

@[simp] lemma hold_recordQueue (archd : ArchdContext n) (now : Timeval) (id : ℕ) :
    (archd.hold now id).1.recordQueue = archd.recordQueue := by
  unfold ArchdContext.hold
  dsimp only
  split_ifs <;> rfl

/-- What a round leaves of the records and the queue. -/
lemma archiveRecord_leaves (env : ArchiveEnv) (archd : ArchdContext n) (id : ℕ) :
    (archiveRecord env archd id).1.recordQueue = archd.recordQueue ∧
      ∀ i, ((archiveRecord env archd id).1.records i).receiveTime
        = (archd.records i).receiveTime := by
  cases hlog : isLog (archd.records id).data with
  | false =>
    rw [archiveRecord_of_not_log hlog]
    exact ⟨rfl, fun i => recordDeallocate_receiveTime archd.records id i⟩
  | true =>
    cases hmessage : archd.logMessage with
    | none =>
      rw [archiveRecord_of_first hlog hmessage]
      exact ⟨hold_recordQueue _ _ _, fun i => hold_receiveTime archd.countLog env.now id i⟩
    | some log =>
      cases hcombine : combineSeed (archd.records log).data (archd.records id).data env.beyond with
      | some combined =>
        rw [archiveRecord_of_combined hlog hmessage hcombine]
        exact ⟨rfl, fun i => combine_receiveTime archd.countLog log id combined i⟩
      | none =>
        rw [archiveRecord_of_replaced hlog hmessage hcombine]
        refine ⟨hold_recordQueue _ _ _, fun i => ?_⟩
        simp only [hold_receiveTime, archive_receiveTime]
        rfl

lemma archiveRecord_allocated (env : ArchiveEnv) (archd : ArchdContext n) (id : ℕ) :
    (archiveRecord env archd id).1.allocated = archd.allocated := by
  unfold archiveRecord
  dsimp only
  split_ifs
  · rfl
  split
  · exact hold_allocated _ _ _
  split
  · rfl
  · exact hold_allocated _ _ _

end StationProcessor
