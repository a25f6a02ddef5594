import StationProcessor.Archd.Archive
import StationProcessor.Archd.QueueRuns

/-!
# LOG messages on their way to the archive

What `callback_archive` makes of the records it pops, over runs in which records are received in
between: every other record is archived at once, and the texts of the LOG messages are archived
in their order, but for the text of the message that is pending. That message should not wait
longer than `BUFFER_TIME_SEC`.
-/

namespace StationProcessor

variable {n : ℕ}

/-! ### Texts -/

/-- The text of a message record. -/
def messageText (r : Record n) : Bytes :=
  (r.toList.drop (firstDataByte r)).take (samplesInRecord r)

/-- The texts of records, one after the other. -/
def messageTexts (rs : List (Record n)) : Bytes := rs.flatMap messageText

/-- The LOG messages of a list of records. -/
def logRecords (rs : List (Record n)) : List (Record n) := rs.filter isLog

/-- The records of a list that are no LOG messages. -/
def dataRecords (rs : List (Record n)) : List (Record n) := rs.filter fun r => !isLog r

@[simp] lemma messageTexts_nil : messageTexts ([] : List (Record n)) = [] := rfl

@[simp] lemma messageTexts_singleton (r : Record n) : messageTexts [r] = messageText r := by
  simp [messageTexts]

@[simp] lemma messageTexts_append (rs ss : List (Record n)) :
    messageTexts (rs ++ ss) = messageTexts rs ++ messageTexts ss := by
  simp [messageTexts]

@[simp] lemma logRecords_append (rs ss : List (Record n)) :
    logRecords (rs ++ ss) = logRecords rs ++ logRecords ss := by
  simp [logRecords]

@[simp] lemma dataRecords_append (rs ss : List (Record n)) :
    dataRecords (rs ++ ss) = dataRecords rs ++ dataRecords ss := by
  simp [dataRecords]

/-- The text that waits in the pending message. -/
def ArchdContext.pendingText (archd : ArchdContext n) : Bytes :=
  match archd.logMessage with
  | none => []
  | some log => messageText (archd.records log).data

lemma pendingText_of_some {archd : ArchdContext n} {log : ℕ} (h : archd.logMessage = some log) :
    archd.pendingText = messageText (archd.records log).data := by
  simp [ArchdContext.pendingText, h]

lemma pendingText_of_none {archd : ArchdContext n} (h : archd.logMessage = none) :
    archd.pendingText = [] := by
  simp [ArchdContext.pendingText, h]

/-- The pending text is the same while the pending message and its data are. -/
lemma pendingText_congr {archd archd' : ArchdContext n}
    (hmessage : archd'.logMessage = archd.logMessage)
    (hdata : ∀ log ∈ archd.logMessage,
      (archd'.records log).data = (archd.records log).data) :
    archd'.pendingText = archd.pendingText := by
  cases h : archd.logMessage with
  | none => rw [pendingText_of_none h, pendingText_of_none (hmessage.trans h)]
  | some log => rw [pendingText_of_some h, pendingText_of_some (hmessage.trans h), hdata log h]

/-- A round that combines its record into the pending message puts both texts there. -/
def CombinesTexts (env : ArchiveEnv) (archd : ArchdContext n) (id : ℕ) : Prop :=
  ∀ log ∈ archd.logMessage, isLog (archd.records id).data = true →
    ∀ combined ∈ combineSeed (archd.records log).data (archd.records id).data env.beyond,
      messageText combined
        = messageText (archd.records log).data ++ messageText (archd.records id).data

-- the instances are named, because search may also try all records one by one
instance (env : ArchiveEnv) (archd : ArchdContext n) (id : ℕ) :
    Decidable (CombinesTexts env archd id) :=
  @Option.decidableForallMem _ _ (fun _ =>
    @forall_prop_decidable _ _ inferInstance fun _ => Option.decidableForallMem _) _

/-! ### One callback -/

/-- The records the loop of `callback_archive` pops, as they are then. -/
def poppedRecords : ℕ → (ℕ → ArchiveEnv) → ArchdContext n → List (Record n)
  | 0, _, _ => []
  | fuel + 1, env, archd =>
    match prioqueuePopHigh archd.recordQueue with
    | none => []
    | some (id, recordQueue) =>
      (archd.records id).data :: poppedRecords fuel (fun i => env (i + 1))
        (archiveRecord (env 0) { archd with recordQueue := recordQueue } id).1

/-- The records handed to `ArchiveSeed`, those that were `log_message` apart from the others. -/
structure Archived (n : ℕ) where
  data : List (Record n)
  logs : List (Record n)

def Archived.append (a b : Archived n) : Archived n := ⟨a.data ++ b.data, a.logs ++ b.logs⟩

/-- What one round archives. -/
def archivedBy (env : ArchiveEnv) (archd : ArchdContext n) (id : ℕ) : Archived n :=
  if isLog (archd.records id).data then ⟨[], (archiveRecord env archd id).2⟩
  else ⟨(archiveRecord env archd id).2, []⟩

/-- What the loop of `callback_archive` archives. -/
def archivedRecords : ℕ → (ℕ → ArchiveEnv) → ArchdContext n → Archived n
  | 0, _, _ => ⟨[], []⟩
  | fuel + 1, env, archd =>
    match prioqueuePopHigh archd.recordQueue with
    | none => ⟨[], []⟩
    | some (id, recordQueue) =>
      (archivedBy (env 0) { archd with recordQueue := recordQueue } id).append
        (archivedRecords fuel (fun i => env (i + 1))
          (archiveRecord (env 0) { archd with recordQueue := recordQueue } id).1)

/-- These are the records of the callback. -/
lemma archivedRecords_perm (fuel : ℕ) (env : ℕ → ArchiveEnv) (archd : ArchdContext n) :
    ((archivedRecords fuel env archd).data ++ (archivedRecords fuel env archd).logs).Perm
      (archiveLoop fuel env archd).2 := by
  induction fuel generalizing env archd with
  | zero => exact List.Perm.refl []
  | succ fuel ih =>
    rw [archivedRecords, archiveLoop]
    cases prioqueuePopHigh archd.recordQueue with
    | none => exact List.Perm.refl []
    | some x =>
      obtain ⟨id, recordQueue⟩ := x
      have hround : (archivedBy (env 0) { archd with recordQueue := recordQueue } id).data
          ++ (archivedBy (env 0) { archd with recordQueue := recordQueue } id).logs
          = (archiveRecord (env 0) { archd with recordQueue := recordQueue } id).2 := by
        unfold archivedBy
        split_ifs
        · rfl
        · exact List.append_nil _
      have hrest := ih (fun i => env (i + 1))
        (archiveRecord (env 0) { archd with recordQueue := recordQueue } id).1
      dsimp only [Archived.append]
      rw [← hround]
      refine List.Perm.trans ?_ (hrest.append_left _)
      simp only [List.append_assoc]
      refine List.Perm.append_left _ ?_
      rw [← List.append_assoc, ← List.append_assoc]
      exact List.perm_append_comm.append_right _

/-- Between two states these records were popped and those archived, and nothing was lost. -/
structure Archives (archd archd' : ArchdContext n) (popped : List (Record n))
    (archived : Archived n) : Prop where
  data : archived.data = dataRecords popped
  texts : messageTexts archived.logs ++ archd'.pendingText
    = archd.pendingText ++ messageTexts (logRecords popped)

lemma Archives.refl (archd : ArchdContext n) : Archives archd archd [] ⟨[], []⟩ :=
  ⟨rfl, by simp [logRecords]⟩

lemma Archives.append {archd archd' archd'' : ArchdContext n} {popped popped' : List (Record n)}
    {archived archived' : Archived n} (h : Archives archd archd' popped archived)
    (h' : Archives archd' archd'' popped' archived') :
    Archives archd archd'' (popped ++ popped') (archived.append archived') where
  data := by rw [dataRecords_append, ← h.data, ← h'.data, Archived.append]
  texts := by
    calc messageTexts (archived.append archived').logs ++ archd''.pendingText
        = messageTexts archived.logs ++ (messageTexts archived'.logs ++ archd''.pendingText) := by
          simp [Archived.append]
      _ = messageTexts archived.logs ++ archd'.pendingText
            ++ messageTexts (logRecords popped') := by
          rw [h'.texts, List.append_assoc]
      _ = _ := by rw [h.texts, logRecords_append, messageTexts_append, List.append_assoc]

/-- A LOG record becomes the pending message or is archived. -/
lemma hold_texts (archd : ArchdContext n) (now : Timeval) (id : ℕ) :
    messageTexts (archd.hold now id).2 ++ (archd.hold now id).1.pendingText
      = messageText (archd.records id).data := by
  unfold ArchdContext.hold
  dsimp only
  split_ifs
  · simp [ArchdContext.archive, ArchdContext.pendingText]
  · simp [ArchdContext.pendingText]

/-- A round loses nothing. -/
lemma archiveRecord_archives {env : ArchiveEnv} {archd : ArchdContext n} {id : ℕ}
    (h : CombinesTexts env archd id) :
    Archives archd (archiveRecord env archd id).1 [(archd.records id).data]
      (archivedBy env archd id) := by
  unfold archivedBy
  cases hlog : isLog (archd.records id).data with
  | false =>
    rw [archiveRecord_of_not_log hlog]
    refine ⟨?_, ?_⟩
    · simp [dataRecords, hlog, ArchdContext.archive]
    · have hpending : ({ archd with recordsArchived := archd.recordsArchived + 1 }.archive
          id).1.pendingText = archd.pendingText :=
        pendingText_congr rfl fun log _ =>
          archive_data { archd with recordsArchived := archd.recordsArchived + 1 } id log
      simpa [logRecords, hlog] using hpending
  | true =>
    refine ⟨?_, ?_⟩
    · simp [dataRecords, hlog]
    simp only [if_true, logRecords, List.filter_cons_of_pos hlog, List.filter_nil,
      messageTexts_singleton]
    cases hmessage : archd.logMessage with
    | none =>
      rw [archiveRecord_of_first hlog hmessage, hold_texts, pendingText_of_none hmessage]
      rfl
    | some log =>
      rw [pendingText_of_some hmessage]
      cases hcombine : combineSeed (archd.records log).data (archd.records id).data env.beyond with
      | some combined =>
        have htext := h log hmessage hlog combined hcombine
        rw [archiveRecord_of_combined hlog hmessage hcombine, ← htext]
        simp only [messageTexts_nil, List.nil_append]
        have hpending : (archd.countLog.combine log id combined).logMessage = some log := hmessage
        rw [pendingText_of_some hpending]
        simp [ArchdContext.combine]
      | none =>
        rw [archiveRecord_of_replaced hlog hmessage hcombine]
        have htext := hold_texts (archd.countLog.archive log).1 env.now id
        rw [archive_data] at htext
        show messageTexts ([(archd.records log).data] ++ _) ++ _ = _
        rw [messageTexts_append, messageTexts_singleton, List.append_assoc, htext]
        rfl

/-- A callback loses nothing. -/
lemma archiveLoop_archives {fuel : ℕ} {env : ℕ → ArchiveEnv} {archd : ArchdContext n}
    (h : EachArchived CombinesTexts fuel env archd) :
    Archives archd (archiveLoop fuel env archd).1 (poppedRecords fuel env archd)
      (archivedRecords fuel env archd) := by
  induction fuel generalizing env archd with
  | zero => exact Archives.refl archd
  | succ fuel ih =>
    rw [EachArchived] at h
    rw [archiveLoop, poppedRecords, archivedRecords]
    cases hpop : prioqueuePopHigh archd.recordQueue with
    | none => exact Archives.refl archd
    | some x =>
      obtain ⟨id, recordQueue⟩ := x
      rw [hpop] at h
      obtain ⟨hround, hrest⟩ := h
      have hboth := (archiveRecord_archives hround).append (ih hrest)
      exact ⟨hboth.data, hboth.texts⟩

/-! ### Runs -/

/-- What happens to the records: one is received, or `callback_archive` runs and returns at a
reading of the clock. -/
inductive ArchiverEvent (n : ℕ)
  | receive (env : AcceptEnv) (frame : Record n)
  | archive (env : ℕ → ArchiveEnv) (returned : Timeval)

/-- The daemon with the records that were popped and those that were archived so far. -/
structure Archiver (n : ℕ) where
  archd : ArchdContext n
  popped : List (Record n)
  archived : Archived n

/-- A daemon that has just started, with telemetry of this depth. -/
def Archiver.initial (n : ℕ) (depth : ℤ) : Archiver n where
  archd := { (ArchdContext.initial : ArchdContext n) with
    telemetryQueue := prioqueueInit depth
    telemetryDepth := depth }
  popped := []
  archived := ⟨[], []⟩

/-- How many rounds `callback_archive` makes. -/
def ArchdContext.rounds (archd : ArchdContext n) : ℕ := archd.recordQueue.tree.elements.length

def Archiver.receive (s : Archiver n) (env : AcceptEnv) (frame : Record n) : Archiver n :=
  { s with archd := (s.archd.allocate frame).accept env s.archd.allocated }

def Archiver.archive (s : Archiver n) (env : ℕ → ArchiveEnv) : Archiver n where
  archd := (callbackArchive env s.archd).1
  popped := s.popped ++ poppedRecords s.archd.rounds env s.archd
  archived := s.archived.append (archivedRecords s.archd.rounds env s.archd)

def Archiver.step (s : Archiver n) : ArchiverEvent n → Archiver n
  | .receive env frame => s.receive env frame
  | .archive env _ => s.archive env

def Archiver.run (s : Archiver n) (events : List (ArchiverEvent n)) : Archiver n :=
  events.foldl Archiver.step s

/-- Every callback of a run satisfies `P`, with the state it starts from. -/
def EachCallback (P : (ℕ → ArchiveEnv) → Timeval → ArchdContext n → Prop) :
    Archiver n → List (ArchiverEvent n) → Prop
  | _, [] => True
  | s, .receive env frame :: events => EachCallback P (s.receive env frame) events
  | s, .archive env returned :: events =>
    P env returned s.archd ∧ EachCallback P (s.archive env) events

instance EachCallback.decidable {P : (ℕ → ArchiveEnv) → Timeval → ArchdContext n → Prop}
    [∀ env returned archd, Decidable (P env returned archd)] :
    ∀ (s : Archiver n) events, Decidable (EachCallback P s events)
  | _, [] => isTrue trivial
  | s, .receive env frame :: events => EachCallback.decidable (s.receive env frame) events
  | s, .archive env returned :: events =>
    have := EachCallback.decidable (P := P) (s.archive env) events
    inferInstanceAs (Decidable (P env returned s.archd ∧ _))

/-- The records in the queue and the pending message exist. -/
structure RecordsExist (archd : ArchdContext n) : Prop where
  queued : ∀ id ∈ archd.recordQueue.fifo, id < archd.allocated
  pending : ∀ log ∈ archd.logMessage, log < archd.allocated

lemma RecordsExist.receive {archd : ArchdContext n} (h : RecordsExist archd) (env : AcceptEnv)
    (frame : Record n) : RecordsExist ((archd.allocate frame).accept env archd.allocated) where
  queued id hid := by
    rw [ArchdContext.accept_recordQueue] at hid
    rw [accept_allocated]
    rcases mem_fifo_queueRecord hid with rfl | hid
    · exact Nat.lt_succ_self _
    · exact (h.queued id hid).trans (Nat.lt_succ_self _)
  pending log hlog := by
    rw [accept_logMessage] at hlog
    rw [accept_allocated]
    exact (h.pending log hlog).trans (Nat.lt_succ_self _)

/-- Receiving a record leaves the pending message. -/
lemma pendingText_receive {archd : ArchdContext n} (h : RecordsExist archd) (env : AcceptEnv)
    (frame : Record n) :
    ((archd.allocate frame).accept env archd.allocated).pendingText = archd.pendingText := by
  apply pendingText_congr
  · rw [accept_logMessage]
    rfl
  · intro log hlog
    rw [ArchdContext.accept_data, allocate_old _ _ (h.pending log hlog)]

lemma RecordsExist.archiveRecord {archd : ArchdContext n} (h : RecordsExist archd)
    (env : ArchiveEnv) {id : ℕ} (hid : id < archd.allocated) :
    RecordsExist (archiveRecord env archd id).1 where
  queued i hi := by
    rw [(archiveRecord_leaves env archd id).1] at hi
    rw [archiveRecord_allocated]
    exact h.queued i hi
  pending log hlog := by
    rw [archiveRecord_allocated]
    rw [archiveRecord_logMessage] at hlog
    split_ifs at hlog
    · cases hlog
      exact hid
    · cases hlog
    · exact h.pending log hlog

lemma RecordsExist.archiveLoop {archd : ArchdContext n} (h : RecordsExist archd) (fuel : ℕ)
    (env : ℕ → ArchiveEnv) : RecordsExist (archiveLoop fuel env archd).1 := by
  induction fuel generalizing env archd with
  | zero => exact h
  | succ fuel ih =>
    rw [StationProcessor.archiveLoop]
    cases hpop : prioqueuePopHigh archd.recordQueue with
    | none => exact h
    | some x =>
      obtain ⟨id, recordQueue⟩ := x
      have hfifo := fifo_of_popHigh hpop
      have hid : id < archd.allocated := h.queued id (by simp [hfifo])
      have hrest : RecordsExist { archd with recordQueue := recordQueue } :=
        ⟨fun i hi => h.queued i (by simp [hfifo, show i ∈ recordQueue.fifo from hi]), h.pending⟩
      exact ih (hrest.archiveRecord (env 0) hid) _

/-- Nothing was lost so far. -/
structure Archiver.Lossless (s : Archiver n) : Prop where
  data : s.archived.data = dataRecords s.popped
  texts : messageTexts s.archived.logs ++ s.archd.pendingText
    = messageTexts (logRecords s.popped)

/-- A callback in which combining two messages keeps both texts. -/
def KeepsTexts (env : ℕ → ArchiveEnv) (_ : Timeval) (archd : ArchdContext n) : Prop :=
  EachArchived CombinesTexts archd.rounds env archd

instance (env : ℕ → ArchiveEnv) (returned : Timeval) (archd : ArchdContext n) :
    Decidable (KeepsTexts env returned archd) :=
  inferInstanceAs (Decidable (EachArchived _ _ _ _))

lemma Archiver.Lossless.run {s : Archiver n} (h : s.Lossless) (hexist : RecordsExist s.archd)
    {events : List (ArchiverEvent n)} (hkeeps : EachCallback KeepsTexts s events) :
    (s.run events).Lossless := by
  induction events generalizing s with
  | nil => exact h
  | cons event events ih =>
    cases event with
    | receive env frame =>
      refine ih ⟨h.data, ?_⟩ (hexist.receive env frame) hkeeps
      show _ ++ ((s.archd.allocate frame).accept env s.archd.allocated).pendingText = _
      rw [pendingText_receive hexist]
      exact h.texts
    | archive env returned =>
      obtain ⟨hcallback, hrest⟩ := hkeeps
      obtain ⟨hdata, htexts⟩ := archiveLoop_archives hcallback
      refine ih ⟨?_, ?_⟩ (hexist.archiveLoop _ env) hrest
      · show s.archived.data ++ _ = dataRecords (s.popped ++ _)
        rw [h.data, hdata, dataRecords_append]
      · show messageTexts (s.archived.logs ++ _) ++ _ = messageTexts (logRecords (s.popped ++ _))
        rw [messageTexts_append, List.append_assoc, logRecords_append, messageTexts_append,
          ← h.texts, List.append_assoc]
        exact congrArg _ htexts

/-- `callback_archive` with the clock at one second. -/
def archiveAtSecond (sec : ℤ) : ArchiverEvent 512 :=
  .archive (fun _ => ⟨⟨sec, 0⟩, fun _ => 0⟩) ⟨sec, 0⟩

def receiveAtSecond (sec : ℤ) (frame : Record 512) : ArchiverEvent 512 :=
  .receive ⟨⟨sec, 0⟩, ⟨sec, 0⟩, ⟨sec, 0⟩⟩ frame

/-- Less than `BUFFER_TIME_SEC` has passed since a record was received. -/
def Recent (now : Timeval) (record : DataRecord n) : Prop :=
  now.micro - record.receiveTime.micro < bufferTimeSec * 1000000

instance (now : Timeval) (record : DataRecord n) : Decidable (Recent now record) :=
  inferInstanceAs (Decidable (_ < _))

/-- The pending message, if there is one, is recent. -/
def PendingRecent (now : Timeval) (archd : ArchdContext n) : Prop :=
  ∀ log ∈ archd.logMessage, Recent now (archd.records log)

/-- The callback returns with a recent pending message or none. -/
def ReturnsRecent (env : ℕ → ArchiveEnv) (returned : Timeval) (archd : ArchdContext n) : Prop :=
  PendingRecent returned (callbackArchive env archd).1

instance (env : ℕ → ArchiveEnv) (returned : Timeval) (archd : ArchdContext n) :
    Decidable (ReturnsRecent env returned archd) :=
  inferInstanceAs (Decidable (∀ log ∈ (callbackArchive env archd).1.logMessage,
    Recent returned ((callbackArchive env archd).1.records log)))

/-- One of the rounds has a LOG record that the pending message does not take in. -/
def SomeStarts : ℕ → (ℕ → ArchiveEnv) → ArchdContext n → Prop
  | 0, _, _ => False
  | fuel + 1, env, archd =>
    match prioqueuePopHigh archd.recordQueue with
    | none => False
    | some (id, recordQueue) =>
      StartsMessage (env 0) { archd with recordQueue := recordQueue } id ∨
        SomeStarts fuel (fun i => env (i + 1))
          (archiveRecord (env 0) { archd with recordQueue := recordQueue } id).1

/-- Each message that a round makes pending is recent when the callback returns, or a later round
starts another. -/
def StartedRecent (returned : Timeval) : ℕ → (ℕ → ArchiveEnv) → ArchdContext n → Prop
  | 0, _, _ => True
  | fuel + 1, env, archd =>
    match prioqueuePopHigh archd.recordQueue with
    | none => True
    | some (id, recordQueue) =>
      (StartsMessage (env 0) { archd with recordQueue := recordQueue } id →
          Fresh (env 0).now (archd.records id) → Recent returned (archd.records id) ∨
            SomeStarts fuel (fun i => env (i + 1))
              (archiveRecord (env 0) { archd with recordQueue := recordQueue } id).1) ∧
        StartedRecent returned fuel (fun i => env (i + 1))
          (archiveRecord (env 0) { archd with recordQueue := recordQueue } id).1

/-- Each LOG message that is pending before the callback or becomes so in it is recent when the
callback returns, or a later LOG record starts another. -/
def MessagesRecent (env : ℕ → ArchiveEnv) (returned : Timeval) (archd : ArchdContext n) : Prop :=
  (∀ log ∈ archd.logMessage, Recent returned (archd.records log) ∨
      SomeStarts archd.rounds env archd) ∧
    StartedRecent returned archd.rounds env archd

lemma archiveLoop_recent_iff (returned : Timeval) (fuel : ℕ) (env : ℕ → ArchiveEnv)
    (archd : ArchdContext n) :
    PendingRecent returned (archiveLoop fuel env archd).1 ↔
      (∀ log ∈ archd.logMessage, Recent returned (archd.records log) ∨
        SomeStarts fuel env archd) ∧ StartedRecent returned fuel env archd := by
  induction fuel generalizing env archd with
  | zero => simp [archiveLoop, SomeStarts, StartedRecent, PendingRecent]
  | succ fuel ih =>
    rw [archiveLoop, SomeStarts, StartedRecent]
    cases hpop : prioqueuePopHigh archd.recordQueue with
    | none => simp [PendingRecent]
    | some x =>
      obtain ⟨id, recordQueue⟩ := x
      have htime := (archiveRecord_leaves (env 0) { archd with recordQueue := recordQueue } id).2
      have hmessage := archiveRecord_logMessage (env 0) { archd with recordQueue := recordQueue } id
      have hround := ih (fun i => env (i + 1))
        (archiveRecord (env 0) { archd with recordQueue := recordQueue } id).1
      simp only [Recent, htime, hmessage] at hround
      refine hround.trans ?_
      dsimp only
      by_cases hstarts : StartsMessage (env 0) { archd with recordQueue := recordQueue } id
      · -- the message before this round is archived in it
        by_cases hfresh : Fresh (env 0).now (archd.records id)
        · simp [hstarts, hfresh, Recent]
        · simp [hstarts, hfresh]
      · simp [hstarts, Recent]

/-- **Waiting time.** In every run every callback returns without an old pending message exactly
where each message it has or starts is recent then or followed by one that starts another. -/
theorem returnsRecent_iff (depth : ℤ) (events : List (ArchiverEvent n)) :
    EachCallback ReturnsRecent (Archiver.initial n depth) events ↔
      EachCallback MessagesRecent (Archiver.initial n depth) events := by
  generalize Archiver.initial n depth = s
  induction events generalizing s with
  | nil => exact Iff.rfl
  | cons event events ih =>
    cases event with
    | receive env frame => exact ih (s.receive env frame)
    | archive env returned =>
      exact and_congr (archiveLoop_recent_iff returned _ env s.archd) (ih (s.archive env))

/-- The readings of the clock in an event, none of which is before `start`, do not decrease. -/
def ArchiverEvent.Timed (start : Timeval) : ArchiverEvent n → Prop
  | .receive env _ => start.notAfter env.receiveTime ∧ env.receiveTime.notAfter env.recordNow ∧
      env.recordNow.notAfter env.telemetryNow
  | .archive env returned => ∀ i, start.notAfter (env i).now ∧
      (env i).now.notAfter (env (i + 1)).now ∧ (env i).now.notAfter returned

/-- The last reading of the clock in an event. -/
def ArchiverEvent.ended : ArchiverEvent n → Timeval
  | .receive env _ => env.telemetryNow
  | .archive _ returned => returned

/-- The clock does not go back in a run. -/
def ClockRuns : Timeval → List (ArchiverEvent n) → Prop
  | _, [] => True
  | start, event :: events => event.Timed start ∧ ClockRuns event.ended events

lemma notAfter_of_sec {a b : ℤ} (h : a ≤ b) : Timeval.notAfter ⟨a, 0⟩ ⟨b, 0⟩ := by
  rcases h.lt_or_eq with h | h
  · exact Or.inl h
  · exact Or.inr ⟨h, le_rfl⟩

lemma receiveAtSecond_timed {start sec : ℤ} (h : start ≤ sec) (frame : Record 512) :
    (receiveAtSecond sec frame).Timed ⟨start, 0⟩ :=
  ⟨notAfter_of_sec h, notAfter_of_sec le_rfl, notAfter_of_sec le_rfl⟩

lemma archiveAtSecond_timed {start sec : ℤ} (h : start ≤ sec) :
    (archiveAtSecond sec).Timed ⟨start, 0⟩ :=
  fun _ => ⟨notAfter_of_sec h, notAfter_of_sec le_rfl, notAfter_of_sec le_rfl⟩

/-- A message is pending, and no record comes for a long time. -/
def idleRun : List (ArchiverEvent 512) :=
  [receiveAtSecond 0 (messageFrame [65]), archiveAtSecond 1, archiveAtSecond 100]

/-- A message is pending, and a new one is combined into it after a long time. -/
def mergedRun : List (ArchiverEvent 512) :=
  [receiveAtSecond 0 (messageFrame [65]), archiveAtSecond 1,
    receiveAtSecond 100 (messageFrame [66]), archiveAtSecond 100]

/-- The age of the pending message is not looked at while the queue is empty, nor after a new
message was combined into it. -/
theorem returnsRecent_fails :
    (ClockRuns ⟨0, 0⟩ idleRun ∧
        ¬EachCallback ReturnsRecent (Archiver.initial 512 10) idleRun) ∧
      ClockRuns ⟨0, 0⟩ mergedRun ∧
        ¬EachCallback ReturnsRecent (Archiver.initial 512 10) mergedRun := by
  refine ⟨⟨⟨?_, ?_, ?_, trivial⟩, by decide +kernel⟩, ⟨?_, ?_, ?_, ?_, trivial⟩, by decide +kernel⟩
  · exact receiveAtSecond_timed le_rfl _
  · exact archiveAtSecond_timed zero_le_one
  · exact archiveAtSecond_timed (by decide)
  · exact receiveAtSecond_timed le_rfl _
  · exact archiveAtSecond_timed zero_le_one
  · exact receiveAtSecond_timed (by decide) _
  · exact archiveAtSecond_timed le_rfl

end StationProcessor
