import StationProcessor.Archd.Clients

/-!
# Reference counts

Every record counts its holders: the record queue, the telemetry queue, the queues of the
clients, the records they are in the middle of, and the pending LOG message. A callback that
takes a record from one holder to another, or drops it, keeps the counts; what is lost is kept
apart here.
-/

namespace StationProcessor

open Assoc Fallible
open scoped List

variable {n : ℕ} {plat : MapPlatform}

/-! ### Counts -/

/-- What was lost: references that nobody drops any more, and records that no queue got. -/
structure Leaks where
  references : ℕ → ℕ
  frames : Set ℕ

def Leaks.none : Leaks := ⟨fun _ => 0, ∅⟩

/-- The records below `allocated` count this list of holders and what was lost. -/
structure Counted (records : Memory n) (allocated : ℕ) (held : List ℕ) (leaks : Leaks) :
    Prop where
  refCount : ∀ id < allocated, (records id).refCount = held.count id + leaks.references id
  freed : ∀ id < allocated, (records id).freed = true → (records id).refCount = 0
  kept : ∀ id < allocated, (records id).refCount = 0 → (records id).freed = true ∨ id ∈ leaks.frames
  bound : ∀ id ∈ held, id < allocated
  fresh : ∀ id, allocated ≤ id → leaks.references id = 0

variable {records : Memory n} {allocated : ℕ} {held : List ℕ} {leaks : Leaks}

lemma Counted.perm {held' : List ℕ} (h : Counted records allocated held leaks)
    (hperm : held ~ held') : Counted records allocated held' leaks where
  refCount id hid := by rw [← hperm.count_eq, h.refCount id hid]
  freed := h.freed
  kept := h.kept
  bound id hid := h.bound id (hperm.mem_iff.mpr hid)
  fresh := h.fresh

/-- Only the counts matter. -/
lemma Counted.congr {records' : Memory n} (h : Counted records allocated held leaks)
    (hcount : ∀ id, (records' id).refCount = (records id).refCount)
    (hfreed : ∀ id, (records' id).freed = (records id).freed) :
    Counted records' allocated held leaks where
  refCount id hid := by rw [hcount, h.refCount id hid]
  freed id hid := by
    rw [hcount, hfreed]
    exact h.freed id hid
  kept id hid := by
    rw [hcount, hfreed]
    exact h.kept id hid
  bound := h.bound
  fresh := h.fresh

/-- A record that is held is not freed. -/
lemma Counted.not_freed (h : Counted records allocated held leaks) {id : ℕ} (hid : id ∈ held) :
    (records id).freed = false := by
  have hpos : 0 < held.count id := List.count_pos_iff.mpr hid
  have hcount := h.refCount id (h.bound id hid)
  by_contra hfreed
  have := h.freed id (h.bound id hid) (by simpa using hfreed)
  omega

/-- A new holder. -/
lemma Counted.duplicate (h : Counted records allocated held leaks) {id : ℕ} (hid : id < allocated)
    (hfreed : (records id).freed = false) :
    Counted (recordDuplicate records id) allocated (id :: held) leaks := by
  have hself : recordDuplicate records id id
      = { records id with refCount := (records id).refCount + 1 } := Function.update_self _ _ _
  have hother : ∀ i, i ≠ id → recordDuplicate records id i = records i := fun i hi =>
    Function.update_of_ne hi _ _
  refine ⟨fun i hi => ?_, fun i hi => ?_, fun i hi => ?_, fun i hi => ?_, h.fresh⟩
  · rcases eq_or_ne i id with rfl | hne
    · rw [hself, List.count_cons_self, h.refCount i hi]
      exact Nat.add_right_comm _ _ _
    · rw [hother i hne, List.count_cons_of_ne hne.symm, h.refCount i hi]
  · rcases eq_or_ne i id with rfl | hne
    · rw [hself, hfreed]
      exact fun hfalse => by cases hfalse
    · rw [hother i hne]
      exact h.freed i hi
  · rcases eq_or_ne i id with rfl | hne
    · rw [hself]
      exact fun hzero => by cases hzero
    · rw [hother i hne]
      exact h.kept i hi
  · rcases List.mem_cons.mp hi with rfl | hi
    · exact hid
    · exact h.bound i hi

/-- A holder drops a record. -/
lemma Counted.deallocate {id : ℕ} (h : Counted records allocated (id :: held) leaks) :
    Counted (recordDeallocate records id) allocated held leaks := by
  have hid := h.bound id List.mem_cons_self
  have hcount := h.refCount id hid
  rw [List.count_cons_self] at hcount
  have hself : recordDeallocate records id id = { records id with
      refCount := (records id).refCount - 1
      freed := (records id).refCount = 1 } := by
    rw [recordDeallocate, if_pos (by omega), Function.update_self]
  have hother : ∀ i, i ≠ id → recordDeallocate records id i = records i := by
    intro i hi
    rw [recordDeallocate, if_pos (by omega), Function.update_of_ne hi]
  refine ⟨fun i hi => ?_, fun i hi => ?_, fun i hi => ?_, fun i hi => ?_, h.fresh⟩
  · rcases eq_or_ne i id with rfl | hne
    · rw [hself]
      show (records i).refCount - 1 = _
      omega
    · rw [hother i hne, h.refCount i hi, List.count_cons_of_ne hne.symm]
  · rcases eq_or_ne i id with rfl | hne
    · rw [hself]
      simp only [decide_eq_true_eq]
      omega
    · rw [hother i hne]
      exact h.freed i hi
  · rcases eq_or_ne i id with rfl | hne
    · rw [hself]
      simp only [decide_eq_true_eq]
      omega
    · rw [hother i hne]
      exact h.kept i hi
  · exact h.bound i (List.mem_cons_of_mem id hi)

lemma Counted.deallocateAll {ids : List ℕ}
    (h : Counted records allocated (ids ++ held) leaks) :
    Counted (ids.foldl recordDeallocate records) allocated held leaks := by
  induction ids generalizing records with
  | nil => exact h
  | cons id ids ih => exact ih h.deallocate

/-- Holders that vanish without dropping their records. -/
lemma Counted.forget {ids : List ℕ} (h : Counted records allocated (ids ++ held) leaks) :
    Counted records allocated held
      ⟨fun id => ids.count id + leaks.references id, leaks.frames⟩ where
  refCount id hid := by
    rw [h.refCount id hid, List.count_append, Nat.add_comm (ids.count id), Nat.add_assoc]
  freed := h.freed
  kept := h.kept
  bound id hid := h.bound id (List.mem_append_right ids hid)
  fresh id hid := by
    have hnot : id ∉ ids := fun hmem =>
      absurd (h.bound id (List.mem_append_left held hmem)) (not_lt.mpr hid)
    show ids.count id + leaks.references id = 0
    rw [List.count_eq_zero_of_not_mem hnot, h.fresh id hid]

/-- A new record that nobody holds. -/
lemma Counted.allocate (h : Counted records allocated held leaks) (r : DataRecord n)
    (hcount : r.refCount = 0) :
    Counted (Function.update records allocated r) (allocated + 1) held
      ⟨leaks.references, insert allocated leaks.frames⟩ := by
  have hnot : allocated ∉ held := fun hmem => lt_irrefl _ (h.bound allocated hmem)
  refine ⟨fun i hi => ?_, fun i hi => ?_, fun i hi => ?_, fun i hi => ?_, fun i hi => ?_⟩
  · rcases eq_or_ne i allocated with rfl | hne
    · rw [Function.update_self, hcount, List.count_eq_zero_of_not_mem hnot, h.fresh i le_rfl]
    · rw [Function.update_of_ne hne]
      exact h.refCount i (by omega)
  · rcases eq_or_ne i allocated with rfl | hne
    · rw [Function.update_self]
      exact fun _ => hcount
    · rw [Function.update_of_ne hne]
      exact h.freed i (by omega)
  · rcases eq_or_ne i allocated with rfl | hne
    · exact fun _ => Or.inr (Set.mem_insert i _)
    · rw [Function.update_of_ne hne]
      exact fun hzero => (h.kept i (by omega) hzero).imp_right (Set.mem_insert_of_mem _)
  · exact (h.bound i hi).trans (Nat.lt_succ_self _)
  · exact h.fresh i (by omega)

/-- A record that is held was not lost. -/
lemma Counted.of_insert {id : ℕ} {references : ℕ → ℕ} {frames : Set ℕ}
    (h : Counted records allocated held ⟨references, insert id frames⟩) (hid : id ∈ held) :
    Counted records allocated held ⟨references, frames⟩ where
  refCount := h.refCount
  freed := h.freed
  kept i hi hzero := by
    rcases h.kept i hi hzero with hfreed | hmem
    · exact Or.inl hfreed
    · rcases Set.mem_insert_iff.mp hmem with rfl | hmem
      · have hpos : 0 < held.count i := List.count_pos_iff.mpr hid
        have hcount := h.refCount i hi
        omega
      · exact Or.inr hmem
  bound := h.bound
  fresh := h.fresh

/-- Bringing the second of three lists to the front. -/
lemma perm_append_left_comm {α : Type*} (a b c : List α) : a ++ (b ++ c) ~ b ++ (a ++ c) := by
  rw [← List.append_assoc, ← List.append_assoc]
  exact List.perm_append_comm.append_right c

/-! ### Queues -/

/-- Adding a record to a queue, where somebody else holds the record or nothing is dropped for
it. -/
lemma Counted.queueElement {queue : Queue ℕ}
    (h : Counted records allocated (queue.fifo ++ held) leaks) {id : ℕ}
    (hid : id ∈ held ∨ queue.capacity < 0 ∧ id < allocated ∧ (records id).freed = false)
    {priority : ℤ} {now : Timeval} (hapart : queue.Apart priority now) :
    Counted (queueElement records queue now id priority).1 allocated
      ((queueElement records queue now id priority).2.fifo ++ held) leaks := by
  unfold StationProcessor.queueElement
  dsimp only
  by_cases hcap : queue.capacity = 0
  · rw [if_pos hcap]
    exact h
  rw [if_neg hcap]
  obtain ⟨rest, hdrop, hadd⟩ := exists_prioqueueAdd_rest hcap hapart id
  have hevicted : Counted
      ((prioqueueAdd queue now id priority).2.foldl recordDeallocate records) allocated
      (rest ++ held) leaks := by
    apply Counted.deallocateAll
    rw [← List.append_assoc]
    exact h.perm (hdrop.symm.append_right held)
  have hdup : id < allocated ∧
      ((prioqueueAdd queue now id priority).2.foldl recordDeallocate records id).freed = false := by
    rcases hid with hid | ⟨hunbounded, hlt, hfreed⟩
    · have hmem := List.mem_append_right rest hid
      exact ⟨hevicted.bound id hmem, hevicted.not_freed hmem⟩
    · rw [prioqueueAdd_of_room hcap (by omega)]
      exact ⟨hlt, hfreed⟩
  exact (hevicted.duplicate hdup.1 hdup.2).perm (hadd.symm.append_right held)

lemma queueElement_of_record (records : Memory n) (queue : Queue ℕ) (now : Timeval) (id : ℕ) :
    queueRecord records queue now id
      = StationProcessor.queueElement records queue now id (records id).priority := rfl

/-! ### Archiving -/

/-- What archiving and sending leave alone. -/
structure KeepsTelemetry (archd archd' : ArchdContext n) : Prop where
  allocated : archd'.allocated = archd.allocated
  telemetryQueue : archd'.telemetryQueue = archd.telemetryQueue
  telemetryDepth : archd'.telemetryDepth = archd.telemetryDepth
  capacity : archd'.recordQueue.capacity = archd.recordQueue.capacity

lemma KeepsTelemetry.refl (archd : ArchdContext n) : KeepsTelemetry archd archd :=
  ⟨rfl, rfl, rfl, rfl⟩

lemma KeepsTelemetry.trans {archd archd' archd'' : ArchdContext n}
    (h : KeepsTelemetry archd archd') (h' : KeepsTelemetry archd' archd'') :
    KeepsTelemetry archd archd'' where
  allocated := h'.allocated.trans h.allocated
  telemetryQueue := h'.telemetryQueue.trans h.telemetryQueue
  telemetryDepth := h'.telemetryDepth.trans h.telemetryDepth
  capacity := h'.capacity.trans h.capacity

/-- The pending message takes the place of the record. -/
lemma hold_counted (archd : ArchdContext n) {id : ℕ}
    (h : Counted archd.records allocated (id :: held) leaks) (now : Timeval) :
    Counted (archd.hold now id).1.records allocated
      ((archd.hold now id).1.logMessage.toList ++ held) leaks := by
  unfold ArchdContext.hold
  dsimp only
  split_ifs
  · exact h.deallocate
  · exact h

lemma hold_keeps (archd : ArchdContext n) (now : Timeval) (id : ℕ) :
    KeepsTelemetry archd (archd.hold now id).1 ∧
      (archd.hold now id).1.recordQueue = archd.recordQueue := by
  unfold ArchdContext.hold
  dsimp only
  split_ifs <;> exact ⟨⟨rfl, rfl, rfl, rfl⟩, rfl⟩

/-- A round of `callback_archive` drops the record or keeps it as the pending message. -/
lemma archiveRecord_counted (archd : ArchdContext n) {id : ℕ}
    (h : Counted archd.records allocated (id :: (archd.logMessage.toList ++ held)) leaks)
    (env : ArchiveEnv) :
    Counted (archiveRecord env archd id).1.records allocated
      ((archiveRecord env archd id).1.logMessage.toList ++ held) leaks := by
  cases hlog : isLog (archd.records id).data with
  | false =>
    rw [archiveRecord_of_not_log hlog]
    exact h.deallocate
  | true =>
    cases hmessage : archd.logMessage with
    | none =>
      rw [hmessage] at h
      rw [archiveRecord_of_first hlog hmessage]
      exact hold_counted archd.countLog h env.now
    | some log =>
      rw [hmessage] at h
      cases hcombine : combineSeed (archd.records log).data (archd.records id).data env.beyond with
      | some combined =>
        -- the record is dropped, the message only gets another text
        rw [archiveRecord_of_combined hlog hmessage hcombine]
        show Counted (recordDeallocate _ id) allocated (archd.logMessage.toList ++ held) leaks
        rw [hmessage]
        refine (h.congr (fun i => ?_) fun i => ?_).deallocate
        · rcases eq_or_ne i log with rfl | hne
          · rw [Function.update_self]
            rfl
          · rw [Function.update_of_ne hne]
            rfl
        · rcases eq_or_ne i log with rfl | hne
          · rw [Function.update_self]
            rfl
          · rw [Function.update_of_ne hne]
            rfl
      | none =>
        -- the message is archived, and the record becomes the message
        rw [archiveRecord_of_replaced hlog hmessage hcombine]
        have hswap : Counted archd.records allocated (log :: (id :: held)) leaks :=
          h.perm (List.Perm.swap _ _ _)
        exact hold_counted (archd.countLog.archive log).1 hswap.deallocate env.now

lemma archiveRecord_keeps (env : ArchiveEnv) (archd : ArchdContext n) (id : ℕ) :
    KeepsTelemetry archd (archiveRecord env archd id).1 ∧
      (archiveRecord env archd id).1.recordQueue = archd.recordQueue := by
  cases hlog : isLog (archd.records id).data with
  | false =>
    rw [archiveRecord_of_not_log hlog]
    exact ⟨⟨rfl, rfl, rfl, rfl⟩, rfl⟩
  | true =>
    cases hmessage : archd.logMessage with
    | none =>
      rw [archiveRecord_of_first hlog hmessage]
      obtain ⟨⟨hallocated, hqueue, hdepth, hcapacity⟩, hrecords⟩ :=
        hold_keeps archd.countLog env.now id
      exact ⟨⟨hallocated, hqueue, hdepth, hcapacity⟩, hrecords⟩
    | some log =>
      cases hcombine : combineSeed (archd.records log).data (archd.records id).data env.beyond with
      | some combined =>
        rw [archiveRecord_of_combined hlog hmessage hcombine]
        exact ⟨⟨rfl, rfl, rfl, rfl⟩, rfl⟩
      | none =>
        rw [archiveRecord_of_replaced hlog hmessage hcombine]
        obtain ⟨⟨hallocated, hqueue, hdepth, hcapacity⟩, hrecords⟩ :=
          hold_keeps (archd.countLog.archive log).1 env.now id
        exact ⟨⟨hallocated, hqueue, hdepth, hcapacity⟩, hrecords⟩

lemma archiveLoop_keepsTelemetry (fuel : ℕ) (env : ℕ → ArchiveEnv) (archd : ArchdContext n) :
    KeepsTelemetry archd (archiveLoop fuel env archd).1 := by
  induction fuel generalizing env archd with
  | zero => exact KeepsTelemetry.refl _
  | succ fuel ih =>
    rw [archiveLoop]
    cases hpop : prioqueuePopHigh archd.recordQueue with
    | none => exact KeepsTelemetry.refl _
    | some head =>
      obtain ⟨id, recordQueue⟩ := head
      have hround := archiveRecord_keeps (env 0) { archd with recordQueue := recordQueue } id
      obtain ⟨⟨hallocated, hqueue, hdepth, hcapacity⟩, -⟩ := hround
      exact KeepsTelemetry.trans
        ⟨hallocated, hqueue, hdepth, hcapacity.trans (capacity_of_popHigh hpop)⟩ (ih _ _)

lemma archiveLoop_counted {archd : ArchdContext n}
    (h : Counted archd.records allocated
      (archd.recordQueue.fifo ++ (archd.logMessage.toList ++ held)) leaks)
    (fuel : ℕ) (env : ℕ → ArchiveEnv) :
    Counted (archiveLoop fuel env archd).1.records allocated
      ((archiveLoop fuel env archd).1.recordQueue.fifo
        ++ ((archiveLoop fuel env archd).1.logMessage.toList ++ held)) leaks := by
  induction fuel generalizing env archd with
  | zero => exact h
  | succ fuel ih =>
    rw [archiveLoop]
    cases hpop : prioqueuePopHigh archd.recordQueue with
    | none => exact h
    | some head =>
      obtain ⟨id, recordQueue⟩ := head
      rw [fifo_of_popHigh hpop] at h
      have hqueue := (archiveRecord_keeps (env 0) { archd with recordQueue := recordQueue } id).2
      have hpopped : Counted archd.records allocated
          (id :: (archd.logMessage.toList ++ (recordQueue.fifo ++ held))) leaks :=
        h.perm ((perm_append_left_comm _ _ _).cons id)
      have hround :=
        archiveRecord_counted { archd with recordQueue := recordQueue } hpopped (env 0)
      refine ih ?_ _
      rw [hqueue]
      exact hround.perm (perm_append_left_comm _ _ _)

/-! ### Sending -/

/-- The records a client holds. -/
def ClientContext.holdings (client : ClientContext) : List ℕ :=
  client.telemetryQueue.fifo ++ client.partialRecord.toList

/-- Nothing of the daemon but its records changes. -/
def OnlyRecords (archd archd' : ArchdContext n) : Prop :=
  archd' = { archd with records := archd'.records }

lemma OnlyRecords.trans {archd archd' archd'' : ArchdContext n} (h : OnlyRecords archd archd')
    (h' : OnlyRecords archd' archd'') : OnlyRecords archd archd'' := by
  unfold OnlyRecords at *
  rw [h', h]

/-- The loop of the send callback takes the record it goes on with from the client. -/
lemma next_counted {t t' : Telemetry n} {id offset : ℕ} (h : t.next = some (id, offset, t')) :
    t'.archd = t.archd ∧ t'.client.partialRecord = none ∧
      t.client.holdings ~ id :: t'.client.holdings := by
  unfold Telemetry.next at h
  unfold ClientContext.holdings
  cases hidle : t.client.partialRecord with
  | some id' =>
    rw [hidle] at h
    cases h
    refine ⟨rfl, rfl, ?_⟩
    simp
  | none =>
    rw [hidle] at h
    dsimp only at h
    cases hpop : prioqueuePopHigh t.client.telemetryQueue with
    | none =>
      rw [hpop] at h
      cases h
    | some head =>
      rw [hpop] at h
      cases h
      refine ⟨rfl, hidle, ?_⟩
      rw [fifo_of_popHigh hpop, hidle]
      exact List.Perm.refl _

lemma clientSendLoop_counted {t : Telemetry n}
    (h : Counted t.archd.records allocated (t.client.holdings ++ held) leaks) (fuel : ℕ)
    (env : ℕ → ClientEnv) :
    Counted (clientSendLoop fuel env t).archd.records allocated
        ((clientSendLoop fuel env t).client.holdings ++ held) leaks ∧
      OnlyRecords t.archd (clientSendLoop fuel env t).archd := by
  induction fuel generalizing env t with
  | zero => exact ⟨h, rfl⟩
  | succ fuel ih =>
    rw [clientSendLoop]
    cases hnext : t.next with
    | none => exact ⟨h, rfl⟩
    | some next =>
      obtain ⟨id, offset, t'⟩ := next
      obtain ⟨harchd, hidle, hheld⟩ := next_counted hnext
      rw [← harchd] at h ⊢
      have hid : Counted t'.archd.records allocated (id :: (t'.client.holdings ++ held)) leaks :=
        h.perm (hheld.append_right held)
      have hinterrupt : ∀ env sent, Counted (t'.interrupt env id offset sent).archd.records
          allocated ((t'.interrupt env id offset sent).client.holdings ++ held) leaks := by
        intro env sent
        refine hid.perm ?_
        have hself : t'.client.holdings = t'.client.telemetryQueue.fifo := by
          rw [ClientContext.holdings, hidle, Option.toList_none, List.append_nil]
        rw [hself]
        show _ ~ (t'.client.telemetryQueue.fifo ++ [id]) ++ held
        rw [← List.cons_append]
        exact (List.perm_append_singleton id _).symm.append_right held
      dsimp only
      split_ifs with hless
      · cases hsend : (env 0).send with
        | error errno =>
          rw [hsend, sentLess_error] at hless
          cases hless
        | all => exact ⟨hinterrupt _ _, rfl⟩
        | short k => exact ⟨hinterrupt _ _, rfl⟩
      · have hfinish : Counted
            (t'.finish (env 0) id ((env 0).send.accepted
              ((t'.archd.records id).data.toList.drop offset))).archd.records allocated
            (t'.client.holdings ++ held) leaks := hid.deallocate
        obtain ⟨hcounted, honly⟩ := ih hfinish fun i => env (i + 1)
        have hfirst : OnlyRecords t'.archd (t'.finish (env 0) id ((env 0).send.accepted
            ((t'.archd.records id).data.toList.drop offset))).archd := rfl
        exact ⟨hcounted, hfirst.trans honly⟩

/-! ### Passes over the clients -/

/-- The records a list of clients holds. -/
def holdingsOf (clients : List (Bytes × ClientContext)) : List ℕ :=
  clients.flatMap fun p => p.2.holdings

lemma holdingsOf_perm {clients clients' : List (Bytes × ClientContext)} (h : clients ~ clients') :
    holdingsOf clients ~ holdingsOf clients' := h.flatMap_right _

/-- No element of the queue was added at this reading of the clock. -/
def Queue.NewTime {α : Type*} (queue : Queue α) (now : Timeval) : Prop :=
  ∀ e ∈ queue.tree.elements, e.timeReceived ≠ now

instance {α : Type*} (queue : Queue α) (now : Timeval) : Decidable (queue.NewTime now) :=
  inferInstanceAs (Decidable (∀ e ∈ queue.tree.elements, _))

lemma Queue.NewTime.apart {α : Type*} {queue : Queue α} {now : Timeval} (h : queue.NewTime now)
    (priority : ℤ) : queue.Apart priority now := fun e he heq => h e he heq.2

/-- A client that is closed drops the records of its queue, and loses the partial one. -/
lemma close_counted (archd : ArchdContext n) {client : ClientContext}
    (h : Counted archd.records allocated (client.holdings ++ held) leaks) :
    ∃ leaks', Counted (Telemetry.visit archd client).close.archd.records allocated held leaks' ∧
      (client.partialRecord = none → leaks' = leaks) := by
  have hqueue : Counted (client.telemetryQueue.fifo.foldl recordDeallocate archd.records)
      allocated (client.partialRecord.toList ++ held) leaks := by
    rw [ClientContext.holdings, List.append_assoc] at h
    exact h.deallocateAll
  refine ⟨_, hqueue.forget, fun hidle => ?_⟩
  rw [hidle]
  simp

/-- What one call of a pass does to the counts, where `shared` are held by others. -/
def CountsVisit (visit : ClientPass n) (shared : List ℕ) (key : Bytes) (client : ClientContext) :
    Prop :=
  ∀ (s : ArchdContext n × ℤ) (held : List ℕ) (allocated : ℕ) (leaks : Leaks), shared ⊆ held →
    Counted s.1.records allocated (client.holdings ++ held) leaks →
      OnlyRecords s.1 (visit s key client).1.1 ∧
      ∃ leaks', Counted (visit s key client).1.1.records allocated
          ((visit s key client).2.toList.flatMap ClientContext.holdings ++ held) leaks' ∧
        (((visit s key client).2 = none → client.partialRecord = none) → leaks' = leaks)

lemma retireClient_counts (now : Bytes → Timeval) (shared : List ℕ) (key : Bytes)
    (client : ClientContext) :
    CountsVisit (retireClient now : ClientPass n) shared key client := by
  intro s held allocated leaks _ h
  unfold retireClient
  split_ifs
  · obtain ⟨leaks', hcounted, hnone⟩ := close_counted s.1 h
    exact ⟨rfl, leaks', hcounted, fun hidle => hnone (hidle rfl)⟩
  · exact ⟨rfl, leaks, by simpa using h, fun _ => rfl⟩

lemma offerRecord_counts {env : Bytes → OfferEnv} {id : ℕ} {shared : List ℕ} (hid : id ∈ shared)
    {key : Bytes} {client : ClientContext}
    (htime : client.telemetryQueue.NewTime (env key).queueNow) :
    CountsVisit (offerRecord env id : ClientPass n) shared key client := by
  intro s held allocated leaks hshared h
  have hadd : Counted
      (queueRecord s.1.records client.telemetryQueue (env key).queueNow id).1 allocated
      (ClientContext.holdings { client with
        telemetryQueue :=
          (queueRecord s.1.records client.telemetryQueue (env key).queueNow id).2 } ++ held)
      leaks := by
    rw [ClientContext.holdings, List.append_assoc] at h ⊢
    rw [queueElement_of_record]
    exact h.queueElement (Or.inl (List.mem_append_right _ (hshared hid))) (htime.apart _)
  unfold offerRecord addClientRecord
  dsimp only [Telemetry.visit]
  split_ifs with hretire hclosed hrunning
  · cases hclosed
  · obtain ⟨leaks', hcounted, hnone⟩ :=
      close_counted { s.1 with records :=
        (queueRecord s.1.records client.telemetryQueue (env key).queueNow id).1 } hadd
    exact ⟨rfl, leaks', hcounted, fun hidle => hnone (hidle rfl)⟩
  · exact ⟨rfl, leaks, by simpa using hadd, fun _ => rfl⟩
  · exact absurd rfl hrunning

/-- A pass over a list of clients. -/
lemma visitAll_counted {visit : ClientPass n} {shared : List ℕ}
    {clients : List (Bytes × ClientContext)}
    (hvisit : ∀ p ∈ clients, CountsVisit visit shared p.1 p.2) {s : ArchdContext n × ℤ}
    {held : List ℕ} (hshared : shared ⊆ held)
    (h : Counted s.1.records allocated (holdingsOf clients ++ held) leaks) :
    OnlyRecords s.1 (visitAll visit s clients).1.1 ∧
    ∃ leaks', Counted (visitAll visit s clients).1.1.records allocated
        (holdingsOf (kept (visitAll visit s clients).2) ++ held) leaks' ∧
      ((∀ x ∈ (visitAll visit s clients).2, x.2.2 = none → x.2.1.partialRecord = none) →
        leaks' = leaks) := by
  induction clients generalizing s held leaks with
  | nil => exact ⟨rfl, leaks, h, fun _ => rfl⟩
  | cons p clients ih =>
    obtain ⟨key, client⟩ := p
    have hhead : Counted s.1.records allocated
        (client.holdings ++ (holdingsOf clients ++ held)) leaks := by
      rw [← List.append_assoc]
      exact h
    obtain ⟨honly, leaks₁, hcounted, hleaks⟩ := hvisit (key, client) List.mem_cons_self s
      (holdingsOf clients ++ held) allocated leaks
        (List.Subset.trans hshared (List.subset_append_right _ _))
      hhead
    dsimp only at honly hcounted hleaks
    cases hout : visit s key client with
    | mk s' outcome =>
      rw [hout] at honly hcounted hleaks
      have hshared' : shared ⊆ outcome.toList.flatMap ClientContext.holdings ++ held :=
        List.Subset.trans hshared (List.subset_append_right _ _)
      obtain ⟨honly', leaks', hcounted', hleaks'⟩ :=
        ih (fun p hp => hvisit p (List.mem_cons_of_mem _ hp)) hshared'
          (hcounted.perm (perm_append_left_comm _ _ _))
      simp only [visitAll, hout]
      refine ⟨honly.trans honly', leaks', hcounted'.perm ?_, fun hclean => ?_⟩
      · refine (perm_append_left_comm _ _ _).trans ?_
        rw [← List.append_assoc]
        refine List.Perm.append_right held ?_
        cases outcome with
        | none => exact List.Perm.refl _
        | some client' => simp [kept, holdingsOf]
      · have hrest := hleaks' fun x hx => hclean x (List.mem_cons_of_mem _ hx)
        rw [hrest]
        exact hleaks (hclean (key, client, outcome) List.mem_cons_self)

/-! ### Receiving and connecting -/

lemma mem_prioqueueAdd {α : Type*} {queue : Queue α} {now : Timeval} {data : α} {priority : ℤ}
    {e : QueueElement α} (h : e ∈ (prioqueueAdd queue now data priority).1.tree.elements) :
    e = ⟨priority, now, data⟩ ∨ e ∈ queue.tree.elements := by
  unfold prioqueueAdd at h
  split_ifs at h
  · exact Or.inr h
  · exact (OrderedSet.mem_insertInto h).imp_right evict_subset

lemma Queue.NewTime.queueElement {queue : Queue ℕ} {now now' : Timeval} (h : queue.NewTime now')
    (hne : now ≠ now') (records : Memory n) (id : ℕ) (priority : ℤ) :
    (queueElement records queue now id priority).2.NewTime now' := by
  unfold StationProcessor.queueElement
  dsimp only
  split_ifs
  · exact h
  · intro e he
    rcases mem_prioqueueAdd he with rfl | he
    · exact hne
    · exact h e he

/-- A queue with a capacity takes the record. -/
lemma mem_queueElement {queue : Queue ℕ} (hcap : queue.capacity ≠ 0) {priority : ℤ}
    {now : Timeval} (hapart : queue.Apart priority now) (records : Memory n) (id : ℕ) :
    id ∈ (queueElement records queue now id priority).2.fifo := by
  obtain ⟨rest, -, hadd⟩ := exists_prioqueueAdd_rest hcap hapart id
  unfold queueElement
  dsimp only
  rw [if_neg hcap]
  exact hadd.symm.subset List.mem_cons_self

/-- The clone holds each record once more. -/
lemma cloneElements_counted {elements : List (QueueElement ℕ)} {now : ℕ → Timeval}
    {target : Queue ℕ} (h : Counted records allocated (target.fifo ++ held) leaks)
    (hheld : ∀ e ∈ elements, e.data ∈ held)
    (hnow : ((List.range elements.length).map now).Nodup)
    (htimes : ∀ t ∈ (List.range elements.length).map now, target.NewTime t) :
    Counted (cloneElements elements now records target).1 allocated
      ((cloneElements elements now records target).2.fifo ++ held) leaks := by
  induction elements generalizing now records target with
  | nil => exact h
  | cons e elements ih =>
    rw [List.length_cons, List.range_succ_eq_map, List.map_cons, List.map_map] at hnow htimes
    rw [List.nodup_cons] at hnow
    rw [cloneElements]
    apply ih
    · exact h.queueElement (Or.inl (hheld e List.mem_cons_self))
        ((htimes _ List.mem_cons_self).apart _)
    · exact fun e' he' => hheld e' (List.mem_cons_of_mem e he')
    · exact hnow.2
    · intro t ht
      refine (htimes t (List.mem_cons_of_mem _ ht)).queueElement ?_ _ _ _
      rintro rfl
      exact hnow.1 ht

lemma prioqueueClone_counted {source : Queue ℕ} (h : Counted records allocated held leaks)
    (hheld : source.fifo ⊆ held) {now : ℕ → Timeval}
    (hnow : ((List.range source.tree.elements.length).map now).Nodup) :
    Counted (prioqueueClone now records source).1 allocated
      ((prioqueueClone now records source).2.fifo ++ held) leaks := by
  refine cloneElements_counted h (fun e he => hheld (mem_fifo_iff.mpr ⟨e, he, rfl⟩)) hnow ?_
  intro t _ e he
  cases he

/-- A record is put into the record queue and, with telemetry on, into the telemetry queue. -/
lemma accept_counted (archd : ArchdContext n)
    (h : Counted archd.records allocated
      (archd.recordQueue.fifo ++ (archd.telemetryQueue.fifo ++ held)) leaks)
    (hcap : archd.recordQueue.capacity < 0) {id : ℕ} (hid : id < allocated)
    (hfreed : (archd.records id).freed = false) {env : AcceptEnv}
    (hrecord : archd.recordQueue.NewTime env.recordNow)
    (htelemetry : archd.telemetryQueue.NewTime env.telemetryNow) :
    Counted (archd.accept env id).records allocated
        ((archd.accept env id).recordQueue.fifo
          ++ ((archd.accept env id).telemetryQueue.fifo ++ held)) leaks ∧
      id ∈ (archd.accept env id).recordQueue.fifo := by
  have hset : Counted
      (Function.update archd.records id { archd.records id with receiveTime := env.receiveTime })
      allocated (archd.recordQueue.fifo ++ (archd.telemetryQueue.fifo ++ held)) leaks := by
    refine h.congr (fun i => ?_) fun i => ?_
    · rcases eq_or_ne i id with rfl | hne
      · rw [Function.update_self]
      · rw [Function.update_of_ne hne]
    · rcases eq_or_ne i id with rfl | hne
      · rw [Function.update_self]
      · rw [Function.update_of_ne hne]
  have hfreed' : (Function.update archd.records id
      { archd.records id with receiveTime := env.receiveTime } id).freed = false := by
    rw [Function.update_self]
    exact hfreed
  unfold ArchdContext.accept
  dsimp only
  generalize Function.update archd.records id _ = records at hset hfreed' ⊢
  simp only [queueElement_of_record]
  have hqueued := hset.queueElement (Or.inr ⟨hcap, hid, hfreed'⟩)
    (hrecord.apart (records id).priority)
  have hmem := mem_queueElement hcap.ne (hrecord.apart (records id).priority) records id
  generalize queueElement records archd.recordQueue env.recordNow id (records id).priority = r at *
  split_ifs
  · have hswap := (hqueued.perm (perm_append_left_comm _ _ _)).queueElement
      (Or.inl (List.mem_append_left held hmem)) (htelemetry.apart (r.1 id).priority)
    exact ⟨hswap.perm (perm_append_left_comm _ _ _), hmem⟩
  · exact ⟨hqueued, hmem⟩

/-- The frame of a record gets a new record in the record queue, any other frame one that nobody
holds. -/
lemma handleFrame_archd (env : FrameEnv) (s : RecvState n) (r : Record n) :
    ∃ bypass, (handleFrame env s r).archd
      = if queuesFrame s r then
          ArchdContext.accept { s.archd.allocate r with bypass := bypass } env.accept
            s.archd.allocated
        else { s.archd.allocate r with bypass := bypass } := by
  refine ⟨(runCommand { s with archd := s.archd.allocate r } r).archd.bypass, ?_⟩
  have hresult : (runCommand s r).result
      = (runCommand { s with
          archd := s.archd.allocate r, server := { s.server with buffer := [] } } r).result := by
    unfold runCommand
    split_ifs <;> rfl
  unfold queuesFrame
  rw [hresult]
  unfold handleFrame sendReply answer
  dsimp only
  have harchd : (runCommand { s with
      archd := s.archd.allocate r, server := { s.server with buffer := [] } } r).archd
      = { s.archd.allocate r with
          bypass := (runCommand { s with archd := s.archd.allocate r } r).archd.bypass } := by
    unfold runCommand
    split_ifs <;> rfl
  generalize runCommand _ r = s' at harchd ⊢
  split_ifs with hokay hfail hinvalid hqueues <;> simp_all

/-! ### The daemon -/

/-- The records that are held, once for each holder: by the clients, the two queues and the
pending message. -/
def Daemon.holdings (d : Daemon n) : List ℕ :=
  holdingsOf d.clients.entries ++ (d.archd.recordQueue.fifo
    ++ (d.archd.telemetryQueue.fifo ++ d.archd.logMessage.toList))

/-- The counts are right in a state whose client map is one. -/
structure Daemon.Sound (plat : MapPlatform) (d : Daemon n) (leaks : Leaks) : Prop where
  stores : ∃ f, d.clients.Stores plat f
  counted : Counted d.archd.records d.archd.allocated d.holdings leaks
  capacity : d.archd.recordQueue.capacity < 0

/-- A queue gets no two records at one reading of the clock. -/
def DaemonEvent.Timely (d : Daemon n) : DaemonEvent n → Prop
  | .frame _ env offer _ => d.archd.recordQueue.NewTime env.accept.recordNow ∧
      d.archd.telemetryQueue.NewTime env.accept.telemetryNow ∧
      ∀ p ∈ d.clients.entries, p.2.telemetryQueue.NewTime (offer p.1).queueNow
  | .connect env =>
      ((List.range d.archd.telemetryQueue.tree.elements.length).map env.cloneNow).Nodup
  | .archive _ | .timeout _ _ | .canSend _ _ => True

instance (d : Daemon n) : DecidablePred (DaemonEvent.Timely d)
  | .frame .. => inferInstanceAs (Decidable (_ ∧ _ ∧ ∀ p ∈ d.clients.entries, _))
  | .connect _ => inferInstanceAs (Decidable (List.Nodup _))
  | .archive _ => isTrue trivial
  | .timeout .. => isTrue trivial
  | .canSend .. => isTrue trivial

/-- A frame is a record, and a client that is made gets its socket. -/
def DaemonEvent.Completes (d : Daemon n) : DaemonEvent n → Prop
  | .frame s _ _ r => queuesFrame { s with archd := d.archd } r = true
  | .connect env => d.clientCount < d.maxClients → ∃ fd, env.result = .connected fd
  | .archive _ | .timeout .. | .canSend .. => True

instance (d : Daemon n) : DecidablePred (DaemonEvent.Completes d)
  | .frame s _ _ r => inferInstanceAs (Decidable (queuesFrame { s with archd := d.archd } r = true))
  | .connect env =>
    match h : env.result with
    | .failed => decidable_of_iff (¬d.clientCount < d.maxClients)
        ⟨fun hfull hroom => absurd hroom hfull, fun hall hroom => by
          obtain ⟨fd, hfd⟩ := hall hroom
          rw [h] at hfd
          cases hfd⟩
    | .connected fd => isTrue fun _ => ⟨fd, h⟩
  | .archive _ => isTrue trivial
  | .timeout .. => isTrue trivial
  | .canSend .. => isTrue trivial

/-- Nothing is lost: the event completes, and no client is retired in the middle of a record. -/
structure DaemonEvent.Clean (d : Daemon n) (event : DaemonEvent n) : Prop where
  completes : event.Completes d
  retired : ∀ p ∈ event.pass d,
    ∀ x ∈ (visitAll p.2 (p.1.archd, p.1.clientCount) p.1.clients.entries).2,
      x.2.2 = none → x.2.1.partialRecord = none

instance (d : Daemon n) : DecidablePred (DaemonEvent.Clean d) := fun event =>
  decidable_of_iff (event.Completes d ∧ ∀ p ∈ event.pass d,
    ∀ x ∈ (visitAll p.2 (p.1.archd, p.1.clientCount) p.1.clients.entries).2,
      x.2.2 = none → x.2.1.partialRecord = none)
    ⟨fun h => ⟨h.1, h.2⟩, fun h => ⟨h.completes, h.retired⟩⟩

/-- A pass over the clients keeps the counts. -/
lemma Daemon.Sound.enum {d : Daemon n} (h : d.Sound plat leaks) {visit : ClientPass n}
    {shared : List ℕ} (hshared : shared ⊆ d.archd.recordQueue.fifo)
    (hvisit : ∀ p ∈ d.clients.entries, CountsVisit visit shared p.1 p.2)
    (halone : RemovedAlone plat d.clients
      (visitAll visit (d.archd, d.clientCount) d.clients.entries).2) :
    ∃ d' leaks', d.enum plat visit = .ok d' ∧ d'.Sound plat leaks' ∧
      ((∀ x ∈ (visitAll visit (d.archd, d.clientCount) d.clients.entries).2,
        x.2.2 = none → x.2.1.partialRecord = none) → leaks' = leaks) := by
  obtain ⟨⟨f, hstores⟩, hcounted, hcap⟩ := h
  obtain ⟨clients, f', hok, hstores', hkept⟩ := Daemon.enum_ok hstores halone
  obtain ⟨honly, leaks', hcounted', hleaks⟩ := visitAll_counted hvisit
    (s := (d.archd, d.clientCount)) (List.Subset.trans hshared (List.subset_append_left _ _))
    hcounted
  have harchd : (visitAll visit (d.archd, d.clientCount) d.clients.entries).1.1
      = { d.archd with
          records := (visitAll visit (d.archd, d.clientCount) d.clients.entries).1.1.records } :=
    honly
  refine ⟨_, leaks', hok, ⟨⟨f', hstores'⟩, ?_, ?_⟩, hleaks⟩
  · unfold Daemon.holdings
    rw [harchd]
    exact hcounted'.perm ((holdingsOf_perm (hkept.perm hstores'.entries)).append_right _)
  · rw [harchd]
    exact hcap

lemma Daemon.Sound.archive {d : Daemon n} (h : d.Sound plat leaks) (env : ℕ → ArchiveEnv) :
    (d.archive env).Sound plat leaks := by
  obtain ⟨hstores, hcounted, hcap⟩ := h
  have hkeeps := archiveLoop_keepsTelemetry d.archd.recordQueue.tree.elements.length env d.archd
  refine ⟨hstores, ?_, hkeeps.capacity.trans_lt hcap⟩
  have hfirst : Counted d.archd.records d.archd.allocated (d.archd.recordQueue.fifo
      ++ (d.archd.logMessage.toList
        ++ (holdingsOf d.clients.entries ++ d.archd.telemetryQueue.fifo))) leaks := by
    refine hcounted.perm (List.perm_iff_count.mpr fun id => ?_)
    simp only [Daemon.holdings, List.count_append]
    omega
  have hloop := archiveLoop_counted hfirst d.archd.recordQueue.tree.elements.length env
  show Counted _ (callbackArchive env d.archd).1.allocated _ leaks
  unfold callbackArchive
  rw [hkeeps.allocated]
  refine hloop.perm (List.perm_iff_count.mpr fun id => ?_)
  simp only [Daemon.holdings, Daemon.archive, callbackArchive, hkeeps.telemetryQueue,
    List.count_append]
  omega

/-- A frame that is queued, before the pass over the clients. -/
lemma Daemon.Sound.receive {d : Daemon n} (h : d.Sound plat leaks) (s : RecvState n)
    (env : FrameEnv) {r : Record n} (hqueues : queuesFrame { s with archd := d.archd } r = true)
    (hrecord : d.archd.recordQueue.NewTime env.accept.recordNow)
    (htelemetry : d.archd.telemetryQueue.NewTime env.accept.telemetryNow) :
    (d.receive s env r).Sound plat leaks ∧
      d.archd.allocated ∈ (d.receive s env r).archd.recordQueue.fifo := by
  obtain ⟨hstores, hcounted, hcap⟩ := h
  obtain ⟨bypass, harchd⟩ := handleFrame_archd env { s with archd := d.archd } r
  rw [if_pos hqueues] at harchd
  dsimp only at harchd
  have hnew := hcounted.allocate ⟨⟨0, 0⟩, r, 0, 0, false⟩ rfl
  have hperm : d.holdings ~ d.archd.recordQueue.fifo ++ (d.archd.telemetryQueue.fifo
      ++ (holdingsOf d.clients.entries ++ d.archd.logMessage.toList)) := by
    refine List.perm_iff_count.mpr fun id => ?_
    simp only [Daemon.holdings, List.count_append]
    omega
  have hfreed : ((d.archd.allocate r).records d.archd.allocated).freed = false := by
    rw [allocate_new]
  obtain ⟨haccept, hmem⟩ := accept_counted { d.archd.allocate r with bypass := bypass }
    (hnew.perm hperm) hcap (Nat.lt_succ_self _) hfreed hrecord htelemetry
  have hfound := haccept.of_insert (List.mem_append_left _ hmem)
  refine ⟨⟨hstores, ?_, ?_⟩, ?_⟩
  · unfold Daemon.holdings Daemon.receive
    dsimp only
    rw [harchd, accept_allocated, accept_logMessage]
    refine hfound.perm (List.perm_iff_count.mpr fun id => ?_)
    simp only [List.count_append]
    show _ = _ + (_ + (_ + List.count id d.archd.logMessage.toList))
    omega
  · unfold Daemon.receive
    dsimp only
    rw [harchd, accept_capacity]
    exact hcap
  · unfold Daemon.receive
    dsimp only
    rw [harchd]
    exact hmem

/-- A frame that is not queued. -/
lemma Daemon.Sound.receive_lost {d : Daemon n} (h : d.Sound plat leaks) (s : RecvState n)
    (env : FrameEnv) {r : Record n} (hqueues : queuesFrame { s with archd := d.archd } r = false) :
    ∃ leaks', (d.receive s env r).Sound plat leaks' := by
  obtain ⟨hstores, hcounted, hcap⟩ := h
  obtain ⟨bypass, harchd⟩ := handleFrame_archd env { s with archd := d.archd } r
  rw [hqueues, if_neg Bool.false_ne_true] at harchd
  refine ⟨⟨leaks.references, insert d.archd.allocated leaks.frames⟩, hstores, ?_, ?_⟩
  · unfold Daemon.holdings Daemon.receive
    dsimp only
    rw [harchd]
    exact hcounted.allocate ⟨⟨0, 0⟩, r, 0, 0, false⟩ rfl
  · unfold Daemon.receive
    dsimp only
    rw [harchd]
    exact hcap

lemma Daemon.Sound.canSend {d : Daemon n} (h : d.Sound plat leaks) (fd : ℤ)
    (env : ℕ → ClientEnv) : ∃ d', d.canSend plat fd env = .ok d' ∧ d'.Sound plat leaks := by
  obtain ⟨⟨f, hstores⟩, hcounted, hcap⟩ := h
  cases hclient : f (socketKey fd) with
  | none => exact ⟨_, Daemon.canSend_of_none hstores hclient env, ⟨f, hstores⟩, hcounted, hcap⟩
  | some client =>
    obtain ⟨clients, hok, hstores'⟩ := Daemon.canSend_of_client hstores hclient env
    obtain ⟨a, b, hentries⟩ := hstores.entries.exists_split hclient
    have hsplit := hstores.entries
    rw [hentries] at hsplit
    have hperm := (hsplit.replace
      (callbackClientCanSend env (Telemetry.visit d.archd client)).client).perm hstores'.entries
    have hclient : Counted d.archd.records d.archd.allocated
        (client.holdings ++ (holdingsOf (a ++ b) ++ (d.archd.recordQueue.fifo
          ++ (d.archd.telemetryQueue.fifo ++ d.archd.logMessage.toList)))) leaks := by
      refine hcounted.perm (List.perm_iff_count.mpr fun id => ?_)
      simp only [Daemon.holdings, hentries, holdingsOf, List.flatMap_append, List.flatMap_cons,
        List.count_append]
      omega
    obtain ⟨hsent, honly⟩ := clientSendLoop_counted (t := Telemetry.visit d.archd client) hclient
      (client.telemetryQueue.tree.elements.length + 1) env
    have harchd : (callbackClientCanSend env (Telemetry.visit d.archd client)).archd
        = { d.archd with
            records :=
              (callbackClientCanSend env (Telemetry.visit d.archd client)).archd.records } :=
      honly
    refine ⟨_, hok, ⟨_, hstores'⟩, ?_, ?_⟩
    · unfold Daemon.holdings
      dsimp only
      rw [harchd]
      refine hsent.perm (((List.Perm.append_right _ (holdingsOf_perm hperm))).symm.trans ?_).symm
      refine List.perm_iff_count.mpr fun id => ?_
      simp only [holdingsOf, List.flatMap_append, List.flatMap_cons, List.count_append,
        callbackClientCanSend, Telemetry.visit]
      omega
    · dsimp only
      rw [harchd]
      exact hcap

lemma Daemon.Sound.connect {d : Daemon n} (h : d.Sound plat leaks) (env : ConnectEnv)
    (hnow : ((List.range d.archd.telemetryQueue.tree.elements.length).map env.cloneNow).Nodup)
    (hsocket : ∀ fd, env.result = .connected fd →
      mapGet plat d.clients (socketKey fd) = .ok none) :
    ∃ d' leaks', d.connect plat env = .ok d' ∧ d'.Sound plat leaks' ∧
      ((d.clientCount < d.maxClients → ∃ fd, env.result = .connected fd) → leaks' = leaks) := by
  obtain ⟨⟨f, hstores⟩, hcounted, hcap⟩ := h
  unfold Daemon.connect
  split_ifs with hfull
  · exact ⟨d, leaks, rfl, ⟨⟨f, hstores⟩, hcounted, hcap⟩, fun _ => rfl⟩
  have hqueue : d.archd.telemetryQueue.fifo ⊆ d.holdings := by
    intro id hid
    exact List.mem_append_right _ (List.mem_append_right _ (List.mem_append_left _ hid))
  have hclone := prioqueueClone_counted hcounted hqueue hnow
  generalize prioqueueClone env.cloneNow d.archd.records d.archd.telemetryQueue = r at *
  dsimp only
  cases hresult : env.result with
  | failed =>
    refine ⟨_, _, rfl, ⟨⟨f, hstores⟩, hclone.forget, hcap⟩, fun hclean => ?_⟩
    obtain ⟨fd, hfd⟩ := hclean (by omega)
    cases hfd
  | connected fd =>
    have hfree : f (socketKey fd) = none := by
      have := hsocket fd hresult
      rw [hstores.mapGet] at this
      exact Except.ok.inj this
    obtain ⟨clients, hput, -, hstores'⟩ := hstores.mapPut (socketKey fd)
      (⟨env.now, none, 0, 0, r.2⟩ : ClientContext)
    have hperm := (hstores.entries.concat hfree ⟨env.now, none, 0, 0, r.2⟩).perm hstores'.entries
    refine ⟨{ d with
      archd := { d.archd with records := r.1 }, clients := clients,
      clientCount := d.clientCount + 1 }, leaks, by dsimp only; rw [hput]; rfl,
      ⟨⟨_, hstores'⟩, ?_, hcap⟩, fun _ => rfl⟩
    unfold Daemon.holdings
    dsimp only
    refine hclone.perm ((List.Perm.append_right _ (holdingsOf_perm hperm)).symm.trans ?_).symm
    refine List.perm_iff_count.mpr fun id => ?_
    simp only [Daemon.holdings, holdingsOf, ClientContext.holdings, List.flatMap_append,
      List.flatMap_cons, List.flatMap_nil, List.count_append, Option.toList_none, List.count_nil]
    omega

/-- An event keeps the counts, and a clean one loses nothing. -/
lemma Daemon.Sound.step {d : Daemon n} (h : d.Sound plat leaks) {event : DaemonEvent n}
    (hplaced : d.status = .running → event.Placed plat d)
    (htimely : d.status = .running → event.Timely d) :
    ∃ d' leaks', d.step plat event = .ok d' ∧ d'.Sound plat leaks' ∧
      ((d.status = .running → event.Clean d) → leaks' = leaks) := by
  unfold Daemon.step
  split_ifs with hrunning
  · obtain ⟨hretired, hsocket⟩ := hplaced hrunning
    have htime := htimely hrunning
    cases event with
    | frame s env offer r =>
      obtain ⟨hrecord, htelemetry, hclients⟩ := htime
      dsimp only
      cases hqueues : queuesFrame { s with archd := d.archd } r with
      | false =>
        have hpass : (DaemonEvent.frame s env offer r).pass d = none := by
          simp [DaemonEvent.pass, hqueues]
        obtain ⟨leaks', hsound⟩ := h.receive_lost s env hqueues
        rw [hpass]
        refine ⟨_, leaks', rfl, hsound, fun hclean => ?_⟩
        have hrecord : queuesFrame { s with archd := d.archd } r = true :=
          (hclean hrunning).completes
        rw [hqueues] at hrecord
        cases hrecord
      | true =>
        obtain ⟨hsound, hmem⟩ := h.receive s env hqueues hrecord htelemetry
        cases hpass : (DaemonEvent.frame s env offer r).pass d with
        | none => exact ⟨_, leaks, rfl, hsound, fun _ => rfl⟩
        | some p =>
          have halone := hretired p hpass
          have hp : p = (d.receive s env r, offerRecord offer d.archd.allocated) := by
            simp only [DaemonEvent.pass] at hpass
            split_ifs at hpass
            exact (Option.some.inj hpass).symm
          subst hp
          obtain ⟨d', leaks', hok, hsound', hleaks⟩ := hsound.enum
            (List.cons_subset.mpr ⟨hmem, List.nil_subset _⟩)
            (fun p hp => offerRecord_counts (List.mem_singleton_self _) (hclients p hp)) halone
          exact ⟨d', leaks', hok, hsound', fun hclean => hleaks ((hclean hrunning).retired _ hpass)⟩
    | archive env => exact ⟨_, leaks, rfl, h.archive env, fun _ => rfl⟩
    | timeout now env =>
      obtain ⟨d', leaks', hok, hsound, hleaks⟩ := h.enum (List.nil_subset _)
        (fun p _ => retireClient_counts now [] p.1 p.2) (hretired (d, retireClient now) rfl)
      refine ⟨_, leaks', by simp only [hok]; rfl, hsound.archive env, fun hclean => ?_⟩
      exact hleaks ((hclean hrunning).retired (d, retireClient now) rfl)
    | canSend fd env =>
      obtain ⟨d', hok, hsound⟩ := h.canSend fd env
      exact ⟨d', leaks, hok, hsound, fun _ => rfl⟩
    | connect env =>
      obtain ⟨d', leaks', hok, hsound, hleaks⟩ :=
        h.connect env htime hsocket
      exact ⟨d', leaks', hok, hsound, fun hclean => hleaks (hclean hrunning).completes⟩
  · exact ⟨d, leaks, rfl, h, fun _ => rfl⟩

lemma Daemon.Sound.run {events : List (DaemonEvent n)} {d : Daemon n} (h : d.Sound plat leaks)
    (hplaced : PlacedRun plat d events)
    (htimely : EachEvent plat (fun d event => event.Timely d) d events) :
    ∃ d' leaks', d.run plat events = .ok d' ∧ d'.Sound plat leaks' ∧
      (EachEvent plat (fun d event => event.Clean d) d events → leaks' = leaks) := by
  induction events generalizing d leaks with
  | nil => exact ⟨d, leaks, rfl, h, fun _ => rfl⟩
  | cons event events ih =>
    obtain ⟨d₁, leaks₁, hstep, hsound₁, hleaks₁⟩ := h.step hplaced.1 htimely.1
    obtain ⟨d', leaks', hrun, hsound, hleaks⟩ :=
      ih hsound₁ (hplaced.2 d₁ hstep) (htimely.2 d₁ hstep)
    refine ⟨d', leaks', by rw [Daemon.run, hstep, ok_bind, hrun], hsound, fun hclean => ?_⟩
    rw [hleaks (hclean.2 d₁ hstep), hleaks₁ hclean.1]

lemma initial_sound (plat : MapPlatform) (n : ℕ) (depth : ℤ) :
    (Daemon.initial n depth).Sound plat Leaks.none where
  stores := ⟨_, mapNew_stores plat (by decide)⟩
  counted := by
    have hempty : (Daemon.initial n depth).holdings = [] := rfl
    rw [hempty]
    exact ⟨fun id hid => absurd hid (Nat.not_lt_zero id),
      fun id hid => absurd hid (Nat.not_lt_zero id),
      fun id hid => absurd hid (Nat.not_lt_zero id), fun id hid => absurd hid List.not_mem_nil,
      fun _ _ => rfl⟩
  capacity := neg_one_lt_zero

/-- **Reference counts.** In every run of the daemon that keeps its client map, and in which no
queue gets two records at one reading of the clock, no record is freed that is held, and none
counts fewer references than holders: the record queue, the telemetry queue, the queues and
partial records of the clients, and the pending LOG message. Where in addition every frame is a
record, no client is retired in the middle of one, and every connection succeeds, each record
counts exactly its holders, and it is freed when nobody holds it. -/
theorem refCount_eq_holders (plat : MapPlatform) (depth : ℤ) (events : List (DaemonEvent n))
    (hplaced : PlacedRun plat (Daemon.initial n depth) events)
    (htimely : EachEvent plat (fun d event => event.Timely d) (Daemon.initial n depth) events) :
    ∃ d, (Daemon.initial n depth).run plat events = .ok d ∧
      (∀ id ∈ d.holdings, id < d.archd.allocated ∧ (d.archd.records id).freed = false ∧
        d.holdings.count id ≤ (d.archd.records id).refCount) ∧
      (EachEvent plat (fun d event => event.Clean d) (Daemon.initial n depth) events →
        ∀ id < d.archd.allocated,
          (d.archd.records id).refCount = d.holdings.count id ∧
            ((d.archd.records id).freed = true ↔ id ∉ d.holdings)) := by
  obtain ⟨d, leaks, hrun, ⟨-, hcounted, -⟩, hleaks⟩ :=
    (initial_sound plat n depth).run hplaced htimely
  refine ⟨d, hrun, fun id hid => ⟨hcounted.bound id hid, hcounted.not_freed hid, ?_⟩, ?_⟩
  · rw [hcounted.refCount id (hcounted.bound id hid)]
    exact Nat.le_add_right _ _
  · intro hclean id hid
    rw [hleaks hclean] at hcounted
    have hcount : (d.archd.records id).refCount = d.holdings.count id := hcounted.refCount id hid
    refine ⟨hcount, fun hfreed hmem => ?_, fun hnot => ?_⟩
    · rw [hcounted.not_freed hmem] at hfreed
      cases hfreed
    · rw [List.count_eq_zero_of_not_mem hnot] at hcount
      exact (hcounted.kept id hid hcount).resolve_right fun hfalse => hfalse

/-- A data source completes a frame, the first after its callback began. -/
def frameAt (sec : ℤ) (r : Record 512) : DaemonEvent 512 :=
  .frame (RecvState.start ArchdContext.initial ServerContext.connect)
    ⟨⟨⟨sec, 0⟩, ⟨sec, 0⟩, ⟨sec, 0⟩⟩, ⟨sec, 0⟩, .all⟩ (fun _ => ⟨⟨sec, 0⟩, ⟨sec, 0⟩⟩) r

def archiveAt (sec : ℤ) : DaemonEvent 512 := .archive fun _ => ⟨⟨sec, 0⟩, fun _ => 0⟩

/-- A client gets one record and part of another, and both are archived. -/
def servedRun : List (DaemonEvent 512) :=
  [connectAt 0 10, frameAt 1 (logRecord 0 10), frameAt 2 (logRecord 0 20),
    .canSend 10 fun i => ⟨if i = 0 then .all else .short 100, ⟨3, 0⟩⟩, archiveAt 4]

theorem refCount_eq_holders_served :
    ∃ d, (Daemon.initial 512 10).run hostMap servedRun = .ok d ∧
      ∀ id < d.archd.allocated, (d.archd.records id).refCount = d.holdings.count id ∧
        ((d.archd.records id).freed = true ↔ id ∉ d.holdings) := by
  obtain ⟨d, hrun, -, hclean⟩ := refCount_eq_holders hostMap 10 servedRun (by decide +kernel)
    (by decide +kernel)
  exact ⟨d, hrun, hclean (by decide +kernel)⟩

/-- The holders without the telemetry queue of the daemon. -/
def Daemon.holdingsBesideTelemetry (d : Daemon n) : List ℕ :=
  holdingsOf d.clients.entries ++ (d.archd.recordQueue.fifo ++ d.archd.logMessage.toList)

/-- With telemetry a record that only waits for the archive counts two holders, the second of
them the telemetry queue. -/
theorem refCount_counts_telemetry_queue :
    ((Daemon.initial 512 10).run hostMap [frameAt 1 (logRecord 0 10)]).toOption.map
      (fun d => ((d.archd.records 0).refCount, d.holdingsBesideTelemetry.count 0))
      = some (2, 1) := by
  decide +kernel

end StationProcessor
