import StationProcessor.Archd.Archive

/-!
# The telemetry stream of a client

`callback_client_can_send`, `add_client_record` and `retire_old_client` of `archd/archd.c` for one
client, between the callbacks that receive and archive records. The bytes a client gets should be
whole records in the order in which they left its queue.
-/

namespace StationProcessor

variable {n : ℕ}

/-! ### The callbacks -/

/-- `CLIENT_FULL_TIMEOUT`, `CLIENT_PARTIAL_TIMEOUT` and `CLIENT_EMPTY_TIMEOUT`. -/
def clientFullTimeout : ℤ := 15 * 1000000
def clientPartialTimeout : ℤ := 60 * 1000000
def clientEmptyTimeout : ℤ := 300 * 1000000

/-- `retire_old_client`: whether the client has not read for too long. -/
def retireOldClient (now : Timeval) (client : ClientContext) : Bool :=
  let delay := now.micro - client.lastWrite.micro
  delay ≥ clientEmptyTimeout
    ∨ delay ≥ clientPartialTimeout ∧ !prioqueueEmpty client.telemetryQueue
    ∨ delay ≥ clientFullTimeout ∧ prioqueueFull client.telemetryQueue

/-- The clock while a record is offered to a client. -/
structure OfferEnv where
  queueNow : Timeval
  retireNow : Timeval

/-- What one `send` of a client meets: its result, and the clock after it. -/
structure ClientEnv where
  send : SendResult
  now : Timeval

/-- A client beside the daemon, with what it was sent: the records that left its queue, those of
them that went out completely as they were then, and the bytes that `send` took. -/
structure Telemetry (n : ℕ) where
  archd : ArchdContext n
  client : ClientContext
  status : Status
  popped : List ℕ
  done : List (ℕ × Record n)
  wire : Bytes

/-- A client that has just connected, with a copy of the telemetry queue. -/
def Telemetry.connect (archd : ArchdContext n) (now : Timeval) (queue : Queue ℕ) : Telemetry n :=
  ⟨archd, ⟨now, none, 0, 0, queue⟩, .running, [], [], []⟩

/-- `callback_client_closed`: the records of the queue are dropped, the partial one is not. -/
def Telemetry.close (s : Telemetry n) : Telemetry n :=
  { s with
    archd := { s.archd with
      records := s.client.telemetryQueue.fifo.foldl recordDeallocate s.archd.records }
    status := .closed }

/-- `add_client_record`. -/
def addClientRecord (env : OfferEnv) (s : Telemetry n) (id : ℕ) : Telemetry n :=
  let (records, queue) := queueRecord s.archd.records s.client.telemetryQueue env.queueNow id
  let s :=
    { s with
      archd := { s.archd with records := records }
      client := { s.client with telemetryQueue := queue } }
  if retireOldClient env.retireNow s.client then s.close else s

/-- The record the loop goes on with and how much of it was sent: the partial one, or the next
of the queue. -/
def Telemetry.next (s : Telemetry n) : Option (ℕ × ℕ × Telemetry n) :=
  match s.client.partialRecord with
  | some id =>
    some (id, s.client.offset,
      { s with client := { s.client with partialRecord := none, offset := 0 } })
  | none =>
    match prioqueuePopHigh s.client.telemetryQueue with
    | none => none
    | some (id, queue) =>
      some (id, 0, { s with
        client := { s.client with telemetryQueue := queue }, popped := s.popped ++ [id] })

/-- A record of which the rest did not go out becomes the partial one. -/
def Telemetry.interrupt (s : Telemetry n) (env : ClientEnv) (id offset : ℕ) (sent : Bytes) :
    Telemetry n :=
  { s with
    client := { s.client with
      partialRecord := some id
      offset := offset + sent.length
      lastWrite := if sent.length > 0 then env.now else s.client.lastWrite }
    wire := s.wire ++ sent }

/-- A record that was sent is dropped. -/
def Telemetry.finish (s : Telemetry n) (env : ClientEnv) (id : ℕ) (sent : Bytes) : Telemetry n :=
  { s with
    archd := { s.archd with records := recordDeallocate s.archd.records id }
    client := { s.client with sent := s.client.sent + 1, lastWrite := env.now }
    done := s.done ++ [(id, (s.archd.records id).data)]
    wire := s.wire ++ sent }

/-- The loop of `callback_client_can_send`. -/
def clientSendLoop : ℕ → (ℕ → ClientEnv) → Telemetry n → Telemetry n
  | 0, _, s => s
  | fuel + 1, env, s =>
    match s.next with
    | none => s
    | some (id, offset, s) =>
      let message := (s.archd.records id).data.toList.drop offset
      if sentLess ((env 0).send.bytesSent message) message.length then
        match (env 0).send with
        | .error errno =>
          match errno.status with
          | .closed => s.close
          | status => { s with status := status }
        | r => s.interrupt (env 0) id offset (r.accepted message)
      else
        clientSendLoop fuel (fun i => env (i + 1))
          (s.finish (env 0) id ((env 0).send.accepted message))

/-- `callback_client_can_send`. Each round but one takes a record from the queue. -/
def callbackClientCanSend (env : ℕ → ClientEnv) (s : Telemetry n) : Telemetry n :=
  clientSendLoop (s.client.telemetryQueue.tree.elements.length + 1) env s

/-! ### Runs -/

/-- What happens around a client: a data source delivers a record, `callback_archive` runs, the
timer expires, or the client can be sent to. -/
inductive TelemetryEvent (n : ℕ)
  | receive (env : AcceptEnv) (offer : OfferEnv) (frame : Record n)
  | archive (env : ℕ → ArchiveEnv)
  | timeout (now : Timeval) (env : ℕ → ArchiveEnv)
  | canSend (env : ℕ → ClientEnv)

/-- A record is received and, with telemetry on, offered to the client. -/
def Telemetry.receive (s : Telemetry n) (env : AcceptEnv) (offer : OfferEnv) (frame : Record n) :
    Telemetry n :=
  let archd := (s.archd.allocate frame).accept env s.archd.allocated
  if archd.telemetryDepth > 0 then
    addClientRecord offer { s with archd := archd } s.archd.allocated
  else { s with archd := archd }

def Telemetry.archive (s : Telemetry n) (env : ℕ → ArchiveEnv) : Telemetry n :=
  { s with archd := (callbackArchive env s.archd).1 }

/-- A callback, until the connection is closed. What `callback_archive` does after the timer
callback has closed the connection is not seen by the client. -/
def Telemetry.step (s : Telemetry n) (event : TelemetryEvent n) : Telemetry n :=
  if s.status = .running then
    match event with
    | .receive env offer frame => s.receive env offer frame
    | .archive env => s.archive env
    | .timeout now env =>
      if retireOldClient now s.client then s.close else s.archive env
    | .canSend env => callbackClientCanSend env s
  else s

def Telemetry.run (s : Telemetry n) (events : List (TelemetryEvent n)) : Telemetry n :=
  events.foldl Telemetry.step s

/-! ### The invariant -/

/-- The bytes of the partial record that are out. -/
def Telemetry.inFlight (s : Telemetry n) : Bytes :=
  match s.client.partialRecord with
  | none => []
  | some id => (s.archd.records id).data.toList.take s.client.offset

/-- The client was sent whole records and the start of the partial one, which are the records
that left its queue, in that order. -/
structure Aligned (s : Telemetry n) : Prop where
  wire : s.wire = (s.done.map fun d => d.2.toList).flatten ++ s.inFlight
  popped : s.popped = s.done.map Prod.fst ++ s.client.partialRecord.toList

/-- The client holds only records that exist. -/
structure HoldsAllocated (s : Telemetry n) : Prop where
  queue : ∀ id ∈ s.client.telemetryQueue.fifo, id < s.archd.allocated
  partialRecord : ∀ id, s.client.partialRecord = some id → id < s.archd.allocated

/-- Combining into the record a client is receiving leaves the bytes that are out. -/
def LeavesSent (client : ClientContext) (env : ArchiveEnv) (archd : ArchdContext n) (id : ℕ) :
    Prop :=
  ∀ log ∈ archd.logMessage, client.partialRecord = some log →
    isLog (archd.records id).data = true →
      (combineSeed (archd.records log).data (archd.records id).data env.beyond).isSome = true →
        client.offset ≤ combineStart (archd.records log).data

/-- No `send` of a callback fails, and no LOG message is combined into the start of a record that
is already out. -/
inductive TelemetryEvent.Unbroken (s : Telemetry n) : TelemetryEvent n → Prop
  | receive (env : AcceptEnv) (offer : OfferEnv) (frame : Record n) :
      Unbroken s (.receive env offer frame)
  | archive {env : ℕ → ArchiveEnv} (each : EachArchived (LeavesSent s.client)
      s.archd.recordQueue.tree.elements.length env s.archd) : Unbroken s (.archive env)
  | timeout {now : Timeval} {env : ℕ → ArchiveEnv} (each : EachArchived (LeavesSent s.client)
      s.archd.recordQueue.tree.elements.length env s.archd) : Unbroken s (.timeout now env)
  | canSend {env : ℕ → ClientEnv} (each : ∀ i errno, (env i).send ≠ .error errno) :
      Unbroken s (.canSend env)

/-- Every callback of a run does so. -/
def UnbrokenRun (s : Telemetry n) : List (TelemetryEvent n) → Prop
  | [] => True
  | event :: events => (s.status = .running → event.Unbroken s) ∧
      UnbrokenRun (s.step event) events

/-! ### Receiving and archiving -/

/-- What a step may change without touching what a client was sent. -/
structure KeepsSent (s s' : Telemetry n) : Prop where
  wire : s'.wire = s.wire
  done : s'.done = s.done
  popped : s'.popped = s.popped
  partialRecord : s'.client.partialRecord = s.client.partialRecord
  offset : s'.client.offset = s.client.offset
  allocated : s.archd.allocated ≤ s'.archd.allocated
  queue : ∀ id ∈ s'.client.telemetryQueue.fifo, id < s'.archd.allocated
  inFlight : ∀ id, s.client.partialRecord = some id →
    (s'.archd.records id).data.toList.take s.client.offset
      = (s.archd.records id).data.toList.take s.client.offset

lemma KeepsSent.aligned {s s' : Telemetry n} (h : KeepsSent s s') (hs : Aligned s) :
    Aligned s' where
  wire := by
    have hflight : s'.inFlight = s.inFlight := by
      unfold Telemetry.inFlight
      rw [h.partialRecord, h.offset]
      cases hp : s.client.partialRecord with
      | none => rfl
      | some id => exact h.inFlight id hp
    rw [h.wire, h.done, hflight, hs.wire]
  popped := by rw [h.popped, h.done, h.partialRecord, hs.popped]

lemma KeepsSent.holdsAllocated {s s' : Telemetry n} (h : KeepsSent s s')
    (hs : HoldsAllocated s) : HoldsAllocated s' where
  queue := h.queue
  partialRecord id hid := by
    rw [h.partialRecord] at hid
    exact (hs.partialRecord id hid).trans_le h.allocated

lemma close_keepsSent {s : Telemetry n} (hs : HoldsAllocated s) : KeepsSent s s.close where
  wire := rfl
  done := rfl
  popped := rfl
  partialRecord := rfl
  offset := rfl
  allocated := le_rfl
  queue := hs.queue
  inFlight id _ := by
    show ((s.client.telemetryQueue.fifo.foldl recordDeallocate s.archd.records id).data).toList.take
      s.client.offset = _
    rw [foldl_recordDeallocate_data]

/-- Offering a new record to a client leaves what it was sent. -/
lemma addClientRecord_keepsSent {s : Telemetry n} (hs : HoldsAllocated s) (env : OfferEnv) {id : ℕ}
    (hid : id < s.archd.allocated) : KeepsSent s (addClientRecord env s id) := by
  have hqueue : ∀ x ∈ (queueRecord s.archd.records s.client.telemetryQueue env.queueNow id).2.fifo,
      x < s.archd.allocated := by
    intro x hx
    rcases mem_fifo_queueRecord hx with rfl | hx
    · exact hid
    · exact hs.queue x hx
  have hdata : ∀ i, ((queueRecord s.archd.records s.client.telemetryQueue env.queueNow id).1 i).data
      = (s.archd.records i).data := fun i => queueRecord_data _ _ _ _ i
  unfold addClientRecord
  dsimp only
  split_ifs
  · refine ⟨rfl, rfl, rfl, rfl, rfl, le_rfl, hqueue, fun i _ => ?_⟩
    simp only [Telemetry.close, foldl_recordDeallocate_data, hdata]
  · exact ⟨rfl, rfl, rfl, rfl, rfl, le_rfl, hqueue, fun i _ => by simp only [hdata]⟩

lemma receive_keepsSent {s : Telemetry n} (hs : HoldsAllocated s) (env : AcceptEnv)
    (offer : OfferEnv) (frame : Record n) : KeepsSent s (s.receive env offer frame) := by
  -- the new record gets an address that nobody holds
  have hdata : ∀ i < s.archd.allocated,
      (((s.archd.allocate frame).accept env s.archd.allocated).records i).data
        = (s.archd.records i).data := by
    intro i hi
    rw [ArchdContext.accept_data, allocate_old _ _ hi]
  have hnext : ((s.archd.allocate frame).accept env s.archd.allocated).allocated
      = s.archd.allocated + 1 := accept_allocated _ _ _
  have haccept : KeepsSent s
      { s with archd := (s.archd.allocate frame).accept env s.archd.allocated } := by
    refine ⟨rfl, rfl, rfl, rfl, rfl, ?_, ?_, ?_⟩
    · show s.archd.allocated ≤ _
      rw [hnext]
      exact Nat.le_succ _
    · intro id hid
      show id < _
      rw [hnext]
      exact (hs.queue id hid).trans (Nat.lt_succ_self _)
    · intro id hid
      exact congrArg (fun r : Record n => r.toList.take s.client.offset)
        (hdata id (hs.partialRecord id hid))
  unfold Telemetry.receive
  dsimp only
  split_ifs
  · have hlt : s.archd.allocated
        < ((s.archd.allocate frame).accept env s.archd.allocated).allocated := by
      rw [hnext]
      exact Nat.lt_succ_self _
    have hoffer := addClientRecord_keepsSent (haccept.holdsAllocated hs) offer hlt
    refine ⟨hoffer.wire, hoffer.done, hoffer.popped, hoffer.partialRecord, hoffer.offset,
      haccept.allocated.trans hoffer.allocated, hoffer.queue, fun id hid => ?_⟩
    exact (hoffer.inFlight id hid).trans (haccept.inFlight id hid)
  · exact haccept

/-- Archiving leaves the bytes of the partial record that are out. -/
lemma archiveLoop_keeps {client : ClientContext} {fuel : ℕ} {env : ℕ → ArchiveEnv}
    {archd : ArchdContext n} (h : EachArchived (LeavesSent client) fuel env archd) :
    (archiveLoop fuel env archd).1.allocated = archd.allocated ∧
      ∀ id, client.partialRecord = some id →
        ((archiveLoop fuel env archd).1.records id).data.toList.take client.offset
          = (archd.records id).data.toList.take client.offset := by
  induction fuel generalizing env archd with
  | zero => exact ⟨rfl, fun _ _ => rfl⟩
  | succ fuel ih =>
    unfold EachArchived at h
    unfold archiveLoop
    split
    · exact ⟨rfl, fun _ _ => rfl⟩
    next popped recordQueue hpop =>
      rw [hpop] at h
      obtain ⟨hleaves, hrest⟩ := h
      obtain ⟨hallocated, hdata⟩ := ih hrest
      refine ⟨hallocated.trans (archiveRecord_allocated _ _ _), fun id hid => ?_⟩
      refine (hdata id hid).trans ?_
      rcases archiveRecord_data (env 0) { archd with recordQueue := recordQueue } popped id with
        hsame | ⟨hmessage, hlog, hcombine⟩
      · rw [hsame]
      · refine take_combineSeed hcombine (hleaves id hmessage hid hlog ?_)
        rw [hcombine]
        rfl

lemma archive_keepsSent {s : Telemetry n} (hs : HoldsAllocated s) {env : ℕ → ArchiveEnv}
    (h : EachArchived (LeavesSent s.client) s.archd.recordQueue.tree.elements.length env s.archd) :
    KeepsSent s (s.archive env) := by
  obtain ⟨hallocated, hdata⟩ := archiveLoop_keeps h
  exact ⟨rfl, rfl, rfl, rfl, rfl, hallocated.ge,
    fun id hid => (hs.queue id hid).trans_eq hallocated.symm, hdata⟩

/-! ### Sending -/

/-- A state of the send loop that goes on with the record `id`, of which `offset` bytes are out. -/
structure Continues (s : Telemetry n) (id offset : ℕ) : Prop where
  wire : s.wire = (s.done.map fun d => d.2.toList).flatten
    ++ (s.archd.records id).data.toList.take offset
  popped : s.popped = s.done.map Prod.fst ++ [id]
  partialRecord : s.client.partialRecord = none
  allocated : id < s.archd.allocated
  queue : ∀ id ∈ s.client.telemetryQueue.fifo, id < s.archd.allocated

lemma next_continues {s s' : Telemetry n} {id offset : ℕ} (h : s.next = some (id, offset, s'))
    (hs : Aligned s) (ha : HoldsAllocated s) : Continues s' id offset := by
  obtain ⟨hwire, hpopped⟩ := hs
  unfold Telemetry.inFlight at hwire
  unfold Telemetry.next at h
  cases hheld : s.client.partialRecord with
  | some id' =>
    rw [hheld] at h hwire hpopped
    obtain ⟨rfl, rfl, rfl⟩ : id' = id ∧ s.client.offset = offset ∧ _ = s' := by
      simpa using h
    exact ⟨hwire, hpopped, rfl, ha.partialRecord _ hheld, ha.queue⟩
  | none =>
    rw [hheld] at h hwire hpopped
    dsimp only at h
    cases hpop : prioqueuePopHigh s.client.telemetryQueue with
    | none =>
      rw [hpop] at h
      cases h
    | some head =>
      obtain ⟨id', queue⟩ := head
      rw [hpop] at h
      obtain ⟨rfl, rfl, rfl⟩ : id' = id ∧ 0 = offset ∧ _ = s' := by simpa using h
      have hqueue : ∀ x ∈ id' :: queue.fifo, x < s.archd.allocated := by
        rw [← fifo_of_popHigh hpop]
        exact ha.queue
      refine ⟨?_, ?_, hheld, hqueue id' List.mem_cons_self, ?_⟩
      · rw [List.take_zero]
        exact hwire
      · show s.popped ++ [id'] = s.done.map Prod.fst ++ [id']
        rw [hpopped, Option.toList_none, List.append_nil]
      · exact fun x hx => hqueue x (List.mem_cons_of_mem id' hx)

/-- Without a partial record nothing is in flight. -/
lemma aligned_of_partialRecord_none {s : Telemetry n} (hheld : s.client.partialRecord = none)
    (hwire : s.wire = (s.done.map fun d => d.2.toList).flatten)
    (hpopped : s.popped = s.done.map Prod.fst) : Aligned s where
  wire := by
    unfold Telemetry.inFlight
    rw [hheld, hwire, List.append_nil]
  popped := by rw [hheld, hpopped, Option.toList_none, List.append_nil]

/-- A record whose rest went out is complete. -/
lemma Continues.finish {s : Telemetry n} {id offset : ℕ} (h : Continues s id offset)
    (env : ClientEnv) : Aligned (s.finish env id ((s.archd.records id).data.toList.drop offset)) ∧
      HoldsAllocated (s.finish env id ((s.archd.records id).data.toList.drop offset)) := by
  refine ⟨aligned_of_partialRecord_none h.partialRecord ?_ ?_, h.queue, fun x hx => ?_⟩
  · show s.wire ++ _ = (List.map _ (s.done ++ [(id, (s.archd.records id).data)])).flatten
    rw [h.wire, List.append_assoc, List.take_append_drop, List.map_append, List.flatten_append]
    simp
  · show s.popped = List.map Prod.fst (s.done ++ [(id, (s.archd.records id).data)])
    rw [h.popped, List.map_append, List.map_singleton]
  · rw [show (s.finish env id _).client.partialRecord = none from h.partialRecord] at hx
    cases hx

/-- A record of which some more bytes went out becomes the partial one. -/
lemma Continues.interrupt {s : Telemetry n} {id offset : ℕ} (h : Continues s id offset)
    (env : ClientEnv) (k : ℕ) :
    Aligned (s.interrupt env id offset (((s.archd.records id).data.toList.drop offset).take k)) ∧
      HoldsAllocated
        (s.interrupt env id offset (((s.archd.records id).data.toList.drop offset).take k)) := by
  refine ⟨⟨?_, h.popped⟩, h.queue, fun x hx => ?_⟩
  · show s.wire ++ _ = _ ++ (s.archd.records id).data.toList.take (offset + _)
    rw [h.wire, List.append_assoc, List.take_add]
    congr 2
    rw [List.length_take, ← List.take_eq_take_min]
  · rw [← Option.some.inj hx]
    exact h.allocated

/-- The rounds of the send loop send whole records in turn. -/
lemma clientSendLoop_aligned {env : ℕ → ClientEnv} (hsend : ∀ i errno, (env i).send ≠ .error errno)
    (fuel : ℕ) {s : Telemetry n} (hs : Aligned s) (ha : HoldsAllocated s) :
    Aligned (clientSendLoop fuel env s) ∧ HoldsAllocated (clientSendLoop fuel env s) := by
  induction fuel generalizing env s with
  | zero => exact ⟨hs, ha⟩
  | succ fuel ih =>
    unfold clientSendLoop
    split
    · exact ⟨hs, ha⟩
    next id offset s' hnext =>
      have hcontinues := next_continues hnext hs ha
      obtain ⟨hfinish, hafinish⟩ := hcontinues.finish (env 0)
      dsimp only
      cases hr : (env 0).send with
      | error errno => exact absurd hr (hsend 0 errno)
      | all =>
        rw [sentLess_all, if_neg Bool.false_ne_true]
        exact ih (fun i => hsend (i + 1)) hfinish hafinish
      | short k =>
        cases hless : sentLess ((SendResult.short k).bytesSent
            ((s'.archd.records id).data.toList.drop offset))
            ((s'.archd.records id).data.toList.drop offset).length with
        | false =>
          have haccepted : (SendResult.short k).accepted
              ((s'.archd.records id).data.toList.drop offset)
              = (s'.archd.records id).data.toList.drop offset := by
            rw [eq_nil_of_short hless, SendResult.accepted, List.take_nil]
          rw [if_neg Bool.false_ne_true, haccepted]
          exact ih (fun i => hsend (i + 1)) hfinish hafinish
        | true =>
          rw [if_pos rfl]
          exact hcontinues.interrupt (env 0) _

/-! ### The stream -/

lemma Aligned.step {s : Telemetry n} (hs : Aligned s) (ha : HoldsAllocated s)
    {event : TelemetryEvent n} (h : s.status = .running → event.Unbroken s) :
    Aligned (s.step event) ∧ HoldsAllocated (s.step event) := by
  unfold Telemetry.step
  split_ifs with hrunning
  · cases h hrunning with
    | receive env offer frame =>
      have hkeeps := receive_keepsSent ha env offer frame
      exact ⟨hkeeps.aligned hs, hkeeps.holdsAllocated ha⟩
    | archive each =>
      have hkeeps := archive_keepsSent ha each
      exact ⟨hkeeps.aligned hs, hkeeps.holdsAllocated ha⟩
    | timeout each =>
      dsimp only
      split_ifs
      · have hkeeps := close_keepsSent ha
        exact ⟨hkeeps.aligned hs, hkeeps.holdsAllocated ha⟩
      · have hkeeps := archive_keepsSent ha each
        exact ⟨hkeeps.aligned hs, hkeeps.holdsAllocated ha⟩
    | canSend each => exact clientSendLoop_aligned each _ hs ha
  · exact ⟨hs, ha⟩

/-- The records that left the queue: the finished ones as they went out, and the partial one. -/
def Telemetry.taken (s : Telemetry n) : List (ℕ × Record n) :=
  s.done ++ (s.client.partialRecord.map fun id => (id, (s.archd.records id).data)).toList

lemma Aligned.prefix_taken {s : Telemetry n} (h : Aligned s) :
    s.popped = s.taken.map Prod.fst ∧ s.wire <+: (s.taken.map fun d => d.2.toList).flatten := by
  obtain ⟨hwire, hpopped⟩ := h
  unfold Telemetry.inFlight at hwire
  unfold Telemetry.taken
  rw [hpopped, hwire]
  cases s.client.partialRecord with
  | none => simp
  | some id =>
    simp only [Option.map_some, Option.toList_some, List.map_append, List.flatten_append,
      List.map_singleton, List.flatten_singleton]
    exact ⟨trivial, (List.prefix_append_right_inj _).mpr (List.take_prefix _ _)⟩

/-- **Telemetry stream.** In every run without a failing `send` and without a change to bytes that
are out, a client was sent a prefix of the records that left its queue, in that order: each of
them whole, and of the last one a first part if it is not finished. -/
theorem telemetry_aligned {archd : ArchdContext n} {queue : Queue ℕ}
    (hqueue : ∀ id ∈ queue.fifo, id < archd.allocated) (now : Timeval)
    (events : List (TelemetryEvent n))
    (h : UnbrokenRun (Telemetry.connect archd now queue) events) :
    Aligned ((Telemetry.connect archd now queue).run events) ∧
      ((Telemetry.connect archd now queue).run events).popped
        = ((Telemetry.connect archd now queue).run events).taken.map Prod.fst ∧
      ((Telemetry.connect archd now queue).run events).wire
        <+: (((Telemetry.connect archd now queue).run events).taken.map
          fun d => d.2.toList).flatten := by
  have hrun : ∀ (events : List (TelemetryEvent n)) (s : Telemetry n), Aligned s →
      HoldsAllocated s → UnbrokenRun s events → Aligned (s.run events) := by
    intro events
    induction events with
    | nil => exact fun s hs _ _ => hs
    | cons event events ih =>
      intro s hs ha hunbroken
      obtain ⟨hs', ha'⟩ := hs.step ha hunbroken.1
      exact ih (s.step event) hs' ha' hunbroken.2
  have haligned := hrun events (Telemetry.connect archd now queue) ⟨rfl, rfl⟩
    ⟨hqueue, fun id hid => by cases hid⟩ h
  exact ⟨haligned, haligned.prefix_taken⟩

/-- A daemon with telemetry, and a client that has just connected. -/
def sampleTelemetry : Telemetry 512 :=
  Telemetry.connect { ArchdContext.initial with telemetryDepth := 10 } ⟨0, 0⟩ (prioqueueInit 10)

/-- A record received at a time in seconds. -/
def receiveAt (sec : ℤ) (frame : Record 512) : TelemetryEvent 512 :=
  .receive ⟨⟨sec, 0⟩, ⟨sec, 0⟩, ⟨sec, 0⟩⟩ ⟨⟨sec, 0⟩, ⟨sec, 0⟩⟩ frame

/-- Two records, the first of which goes out in two parts. -/
def twoParts : List (TelemetryEvent 512) :=
  [receiveAt 1 (logRecord 0 10), receiveAt 2 (logRecord 0 20),
    .canSend fun _ => ⟨.short 100, ⟨3, 0⟩⟩, .canSend fun _ => ⟨.all, ⟨4, 0⟩⟩]

lemma twoParts_unbroken : UnbrokenRun sampleTelemetry twoParts :=
  ⟨fun _ => .receive _ _ _, fun _ => .receive _ _ _, fun _ => .canSend fun _ _ => by simp,
    fun _ => .canSend fun _ _ => by simp, trivial⟩

theorem telemetry_aligned_twoParts :
    Aligned (sampleTelemetry.run twoParts) ∧
      (sampleTelemetry.run twoParts).popped
        = (sampleTelemetry.run twoParts).taken.map Prod.fst ∧
      (sampleTelemetry.run twoParts).wire
        <+: ((sampleTelemetry.run twoParts).taken.map fun d => d.2.toList).flatten :=
  telemetry_aligned (fun id hid => by cases hid) ⟨0, 0⟩ twoParts twoParts_unbroken

/-- A LOG message that goes out in two parts, with a second one combined into it between them. -/
def mixedMessage : Telemetry 512 :=
  sampleTelemetry.run [receiveAt 1 (messageFrame [65]), .archive fun _ => ⟨⟨2, 0⟩, fun _ => 0⟩,
    .canSend fun _ => ⟨.short 50, ⟨3, 0⟩⟩, receiveAt 4 (messageFrame [66]),
    .archive fun _ => ⟨⟨5, 0⟩, fun _ => 0⟩,
    .canSend fun i => ⟨if i = 0 then .all else .short 0, ⟨6, 0⟩⟩]

/-- The length and the text at the start of a record. -/
def lengthAndText (bs : Bytes) : Bytes × Bytes := ((bs.drop 30).take 2, (bs.drop 56).take 2)

/-- A record that `send` refuses is skipped; and of the mixed message the client gets the text of
both with the length of the first, which the record never was. -/
theorem telemetry_broken :
    (sampleTelemetry.run [receiveAt 1 (logRecord 0 10), receiveAt 2 (logRecord 0 20),
        .canSend fun i => ⟨if i = 0 then .error .eagain else .all, ⟨3, 0⟩⟩]).popped = [0, 1] ∧
      (sampleTelemetry.run [receiveAt 1 (logRecord 0 10), receiveAt 2 (logRecord 0 20),
        .canSend fun i => ⟨if i = 0 then .error .eagain else .all, ⟨3, 0⟩⟩]).wire
        = (logRecord 0 20).toList ∧
      lengthAndText mixedMessage.wire = ([0, 1], [65, 66]) ∧
      lengthAndText (messageFrame [65]).toList = ([0, 1], [65, 0]) ∧
      lengthAndText (mixedMessage.archd.records 0).data.toList = ([0, 2], [65, 66]) := by
  decide +kernel

end StationProcessor
