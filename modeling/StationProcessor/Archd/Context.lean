import StationProcessor.Archd.Queue
import StationProcessor.Archd.ChannelControl

/-!
# The state of archd

The contexts of `include/archd.h`, the records they share, and the results of the socket calls.
Records live in a memory of their own and the queues hold their addresses, because a record is in
several queues at once and `callback_archive` changes records in place. Allocations succeed, and
an address is not used again.
-/

namespace StationProcessor

variable {n : ℕ}

/-! ### Socket calls -/

/-- The error numbers the callbacks tell apart. -/
inductive Errno
  | eopnotsupp | ebadf | econnreset | edestaddrreq | efault | emsgsize | enotconn | enotsock
  | epipe | eagain | eintr | enobufs | enomem | other
deriving DecidableEq

/-- How a callback ends: it returns, it closes its connection, or the process exits. -/
inductive Status
  | running | closed | exited
deriving DecidableEq

/-- The `switch (errno)` after a failed call. -/
def Errno.status : Errno → Status
  | .eopnotsupp => .exited
  | .ebadf | .econnreset | .edestaddrreq | .efault | .emsgsize | .enotconn | .enotsock
  | .epipe => .closed
  | .eagain | .eintr | .enobufs | .enomem | .other => .running

/-- What `send` does with a message: take all of it, take fewer bytes, or fail. -/
inductive SendResult
  | all
  | short (k : ℕ)
  | error (errno : Errno)
deriving DecidableEq

/-- The bytes of a message that go out. -/
def SendResult.accepted (r : SendResult) (message : Bytes) : Bytes :=
  match r with
  | .all => message
  | .short k => message.take (min k (message.length - 1))
  | .error _ => []

/-- The return value of `send`. -/
def SendResult.bytesSent (r : SendResult) (message : Bytes) : ℤ :=
  match r with
  | .error _ => -1
  | r => (r.accepted message).length

/-- `bytes_sent < length` for a `ssize_t` and a `size_t`: the count is converted, so that `-1`
becomes the largest `size_t` and is less than no length of an object. -/
def sentLess (bytesSent : ℤ) (length : ℕ) : Bool := 0 ≤ bytesSent ∧ bytesSent < length

/-- The conversion on a machine whose `size_t` has `w` bits. -/
lemma sentLess_iff {bytesSent : ℤ} {length w : ℕ} (hlow : -1 ≤ bytesSent)
    (hhigh : bytesSent ≤ length) (hw : length < 2 ^ w) :
    sentLess bytesSent length = true ↔ bytesSent % (2 ^ w : ℕ) < length := by
  unfold sentLess
  rw [decide_eq_true_iff]
  generalize 2 ^ w = size at hw
  rcases hlow.lt_or_eq with h | rfl
  · rw [Int.emod_eq_of_lt (by omega) (by omega)]
    omega
  · have hmod : (-1 : ℤ) % (size : ℕ) = size - 1 := by
      rw [← Int.add_emod_right (-1) (size : ℕ), Int.emod_eq_of_lt (by omega) (by omega)]
      omega
    rw [hmod]
    omega

@[simp] lemma sentLess_all (message : Bytes) :
    sentLess (SendResult.all.bytesSent message) message.length = false := by
  simp [sentLess, SendResult.bytesSent, SendResult.accepted]

@[simp] lemma sentLess_error (e : Errno) (message : Bytes) :
    sentLess ((SendResult.error e).bytesSent message) message.length = false := by
  simp [sentLess, SendResult.bytesSent]

lemma sentLess_short {message : Bytes} (h : message ≠ []) (k : ℕ) :
    sentLess ((SendResult.short k).bytesSent message) message.length = true := by
  have := List.length_pos_iff.mpr h
  simp only [sentLess, SendResult.bytesSent, SendResult.accepted, List.length_take,
    decide_eq_true_iff]
  omega

/-- A message that a short `send` is not less than is empty. -/
lemma eq_nil_of_short {message : Bytes} {k : ℕ}
    (h : sentLess ((SendResult.short k).bytesSent message) message.length = false) :
    message = [] := by
  by_contra hne
  rw [sentLess_short hne] at h
  cases h

/-! ### Records -/

/-- `data_record_t`; `freed` once the last holder dropped it. -/
structure DataRecord (n : ℕ) where
  receiveTime : Timeval
  data : Record n
  priority : ℤ
  refCount : ℕ
  freed : Bool

/-- The records by their address. -/
abbrev Memory (n : ℕ) := ℕ → DataRecord n

/-- `record_duplicate`. -/
def recordDuplicate (records : Memory n) (id : ℕ) : Memory n :=
  Function.update records id { records id with refCount := (records id).refCount + 1 }

/-- `record_deallocate`. -/
def recordDeallocate (records : Memory n) (id : ℕ) : Memory n :=
  if (records id).refCount > 0 then
    Function.update records id
      { records id with
        refCount := (records id).refCount - 1
        freed := (records id).refCount = 1 }
  else records

@[simp] lemma recordDuplicate_data (records : Memory n) (id i : ℕ) :
    (recordDuplicate records id i).data = (records i).data := by
  unfold recordDuplicate
  rcases eq_or_ne i id with rfl | h
  · rw [Function.update_self]
  · rw [Function.update_of_ne h]

@[simp] lemma recordDeallocate_data (records : Memory n) (id i : ℕ) :
    (recordDeallocate records id i).data = (records i).data := by
  unfold recordDeallocate
  split_ifs
  · rcases eq_or_ne i id with rfl | h
    · rw [Function.update_self]
    · rw [Function.update_of_ne h]
  · rfl

@[simp] lemma recordDeallocate_receiveTime (records : Memory n) (id i : ℕ) :
    (recordDeallocate records id i).receiveTime = (records i).receiveTime := by
  unfold recordDeallocate
  split_ifs
  · rcases eq_or_ne i id with rfl | h
    · rw [Function.update_self]
    · rw [Function.update_of_ne h]
  · rfl

/-- `prioqueue_add` on a queue of records, whose callbacks count the holders. -/
def queueRecord (records : Memory n) (queue : Queue ℕ) (now : Timeval) (id : ℕ) :
    Memory n × Queue ℕ :=
  let (queue', dropped) := prioqueueAdd queue now id (records id).priority
  if queue.capacity = 0 then (records, queue)
  else (recordDuplicate (dropped.foldl recordDeallocate records) id, queue')

@[simp] lemma foldl_recordDeallocate_data (records : Memory n) (ids : List ℕ) (i : ℕ) :
    (ids.foldl recordDeallocate records i).data = (records i).data := by
  induction ids generalizing records with
  | nil => rfl
  | cons id ids ih => rw [List.foldl_cons, ih, recordDeallocate_data]

@[simp] lemma queueRecord_data (records : Memory n) (queue : Queue ℕ) (now : Timeval)
    (id i : ℕ) : ((queueRecord records queue now id).1 i).data = (records i).data := by
  unfold queueRecord
  dsimp only
  split_ifs
  · rfl
  · rw [recordDuplicate_data, foldl_recordDeallocate_data]

lemma queueRecord_queue (records : Memory n) {queue : Queue ℕ} (h : queue.capacity ≠ 0)
    (now : Timeval) (id : ℕ) : (queueRecord records queue now id).2
      = (prioqueueAdd queue now id (records id).priority).1 := by
  unfold queueRecord
  dsimp only
  rw [if_neg h]

/-- Adding brings nothing but the new record into a queue. -/
lemma mem_fifo_queueRecord {records : Memory n} {queue : Queue ℕ} {now : Timeval} {id x : ℕ}
    (h : x ∈ (queueRecord records queue now id).2.fifo) : x = id ∨ x ∈ queue.fifo := by
  unfold queueRecord at h
  dsimp only at h
  split_ifs at h
  · exact Or.inr h
  · exact mem_fifo_prioqueueAdd h

/-- A record that begins with these bytes. -/
def frameOf (bs : Bytes) : Record 512 := List.Vector.ofFn fun i => bs.getD i 0

/-! ### The daemon -/

/-- `archd_context_t`, with the bypass maps of the disk loop library; `allocated` is the next
address a record gets. -/
structure ArchdContext (n : ℕ) where
  records : Memory n
  allocated : ℕ
  bypass : BypassMaps
  logMessage : Option ℕ
  recordQueue : Queue ℕ
  recordsReceived : ℤ
  recordsArchived : ℤ
  logRecordCount : ℤ
  telemetryQueue : Queue ℕ
  telemetryDepth : ℤ

/-- A daemon that has just started, without telemetry. -/
def ArchdContext.initial : ArchdContext n where
  records _ := ⟨⟨0, 0⟩, List.Vector.replicate n 0, 0, 0, false⟩
  allocated := 0
  bypass := BypassMaps.none
  logMessage := none
  recordQueue := prioqueueInit (-1)
  recordsReceived := 0
  recordsArchived := 0
  logRecordCount := 0
  telemetryQueue := prioqueueInit 0
  telemetryDepth := 0

/-- The records in the record queue in the order they will be archived. -/
def ArchdContext.queued (archd : ArchdContext n) : List (Record n) :=
  archd.recordQueue.fifo.map fun id => (archd.records id).data

/-- Clock readings while one record is taken over. -/
structure AcceptEnv where
  receiveTime : Timeval
  recordNow : Timeval
  telemetryNow : Timeval

/-- A new record for a complete frame. -/
def ArchdContext.allocate (archd : ArchdContext n) (frame : Record n) : ArchdContext n :=
  { archd with
    records := Function.update archd.records archd.allocated ⟨⟨0, 0⟩, frame, 0, 0, false⟩
    allocated := archd.allocated + 1 }

lemma allocate_new (archd : ArchdContext n) (frame : Record n) :
    (archd.allocate frame).records archd.allocated = ⟨⟨0, 0⟩, frame, 0, 0, false⟩ :=
  Function.update_self _ _ _

lemma allocate_old (archd : ArchdContext n) (frame : Record n) {i : ℕ}
    (hi : i < archd.allocated) : (archd.allocate frame).records i = archd.records i :=
  Function.update_of_ne hi.ne _ _

/-- The default branch of `callback_server_can_recv`: queue a record for the archive and for
telemetry. -/
def ArchdContext.accept (archd : ArchdContext n) (env : AcceptEnv) (id : ℕ) : ArchdContext n :=
  let records := Function.update archd.records id
    { archd.records id with receiveTime := env.receiveTime }
  let (records, recordQueue) := queueRecord records archd.recordQueue env.recordNow id
  let (records, telemetryQueue) :=
    if archd.telemetryDepth > 0 then
      queueRecord records archd.telemetryQueue env.telemetryNow id
    else (records, archd.telemetryQueue)
  { archd with
    records := records
    recordQueue := recordQueue
    telemetryQueue := telemetryQueue
    recordsReceived := archd.recordsReceived + 1 }

@[simp] lemma ArchdContext.accept_data (archd : ArchdContext n) (env : AcceptEnv) (id i : ℕ) :
    ((archd.accept env id).records i).data = (archd.records i).data := by
  unfold ArchdContext.accept
  have hset : (Function.update archd.records id
      { archd.records id with receiveTime := env.receiveTime } i).data
      = (archd.records i).data := by
    rcases eq_or_ne i id with rfl | h
    · rw [Function.update_self]
    · rw [Function.update_of_ne h]
  dsimp only
  split_ifs
  · rw [queueRecord_data, queueRecord_data, hset]
  · rw [queueRecord_data, hset]

@[simp] lemma ArchdContext.accept_recordQueue (archd : ArchdContext n) (env : AcceptEnv)
    (id : ℕ) : (archd.accept env id).recordQueue
      = (queueRecord archd.records archd.recordQueue env.recordNow id).2 := by
  have hprio : (Function.update archd.records id
      { archd.records id with receiveTime := env.receiveTime } id).priority
      = (archd.records id).priority := by
    rw [Function.update_self]
  unfold ArchdContext.accept queueRecord
  simp only [hprio]
  split_ifs <;> rfl

lemma accept_allocated (archd : ArchdContext n) (env : AcceptEnv) (id : ℕ) :
    (archd.accept env id).allocated = archd.allocated := by
  unfold ArchdContext.accept
  dsimp only

lemma accept_logMessage (archd : ArchdContext n) (env : AcceptEnv) (id : ℕ) :
    (archd.accept env id).logMessage = archd.logMessage := by
  unfold ArchdContext.accept
  dsimp only

lemma accept_capacity (archd : ArchdContext n) (env : AcceptEnv) (id : ℕ) :
    (archd.accept env id).recordQueue.capacity = archd.recordQueue.capacity := by
  rw [ArchdContext.accept_recordQueue]
  unfold queueRecord
  dsimp only
  split_ifs
  · rfl
  · exact capacity_prioqueueAdd _ _ _ _

/-! ### The data sources -/

/-- `server_context_t` of one data source; `buffer` holds its `length` bytes, and the replies
all have priority 0. -/
structure ServerContext where
  buffer : Bytes
  received : ℤ
  confirmed : ℤ
  replyQueue : Queue Bytes

/-- What `callback_server_connect` makes. -/
def ServerContext.connect : ServerContext := ⟨[], 0, 0, prioqueueInit (-1)⟩

/-! ### The telemetry clients -/

/-- `client_context_t` of one telemetry client. -/
structure ClientContext where
  lastWrite : Timeval
  partialRecord : Option ℕ
  offset : ℕ
  sent : ℤ
  telemetryQueue : Queue ℕ

end StationProcessor
