import StationProcessor.Pcomm.Context

/-!
# Selected descriptors

What `_process_selected_fds` does with a descriptor that `select` has returned: a callback, a
managed write or a managed read.
-/

namespace StationProcessor

/-! ### Managed writes -/

/-- What `write()` returns: an error, or a count of at most the bytes it was given. -/
inductive WriteResult
  | error
  | wrote (count : ℕ)
deriving DecidableEq

/-- The result as a `size_t`, where the error is `-1`. -/
def WriteResult.count (used : ℕ) : WriteResult → ℕ
  | .error => 2 ^ 64 - 1
  | .wrote count => min count used

/-- The bytes the descriptor has taken. -/
def WriteResult.taken (buffered : List UInt8) : WriteResult → List UInt8
  | .error => []
  | .wrote count => buffered.take count

/-- The environment of a managed write: its result, the byte of memory before the buffer, and
whether the buffer can be shrunk. -/
structure WriteOutcome where
  result : WriteResult
  before : UInt8
  shrinks : Bool

/-- The bytes at `buffer + offset`, where the offset of an error wraps to the byte before. -/
def bytesAt (before : UInt8) (buffer : List UInt8) (offset count : ℕ) : List UInt8 :=
  if offset = 2 ^ 64 - 1 then (before :: buffer).take count else (buffer.drop offset).take count

/-- `_write_fd`. -/
def writeFd (o : WriteOutcome) (c : PcommFd) : PcommResult × PcommFd :=
  match c.buffer with
  | none => (.nullBuffer, c)
  | some buffer =>
    if c.used = 0 then (.noDataForWrite, c)
    else
      let writeCount := o.result.count c.used
      if writeCount = 0 then (.fdWriteFailed, c)
      else if writeCount = c.used then (.success, { c with buffer := none, length := 0, used := 0 })
      else
        let used := (c.used + 2 ^ 64 - writeCount) % 2 ^ 64
        let buffer := bytesAt o.before buffer writeCount used ++ buffer.drop used
        if o.shrinks then
          (.success, { c with buffer := some (buffer.take used), length := used, used })
        else (.success, { c with buffer := some buffer, used })

section Fields

variable {c : PcommFd} {o : WriteOutcome}

/-- Only the buffer and the counts change. -/
lemma writeFd_eq (o : WriteOutcome) (c : PcommFd) :
    ∃ buffer length used, (writeFd o c).2 = { c with buffer, length, used } := by
  unfold writeFd
  cases c.buffer with
  | none => exact ⟨_, _, _, rfl⟩
  | some buffer => dsimp only; split_ifs <;> exact ⟨_, _, _, rfl⟩

@[simp] lemma writeFd_address : (writeFd o c).2.address = c.address := by
  obtain ⟨buffer, length, used, h⟩ := writeFd_eq o c
  rw [h]

@[simp] lemma writeFd_descriptor : (writeFd o c).2.fileDescriptor = c.fileDescriptor := by
  obtain ⟨buffer, length, used, h⟩ := writeFd_eq o c
  rw [h]

@[simp] lemma writeFd_checkOnly : (writeFd o c).2.checkOnly = c.checkOnly := by
  obtain ⟨buffer, length, used, h⟩ := writeFd_eq o c
  rw [h]

@[simp] lemma writeFd_closeCallback : (writeFd o c).2.closeCallback = c.closeCallback := by
  obtain ⟨buffer, length, used, h⟩ := writeFd_eq o c
  rw [h]

end Fields

/-- The bytes still buffered in a context. -/
def PcommFd.buffered (c : PcommFd) : List UInt8 :=
  match c.buffer with
  | none => []
  | some buffer => buffer.take c.used

section Process

variable (ready io close : PcommContext → PcommContext)

/-- After the write and its callback: a context without bytes is removed, and its block is used
and freed once more. -/
def finishWrite (address : ℕ) (ctx : PcommContext) : PcommContext :=
  let ctx := ctx.log (.touched address)
  match ctx.deref .write address with
  | none => ctx
  | some c =>
    if c.buffer = none ∨ c.used = 0 then
      let ctx := (removeFd ctx .write c.fileDescriptor).2.log (.touched address)
      (if c.closeCallback then close ctx else ctx).log (.released address c.fileDescriptor)
    else ctx

/-- The managed write of a context. -/
def manageWrite (o : WriteOutcome) (c : PcommFd) (ctx : PcommContext) : PcommContext :=
  { ctx with writeFds := updateFd ctx.writeFds (writeFd o c).2 }.log
    (.accepted c.fileDescriptor (o.result.taken c.buffered))

/-- A selected descriptor of the write list. -/
def processWriteFd (o : WriteOutcome) (fd : ℤ) (ctx : PcommContext) : PcommContext :=
  match seekFd ctx.writeFds fd with
  | none => ctx
  | some c =>
    if c.checkOnly then
      if c.readyCallback then ready (ctx.log (.dispatched .write fd)) else ctx
    else
      let ctx := manageWrite o c ctx
      let ctx := if c.ioCallback then io (ctx.log (.dispatched .write fd)) else ctx
      finishWrite close c.address ctx

end Process

/-! ### Managed reads -/

/-- What `read()` returns: an error, the end of the file or at least one byte. -/
inductive ReadResult
  | error
  | eof
  | data (first : UInt8) (rest : List UInt8)

/-- The environment of a managed read: its result and whether memory is left for the page and for
the buffer. -/
structure ReadOutcome where
  result : ReadResult
  page : Bool
  memory : Bool

/-- `_read_fd`; an error is `(size_t)-1` bytes, for which there is no memory. -/
def readFd (o : ReadOutcome) (c : PcommFd) : PcommResult × PcommFd :=
  if ¬ o.page then (.outOfMemory, c)
  else
    match o.result with
    | .eof => (.noDataFromRead, c)
    | .error => (.outOfMemory, c)
    | .data first rest =>
      let size := c.used + (rest.length + 1)
      if allocates o.memory size then
        (.success, { c with
          buffer := some (((c.buffer.getD []).take c.used) ++ first :: rest)
          length := size
          used := size })
      else (.outOfMemory, c)

/-- `_pcomm_clean_read_buffer`. -/
def cleanReadBuffer (c : PcommFd) : PcommFd := { c with buffer := none, length := 0, used := 0 }

/-- Apply a function to the context behind an address. -/
def PcommContext.modify (ctx : PcommContext) (stream : PcommStream) (address : ℕ)
    (f : PcommFd → PcommFd) : PcommContext :=
  match ctx.deref stream address with
  | none => ctx
  | some c => ctx.setFds stream (updateFd (ctx.fds stream) (f c))

/-- A selected descriptor of the read or error list. -/
def processInputFd (stream : PcommStream) (ready io close : PcommContext → PcommContext)
    (o : ReadOutcome) (fd : ℤ) (ctx : PcommContext) : PcommContext :=
  match seekFd (ctx.fds stream) fd with
  | none => ctx
  | some c =>
    if c.checkOnly then
      if c.readyCallback then ready (ctx.log (.dispatched stream fd)) else ctx
    else
      match readFd o c with
      | (.success, c') =>
        let ctx := ctx.setFds stream (updateFd (ctx.fds stream) { c' with lastReadEmpty := false })
        if c.ioCallback then
          (io (ctx.log (.dispatched stream fd))).modify stream c.address cleanReadBuffer
        else ctx
      | (.noDataFromRead, _) =>
        if c.lastReadEmpty then
          -- also for a descriptor of the error list
          let ctx := (removeFd ctx .read fd).2.log (.touched c.address)
          if c.closeCallback then close (ctx.log (.dispatched stream fd)) else ctx
        else ctx.modify stream c.address fun c => { c with lastReadEmpty := true }
      | (_, _) => ctx

/-! ### All selected descriptors of a stream -/

/-- The environment of a selected descriptor, with the calls its callbacks make. -/
structure FdOutcome (α : Type) where
  write : WriteOutcome
  read : ReadOutcome
  ready : List α
  io : List α
  close : List α

/-- A selected descriptor. -/
def processFd {α : Type} (run : PcommContext → α → PcommContext) (stream : PcommStream)
    (o : FdOutcome α) (fd : ℤ) : PcommContext → PcommContext :=
  let ready := fun ctx => o.ready.foldl run ctx
  let io := fun ctx => o.io.foldl run ctx
  let close := fun ctx => o.close.foldl run ctx
  match stream with
  | .write => processWriteFd ready io close o.write fd
  | stream => processInputFd stream ready io close o.read fd

/-- One round of the loop in `_process_selected_fds`; `FD_ISSET` on `NULL` is no address. -/
def processRound {α : Type} (run : PcommContext → α → PcommContext) (stream : PcommStream)
    (set : Option (List ℤ)) (outcome : ℤ → FdOutcome α) (ctx : PcommContext) (fd : ℤ) :
    Option PcommContext :=
  if ctx.exitNow then some ctx
  else
    match set with
    | none => none
    | some set => some (if fd ∈ set then processFd run stream (outcome fd) fd ctx else ctx)

/-- `_process_selected_fds`. -/
def processSelectedFds {α : Type} (run : PcommContext → α → PcommContext) (stream : PcommStream)
    (set : Option (List ℤ)) (outcome : ℤ → FdOutcome α) (ctx : PcommContext) :
    Option PcommContext :=
  ((ctx.fds stream).map PcommFd.fileDescriptor).foldlM (processRound run stream set outcome) ctx

end StationProcessor
