import Mathlib.Data.List.Basic
import Mathlib.Data.List.Nodup
import Mathlib.Order.Basic
import Mathlib.Tactic.Linarith

/-!
# Descriptor contexts of pcomm

The lists of descriptors a `pcomm_context_t` manages, the calls that register and remove them, and
the blocks of memory behind them. A freed block keeps its contents and its address is not given
out again.
-/

namespace StationProcessor

/-- The results of the modelled calls. -/
inductive PcommResult
  | success
  | fdWriteFailed
  | fdNotFound
  | fdNegative
  | noDataFromRead
  | noDataForWrite
  | outOfMemory
  | nullCallback
  | nullBuffer
  | exiting
deriving DecidableEq

/-- `pcomm_stream_t`. -/
inductive PcommStream
  | write
  | read
  | error
deriving DecidableEq

/-- `pcomm_fd_t`, with the address of its block and with which callbacks are set. -/
structure PcommFd where
  address : ℕ
  fileDescriptor : ℤ
  readyCallback : Bool
  ioCallback : Bool
  closeCallback : Bool
  buffer : Option (List UInt8)
  length : ℕ
  used : ℕ
  lastReadEmpty : Bool
  checkOnly : Bool
deriving DecidableEq

/-- What happens to descriptors and to the blocks of their contexts. -/
inductive PcommEvent
  | added (fd : ℤ) (data : List UInt8)
  | accepted (fd : ℤ) (data : List UInt8)
  | dispatched (stream : PcommStream) (fd : ℤ)
  | touched (address : ℕ)
  | released (address : ℕ) (fd : ℤ)
deriving DecidableEq

/-- `pcomm_context_t`, with the blocks it has freed and with a trace of what happened. -/
structure PcommContext where
  readFds : List PcommFd
  writeFds : List PcommFd
  errorFds : List PcommFd
  debug : Bool
  exitNow : Bool
  exitRequest : Bool
  nextAddress : ℕ
  freed : List PcommFd
  trace : List PcommEvent

/-- `pcomm_init`. -/
def pcommInit : PcommContext where
  readFds := []
  writeFds := []
  errorFds := []
  debug := false
  exitNow := false
  exitRequest := false
  nextAddress := 0
  freed := []
  trace := []

/-- Which allocations of a call succeed: the context, the buffer and the entry of the list. -/
structure Alloc where
  context : Bool
  buffer : Bool
  entry : Bool

/-- An allocation of this many bytes; no block is larger than `PTRDIFF_MAX`. -/
def allocates (memory : Bool) (size : ℕ) : Bool := memory && decide (size < 2 ^ 63)

/-! ### Traces -/

/-- A trace goes on with events of a kind. -/
def Grows (P : PcommEvent → Prop) (trace trace' : List PcommEvent) : Prop :=
  ∃ more, trace' = trace ++ more ∧ ∀ event ∈ more, P event

lemma Grows.refl (P : PcommEvent → Prop) (trace : List PcommEvent) : Grows P trace trace :=
  ⟨[], by simp⟩

lemma Grows.trans {P : PcommEvent → Prop} {trace trace' trace'' : List PcommEvent}
    (h : Grows P trace trace') (h' : Grows P trace' trace'') : Grows P trace trace'' := by
  obtain ⟨more, rfl, hall⟩ := h
  obtain ⟨more', rfl, hall'⟩ := h'
  refine ⟨more ++ more', List.append_assoc _ _ _, fun event he => ?_⟩
  exact (List.mem_append.mp he).elim (hall event) (hall' event)

lemma Grows.single {P : PcommEvent → Prop} (trace : List PcommEvent) {e : PcommEvent}
    (h : P e) : Grows P trace (trace ++ [e]) :=
  ⟨[e], rfl, by simpa using h⟩

lemma Grows.imp {P Q : PcommEvent → Prop} {trace trace' : List PcommEvent}
    (h : Grows P trace trace') (hPQ : ∀ e, P e → Q e) : Grows Q trace trace' := by
  obtain ⟨more, rfl, hall⟩ := h
  exact ⟨more, rfl, fun e he => hPQ e (hall e he)⟩

/-! ### Lists of descriptors -/

/-- `list_seek` with `_list_aid_seeker`. -/
def seekFd (fds : List PcommFd) (fd : ℤ) : Option PcommFd := fds.find? (·.fileDescriptor = fd)

/-- Write a context through its address. -/
def updateFd (fds : List PcommFd) (c : PcommFd) : List PcommFd :=
  fds.map fun e => if e.address = c.address then c else e

namespace PcommContext

def fds (ctx : PcommContext) : PcommStream → List PcommFd
  | .write => ctx.writeFds
  | .read => ctx.readFds
  | .error => ctx.errorFds

def setFds (ctx : PcommContext) (stream : PcommStream) (fds : List PcommFd) : PcommContext :=
  match stream with
  | .write => { ctx with writeFds := fds }
  | .read => { ctx with readFds := fds }
  | .error => { ctx with errorFds := fds }

def log (ctx : PcommContext) (event : PcommEvent) : PcommContext :=
  { ctx with trace := ctx.trace ++ [event] }

/-- The context behind an address, which may have been freed. -/
def deref (ctx : PcommContext) (stream : PcommStream) (address : ℕ) : Option PcommFd :=
  (ctx.fds stream ++ ctx.freed).find? (·.address = address)

/-- `list_append`, which may find no memory for the entry; the context is allocated all the same. -/
def append (ctx : PcommContext) (stream : PcommStream) (c : PcommFd) (entry : Bool) :
    PcommContext :=
  let ctx := { ctx with nextAddress := ctx.nextAddress + 1 }
  if entry then ctx.setFds stream (ctx.fds stream ++ [c]) else ctx

end PcommContext

/-! ### Registering descriptors -/

/-- `_pcomm_add_input_fd`. -/
def addInputFd (ctx : PcommContext) (stream : PcommStream) (fd : ℤ) (checkOnly : Bool)
    (alloc : Alloc)
    (ready io close : Bool) : PcommResult × PcommContext :=
  if fd < 0 then (.fdNegative, ctx)
  else if ¬ alloc.context then (.outOfMemory, ctx)
  else
    let c : PcommFd :=
      { address := ctx.nextAddress
        fileDescriptor := fd
        readyCallback := ready
        ioCallback := io
        closeCallback := close
        buffer := none
        length := 0
        used := 0
        lastReadEmpty := false
        checkOnly }
    (.success, ctx.append stream c alloc.entry)

/-- `_pcomm_add_output_fd`; a failed `list_append` is only printed. -/
def addOutputFd (ctx : PcommContext) (fd : ℤ) (checkOnly : Bool) (data : List UInt8)
    (alloc : Alloc) (ready io close : Bool) : PcommResult × PcommContext :=
  if fd < 0 then (.fdNegative, ctx)
  else
    match seekFd ctx.writeFds fd with
    | some c =>
      if c.checkOnly then (.success, ctx)
      else
        match c.buffer with
        | none => (.nullBuffer, ctx)
        | some buffer =>
          if data = [] then (.noDataForWrite, ctx)
          else if allocates alloc.buffer (c.used + data.length) then
            let c := { c with
              buffer := some (buffer.take c.used ++ data)
              length := c.used + data.length
              used := c.used + data.length }
            (.success, { ctx with writeFds := updateFd ctx.writeFds c })
          else (.outOfMemory, ctx)
    | none =>
      if ¬ alloc.context then (.outOfMemory, ctx)
      else
        let c : PcommFd :=
          { address := ctx.nextAddress
            fileDescriptor := fd
            readyCallback := ready
            ioCallback := io
            closeCallback := close
            buffer := none
            length := 0
            used := 0
            lastReadEmpty := false
            checkOnly }
        if checkOnly then (.success, ctx.append .write c alloc.entry)
        else if data = [] then (.noDataForWrite, ctx)
        else if allocates alloc.buffer data.length then
          let c := { c with buffer := some data, length := data.length, used := data.length }
          (.success, ctx.append .write c alloc.entry)
        else (.outOfMemory, ctx)

/-- `_pcomm_remove_fd` on one of the lists. -/
def removeFd (ctx : PcommContext) (stream : PcommStream) (fd : ℤ) : PcommResult × PcommContext :=
  if fd < 0 then (.fdNegative, ctx)
  else
    match seekFd (ctx.fds stream) fd with
    | none => (.fdNotFound, ctx)
    | some c =>
      let ctx := ctx.setFds stream ((ctx.fds stream).eraseP (·.fileDescriptor = fd))
      (.success, { ctx with freed := c :: ctx.freed }.log (.released c.address fd))

/-! ### Calls -/

/-- `pcomm_add_write_fd`. -/
def pcommAddWriteFd (ctx : PcommContext) (fd : ℤ) (data : List UInt8) (alloc : Alloc)
    (io close : Bool) : PcommResult × PcommContext :=
  if ctx.exitRequest then (.exiting, ctx)
  else if data = [] then (.noDataForWrite, ctx)
  else addOutputFd ctx fd false data alloc false io close

/-- `pcomm_monitor_write_fd`. -/
def pcommMonitorWriteFd (ctx : PcommContext) (fd : ℤ) (alloc : Alloc) (ready : Bool) :
    PcommResult × PcommContext :=
  if ctx.exitRequest then (.exiting, ctx)
  else addOutputFd ctx fd true [] alloc ready false false

/-- `pcomm_add_read_fd` and `pcomm_add_error_fd`. -/
def pcommAddInputFd (stream : PcommStream) (ctx : PcommContext) (fd : ℤ) (alloc : Alloc)
    (io close : Bool) : PcommResult × PcommContext :=
  if ctx.exitRequest then (.exiting, ctx)
  else if ¬ io then (.nullCallback, ctx)
  else addInputFd ctx stream fd false alloc false io close

def pcommAddReadFd := pcommAddInputFd .read

def pcommAddErrorFd := pcommAddInputFd .error

/-- `pcomm_monitor_read_fd` and `pcomm_monitor_error_fd`. -/
def pcommMonitorInputFd (stream : PcommStream) (ctx : PcommContext) (fd : ℤ) (alloc : Alloc)
    (ready : Bool) : PcommResult × PcommContext :=
  if ctx.exitRequest then (.exiting, ctx)
  else if ¬ ready then (.nullCallback, ctx)
  else addInputFd ctx stream fd true alloc ready false false

def pcommMonitorReadFd := pcommMonitorInputFd .read

def pcommMonitorErrorFd := pcommMonitorInputFd .error

/-- `pcomm_stop`. -/
def pcommStop (ctx : PcommContext) (immediately : Bool) : PcommContext :=
  { ctx with exitRequest := true, exitNow := ctx.exitNow || immediately }

/-- Calls of a program that add to its managed writes, or stop the loop. -/
inductive WriteCall
  | addWriteFd (fd : ℤ) (data : List UInt8) (alloc : Alloc) (io close : Bool)
  | monitorWriteFd (fd : ℤ) (alloc : Alloc) (ready : Bool)
  | stop (immediately : Bool)

/-- A call, with the bytes it has added in the trace. -/
def WriteCall.run (ctx : PcommContext) : WriteCall → PcommContext
  | .addWriteFd fd data alloc io close =>
    match pcommAddWriteFd ctx fd data alloc io close with
    | (.success, ctx) => ctx.log (.added fd data)
    | (_, ctx) => ctx
  | .monitorWriteFd fd alloc ready => (pcommMonitorWriteFd ctx fd alloc ready).2
  | .stop immediately => pcommStop ctx immediately

/-- The calls a program may make, also from its callbacks. -/
inductive PcommCall
  | write (call : WriteCall)
  | addReadFd (fd : ℤ) (alloc : Alloc) (io close : Bool)
  | addErrorFd (fd : ℤ) (alloc : Alloc) (io close : Bool)
  | monitorReadFd (fd : ℤ) (alloc : Alloc) (ready : Bool)
  | monitorErrorFd (fd : ℤ) (alloc : Alloc) (ready : Bool)
  | removeFd (stream : PcommStream) (fd : ℤ)

def PcommCall.run (ctx : PcommContext) : PcommCall → PcommContext
  | .write call => call.run ctx
  | .addReadFd fd alloc io close => (pcommAddReadFd ctx fd alloc io close).2
  | .addErrorFd fd alloc io close => (pcommAddErrorFd ctx fd alloc io close).2
  | .monitorReadFd fd alloc ready => (pcommMonitorReadFd ctx fd alloc ready).2
  | .monitorErrorFd fd alloc ready => (pcommMonitorErrorFd ctx fd alloc ready).2
  | .removeFd stream fd => (StationProcessor.removeFd ctx stream fd).2

end StationProcessor
