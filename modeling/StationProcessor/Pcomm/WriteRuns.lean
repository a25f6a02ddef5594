import StationProcessor.Pcomm.Writes

/-!
# Runs of managed writes

Each call and each selected descriptor keeps the bytes of all descriptors, unless a write fails or
an addition is lost; and frees a context only when its last byte is taken.
-/

namespace StationProcessor

/-! ### One write -/

section Write

variable {c : PcommFd} {o : WriteOutcome}

lemma WriteResult.count_lt {used : ℕ} (h : used < 2 ^ 64) (r : WriteResult) :
    r.count used < 2 ^ 64 := by
  cases r with
  | error => exact Nat.sub_lt (by positivity) Nat.one_pos
  | wrote count => exact (min_le_right _ _).trans_lt h

/-- The bytes that `memmove` moves fill the new count. -/
lemma length_bytesAt {used : ℕ} {buffer : List UInt8} (h : used < 2 ^ 64)
    (hlen : used ≤ buffer.length) (r : WriteResult) (hne : r.count used ≠ used) (before : UInt8) :
    (bytesAt before buffer (r.count used) ((used + 2 ^ 64 - r.count used) % 2 ^ 64)).length
      = (used + 2 ^ 64 - r.count used) % 2 ^ 64 := by
  cases r with
  | error =>
    have hused : (used + 2 ^ 64 - (2 ^ 64 - 1)) % 2 ^ 64 = used + 1 := by
      simp only [WriteResult.count] at hne
      omega
    simp only [WriteResult.count, bytesAt, if_true, hused]
    simpa using hlen
  | wrote count =>
    have hmin : min count used ≤ used := min_le_right _ _
    have hused : (used + 2 ^ 64 - min count used) % 2 ^ 64 = used - min count used := by omega
    have hcount : min count used ≠ 2 ^ 64 - 1 := by
      simp only [WriteResult.count] at hne
      omega
    simp only [WriteResult.count, bytesAt, if_neg hcount, hused, List.length_take,
      List.length_drop]
    exact min_eq_left (Nat.sub_le_sub_right hlen _)

lemma writeFd_null (hb : c.buffer = none) : (writeFd o c).2 = c := by
  simp [writeFd, hb]

lemma writeFd_drained (h : FdWf c) {buffer : List UInt8} (hb : c.buffer = some buffer)
    (hall : o.result.count c.used = c.used) :
    (writeFd o c).2.buffer = none ∧ (writeFd o c).2.used = 0 := by
  have hused := (h.filled buffer hb).1.ne'
  simp [writeFd, hb, hused, hall]

/-- A write that does not take all bytes leaves a buffer with those moved. -/
lemma writeFd_left (h : FdWf c) {buffer : List UInt8} (hb : c.buffer = some buffer)
    (h0 : o.result.count c.used ≠ 0) (hne : o.result.count c.used ≠ c.used) :
    let used := (c.used + 2 ^ 64 - o.result.count c.used) % 2 ^ 64
    (writeFd o c).2.used = used ∧ ∃ block, (writeFd o c).2.buffer = some block ∧
      used ≤ block.length ∧
      block.take used = bytesAt o.before buffer (o.result.count c.used) used := by
  intro used
  obtain ⟨hpos, hlen, hlt⟩ := h.filled buffer hb
  have hmoved := length_bytesAt hlt hlen o.result hne o.before
  have htake : ∀ rest, (bytesAt o.before buffer (o.result.count c.used) used ++ rest).take used
      = bytesAt o.before buffer (o.result.count c.used) used := fun rest => by
    rw [List.take_left' hmoved]
  simp only [writeFd, hb, if_neg hpos.ne', if_neg h0, if_neg hne]
  cases o.shrinks with
  | true =>
    refine ⟨rfl, _, rfl, ?_, ?_⟩
    · rw [htake]
      exact hmoved.ge
    · rw [htake]
      exact List.take_of_length_le hmoved.le
  | false =>
    refine ⟨rfl, _, rfl, ?_, htake _⟩
    rw [List.length_append]
    exact hmoved.ge.trans (Nat.le_add_right _ _)

/-- A write ends the buffer exactly when it takes all bytes. -/
lemma writeFd_buffer (h : FdWf c) (hb : c.buffer ≠ none) :
    (writeFd o c).2.buffer = none ↔ o.result.count c.used = c.used := by
  obtain ⟨buffer, hb⟩ := Option.ne_none_iff_exists'.mp hb
  constructor
  · intro hnone
    by_contra hne
    by_cases h0 : o.result.count c.used = 0
    · have hsame : (writeFd o c).2 = c := by
        simp [writeFd, hb, (h.filled buffer hb).1.ne', h0]
      rw [hsame, hb] at hnone
      cases hnone
    · obtain ⟨-, block, hblock, -⟩ := writeFd_left h hb h0 hne
      rw [hblock] at hnone
      cases hnone
  · exact fun hall => (writeFd_drained h hb hall).1

lemma FdWf.write (h : FdWf c) (o : WriteOutcome) : FdWf (writeFd o c).2 := by
  cases hb : c.buffer with
  | none => rwa [writeFd_null hb]
  | some buffer =>
    have hmanaged : c.checkOnly = true → False := fun hcheck => by
      rw [h.monitored hcheck] at hb
      cases hb
    obtain ⟨hpos, hlen, hlt⟩ := h.filled buffer hb
    by_cases hall : o.result.count c.used = c.used
    · obtain ⟨hnone, hused⟩ := writeFd_drained h hb hall
      refine ⟨fun _ => hnone, fun _ => hused, fun buffer' hb' => ?_⟩
      rw [hnone] at hb'
      cases hb'
    by_cases h0 : o.result.count c.used = 0
    · have hsame : (writeFd o c).2 = c := by simp [writeFd, hb, hpos.ne', h0]
      rwa [hsame]
    · obtain ⟨hused, block, hblock, hfits, -⟩ := writeFd_left h hb h0 hall
      have hcount := o.result.count_lt hlt
      refine ⟨fun hcheck => (hmanaged (by simpa using hcheck)).elim, fun hnone => ?_,
        fun buffer' hb' => ?_⟩
      · rw [hblock] at hnone
        cases hnone
      · rw [hblock] at hb'
        cases hb'
        rw [hused]
        exact ⟨by omega, hfits, Nat.mod_lt _ (by positivity)⟩

/-- A write that does not fail splits the bytes of its context. -/
lemma writeFd_bytes (h : FdWf c) (hr : o.result ≠ .error) :
    o.result.taken c.buffered ++ (writeFd o c).2.buffered = c.buffered ∧
      (writeFd o c).2.used ≤ c.used := by
  cases hres : o.result with
  | error => exact absurd hres hr
  | wrote count =>
    cases hb : c.buffer with
    | none => simp [writeFd_null hb, PcommFd.buffered, hb, WriteResult.taken]
    | some buffer =>
      obtain ⟨hpos, hlen, hlt⟩ := h.filled buffer hb
      have hcount : o.result.count c.used = min count c.used := by rw [hres]; rfl
      have htaken : (WriteResult.wrote count).taken c.buffered
          = c.buffered.take (min count c.used) := by
        simp [WriteResult.taken, PcommFd.buffered, hb, List.take_take]
      rw [htaken]
      by_cases hall : o.result.count c.used = c.used
      · obtain ⟨hnone, hused⟩ := writeFd_drained h hb hall
        rw [← hcount, hall, hused]
        refine ⟨?_, Nat.zero_le _⟩
        simp [PcommFd.buffered, hnone, hb, List.take_take]
      by_cases h0 : o.result.count c.used = 0
      · have hsame : (writeFd o c).2 = c := by simp [writeFd, hb, hpos.ne', h0]
        rw [hsame, ← hcount, h0]
        simp
      · obtain ⟨hused, block, hblock, hfits, htake⟩ := writeFd_left h hb h0 hall
        have hmin : min count c.used ≤ c.used := min_le_right _ _
        have hleft : (c.used + 2 ^ 64 - o.result.count c.used) % 2 ^ 64
            = c.used - min count c.used := by
          rw [hcount]
          omega
        have hoffset : min count c.used ≠ 2 ^ 64 - 1 := by
          rw [hcount] at hall
          omega
        rw [hleft] at hused htake
        refine ⟨?_, by rw [hused]; exact Nat.sub_le _ _⟩
        simp only [PcommFd.buffered, hblock, hb, hused, htake, hcount, bytesAt, if_neg hoffset]
        rw [List.take_take, min_eq_left hmin, ← List.take_append_drop (min count c.used)
          (buffer.take c.used)]
        rw [List.take_take, min_eq_left hmin, List.drop_take]

end Write

/-! ### Calls -/

/-- What a call does to the managed writes and to the trace. -/
inductive CallEffect (ctx : PcommContext) : WriteCall → PcommContext → Prop
  | none (call : WriteCall) (ctx' : PcommContext) (writes : ctx'.writeFds = ctx.writeFds)
      (next : ctx.nextAddress ≤ ctx'.nextAddress) (trace : ctx'.trace = ctx.trace) :
      CallEffect ctx call ctx'
  | lost (call : WriteCall) (ctx' : PcommContext) (fd : ℤ) (data : List UInt8)
      (lost : call.Lost ctx) (writes : ctx'.writeFds = ctx.writeFds)
      (next : ctx.nextAddress ≤ ctx'.nextAddress)
      (trace : ctx'.trace = ctx.trace ++ [.added fd data]) : CallEffect ctx call ctx'
  | monitored (call : WriteCall) (ctx' : PcommContext) (c : PcommFd)
      (absent : seekFd ctx.writeFds c.fileDescriptor = Option.none) (nonneg : 0 ≤ c.fileDescriptor)
      (address : c.address = ctx.nextAddress) (wf : FdWf c) (check : c.checkOnly = true)
      (writes : ctx'.writeFds = ctx.writeFds ++ [c]) (next : ctx'.nextAddress = ctx.nextAddress + 1)
      (trace : ctx'.trace = ctx.trace) : CallEffect ctx call ctx'
  | opened (call : WriteCall) (ctx' : PcommContext) (c : PcommFd)
      (absent : seekFd ctx.writeFds c.fileDescriptor = Option.none) (nonneg : 0 ≤ c.fileDescriptor)
      (address : c.address = ctx.nextAddress) (wf : FdWf c) (buffer : c.buffer ≠ Option.none)
      (used : c.used = c.buffered.length) (writes : ctx'.writeFds = ctx.writeFds ++ [c])
      (next : ctx'.nextAddress = ctx.nextAddress + 1)
      (trace : ctx'.trace = ctx.trace ++ [.added c.fileDescriptor c.buffered]) :
      CallEffect ctx call ctx'
  | extended (call : WriteCall) (ctx' : PcommContext) (c c' : PcommFd) (data : List UInt8)
      (rewrites : Rewrites ctx.writeFds c c') (wf : FdWf c') (buffer : c.buffer ≠ Option.none)
      (buffer' : c'.buffer ≠ Option.none) (buffered : c'.buffered = c.buffered ++ data)
      (used : c'.used = c.used + data.length) (check : c'.checkOnly = c.checkOnly)
      (close : c'.closeCallback = c.closeCallback)
      (writes : ctx'.writeFds = updateFd ctx.writeFds c')
      (next : ctx'.nextAddress = ctx.nextAddress)
      (trace : ctx'.trace = ctx.trace ++ [.added c.fileDescriptor data]) : CallEffect ctx call ctx'

lemma allocates_lt {memory : Bool} {size : ℕ} (h : allocates memory size = true) :
    size < 2 ^ 64 := by
  have hlt : size < 2 ^ 63 := by
    rw [allocates, Bool.and_eq_true, decide_eq_true_eq] at h
    exact h.2
  exact hlt.trans (by norm_num)

section AddWrite

variable {ctx : PcommContext} {fd : ℤ} {data : List UInt8} {alloc : Alloc} {io close : Bool}

/-- A call that reports an error leaves everything as it is. -/
lemma addWriteFd_refused {r : PcommResult} (hresult : r ≠ .success)
    (h : pcommAddWriteFd ctx fd data alloc io close = (r, ctx)) :
    CallEffect ctx (.addWriteFd fd data alloc io close)
      ((WriteCall.addWriteFd fd data alloc io close).run ctx) := by
  have hrun : (WriteCall.addWriteFd fd data alloc io close).run ctx = ctx := by
    cases r with
    | success => exact absurd rfl hresult
    | _ => simp only [WriteCall.run, h]
  rw [hrun]
  exact .none _ _ rfl le_rfl rfl

/-- An addition to a descriptor that has a context. -/
lemma addWriteFd_found (hwf : FdsWf ctx.writeFds ctx.nextAddress) (hexit : ctx.exitRequest = false)
    (hdata : data ≠ []) (hfd : 0 ≤ fd) {c : PcommFd} (hseek : seekFd ctx.writeFds fd = some c) :
    CallEffect ctx (.addWriteFd fd data alloc io close)
      ((WriteCall.addWriteFd fd data alloc io close).run ctx) := by
  have hsign : ¬ fd < 0 := not_lt.mpr hfd
  cases hcheck : c.checkOnly with
  | true =>
    refine .lost _ _ fd data ⟨hexit, hdata, hfd, by rwa [hseek]⟩ ?_ ?_ ?_ <;>
      simp [WriteCall.run, pcommAddWriteFd, addOutputFd, hexit, hdata, hsign, hseek, hcheck,
        PcommContext.log]
  | false =>
    cases hbuffer : c.buffer with
    | none =>
      apply addWriteFd_refused (r := .nullBuffer) (by simp)
      simp [pcommAddWriteFd, addOutputFd, hexit, hdata, hsign, hseek, hcheck, hbuffer]
    | some buffer =>
      by_cases hmem : allocates alloc.buffer (c.used + data.length)
      swap
      · apply addWriteFd_refused (r := .outOfMemory) (by simp)
        simp [pcommAddWriteFd, addOutputFd, hexit, hdata, hsign, hseek, hcheck, hbuffer, hmem]
      have hd : c.fileDescriptor = fd := seekFd_descriptor hseek
      obtain ⟨hpos, hlen, -⟩ := (hwf.wf c (seekFd_mem hseek)).filled buffer hbuffer
      have hsize : (buffer.take c.used ++ data).length = c.used + data.length := by simp [hlen]
      refine .extended _ _ c { c with
        buffer := some (buffer.take c.used ++ data)
        length := c.used + data.length
        used := c.used + data.length } data ⟨seekFd_mem hseek, rfl, rfl⟩ ?_ (by simp [hbuffer])
        (by simp) ?_ rfl rfl rfl ?_ ?_ ?_
      · refine ⟨fun h => by simp [hcheck] at h, fun h => by simp at h, fun b hb => ?_⟩
        cases hb
        exact ⟨Nat.add_pos_left hpos _, hsize.ge, allocates_lt hmem⟩
      · simp only [PcommFd.buffered, hbuffer]
        exact List.take_of_length_le hsize.le
      all_goals simp [WriteCall.run, pcommAddWriteFd, addOutputFd, hexit, hdata, hsign, hseek,
        hcheck, hbuffer, hmem, hd, PcommContext.log]

/-- An addition to a descriptor that has no context. -/
lemma addWriteFd_new (hexit : ctx.exitRequest = false) (hdata : data ≠ []) (hfd : 0 ≤ fd)
    (hseek : seekFd ctx.writeFds fd = none) :
    CallEffect ctx (.addWriteFd fd data alloc io close)
      ((WriteCall.addWriteFd fd data alloc io close).run ctx) := by
  have hsign : ¬ fd < 0 := not_lt.mpr hfd
  cases hcontext : alloc.context with
  | false =>
    apply addWriteFd_refused (r := .outOfMemory) (by simp)
    simp [pcommAddWriteFd, addOutputFd, hexit, hdata, hsign, hseek, hcontext]
  | true =>
    by_cases hmem : allocates alloc.buffer data.length
    swap
    · apply addWriteFd_refused (r := .outOfMemory) (by simp)
      simp [pcommAddWriteFd, addOutputFd, hexit, hdata, hsign, hseek, hcontext, hmem]
    cases hentry : alloc.entry with
    | false =>
      refine .lost _ _ fd data ⟨hexit, hdata, hfd, by rw [hseek]; exact ⟨hcontext, hmem, hentry⟩⟩
        ?_ ?_ ?_ <;>
        simp [WriteCall.run, pcommAddWriteFd, addOutputFd, hexit, hdata, hsign, hseek, hcontext,
          hmem, hentry, PcommContext.log, PcommContext.append]
    | true =>
      let c : PcommFd :=
        { address := ctx.nextAddress
          fileDescriptor := fd
          readyCallback := false
          ioCallback := io
          closeCallback := close
          buffer := some data
          length := data.length
          used := data.length
          lastReadEmpty := false
          checkOnly := false }
      have hbuffered : c.buffered = data := List.take_of_length_le le_rfl
      refine .opened _ _ c hseek hfd rfl ?_ (by simp [c]) (by rw [hbuffered]) ?_ ?_ ?_
      · refine ⟨fun h => by simp [c] at h, fun h => by simp [c] at h, fun b hb => ?_⟩
        cases hb
        exact ⟨List.length_pos_iff.mpr hdata, le_rfl, allocates_lt hmem⟩
      all_goals simp [WriteCall.run, pcommAddWriteFd, addOutputFd, hexit, hdata, hsign, hseek,
        hcontext, hmem, hentry, PcommContext.log, PcommContext.append, PcommContext.setFds,
        PcommContext.fds, hbuffered, c]

end AddWrite

lemma addWriteFd_effect {ctx : PcommContext} (hwf : FdsWf ctx.writeFds ctx.nextAddress) (fd : ℤ)
    (data : List UInt8) (alloc : Alloc) (io close : Bool) :
    CallEffect ctx (.addWriteFd fd data alloc io close)
      ((WriteCall.addWriteFd fd data alloc io close).run ctx) := by
  cases hexit : ctx.exitRequest with
  | true => exact addWriteFd_refused (r := .exiting) (by simp) (by simp [pcommAddWriteFd, hexit])
  | false =>
    by_cases hdata : data = []
    · apply addWriteFd_refused (r := .noDataForWrite) (by simp)
      simp [pcommAddWriteFd, hexit, hdata]
    by_cases hfd : fd < 0
    · apply addWriteFd_refused (r := .fdNegative) (by simp)
      simp [pcommAddWriteFd, addOutputFd, hexit, hdata, hfd]
    cases hseek : seekFd ctx.writeFds fd with
    | some c => exact addWriteFd_found hwf hexit hdata (not_lt.mp hfd) hseek
    | none => exact addWriteFd_new hexit hdata (not_lt.mp hfd) hseek

lemma monitorWriteFd_effect {ctx : PcommContext} (fd : ℤ) (alloc : Alloc) (ready : Bool) :
    CallEffect ctx (.monitorWriteFd fd alloc ready)
      ((WriteCall.monitorWriteFd fd alloc ready).run ctx) := by
  have hsame : (WriteCall.monitorWriteFd fd alloc ready).run ctx = ctx →
      CallEffect ctx (.monitorWriteFd fd alloc ready)
        ((WriteCall.monitorWriteFd fd alloc ready).run ctx) := fun h => by
    rw [h]
    exact .none _ _ rfl le_rfl rfl
  cases hexit : ctx.exitRequest with
  | true => exact hsame (by simp [WriteCall.run, pcommMonitorWriteFd, hexit])
  | false =>
    by_cases hfd : fd < 0
    · exact hsame (by simp [WriteCall.run, pcommMonitorWriteFd, addOutputFd, hexit, hfd])
    cases hseek : seekFd ctx.writeFds fd with
    | some c =>
      apply hsame
      simp only [WriteCall.run, pcommMonitorWriteFd, addOutputFd, hexit, hfd, hseek]
      cases c.checkOnly <;> cases c.buffer <;> rfl
    | none =>
      cases hcontext : alloc.context with
      | false =>
        exact hsame (by
          simp [WriteCall.run, pcommMonitorWriteFd, addOutputFd, hexit, hfd, hseek, hcontext])
      | true =>
        let c : PcommFd :=
          { address := ctx.nextAddress
            fileDescriptor := fd
            readyCallback := ready
            ioCallback := false
            closeCallback := false
            buffer := none
            length := 0
            used := 0
            lastReadEmpty := false
            checkOnly := true }
        cases hentry : alloc.entry with
        | true =>
          refine .monitored _ _ c hseek (not_lt.mp hfd) rfl ?_ rfl ?_ ?_ ?_
          · exact ⟨fun _ => rfl, fun _ => rfl, fun b hb => by simp [c] at hb⟩
          all_goals simp [WriteCall.run, pcommMonitorWriteFd, addOutputFd, hexit, hfd, hseek,
            hcontext, hentry, PcommContext.append, PcommContext.setFds, PcommContext.fds, c]
        | false =>
          refine .none _ _ ?_ ?_ ?_ <;>
            simp [WriteCall.run, pcommMonitorWriteFd, addOutputFd, hexit, hfd, hseek, hcontext,
              hentry, PcommContext.append]

lemma WriteCall.effect {ctx : PcommContext} (hwf : FdsWf ctx.writeFds ctx.nextAddress)
    (call : WriteCall) : CallEffect ctx call (call.run ctx) := by
  cases call with
  | addWriteFd fd data alloc io close => exact addWriteFd_effect hwf fd data alloc io close
  | monitorWriteFd fd alloc ready => exact monitorWriteFd_effect fd alloc ready
  | stop immediately => exact .none _ _ rfl le_rfl rfl

/-! ### Bytes and traces -/

section Bytes

variable {fds : List PcommFd} {nextAddress : ℕ} {c c' : PcommFd}

@[simp] lemma addedTo_append (trace trace' : List PcommEvent) (fd : ℤ) :
    addedTo (trace ++ trace') fd = addedTo trace fd ++ addedTo trace' fd := List.flatMap_append

@[simp] lemma acceptedBy_append (trace trace' : List PcommEvent) (fd : ℤ) :
    acceptedBy (trace ++ trace') fd = acceptedBy trace fd ++ acceptedBy trace' fd :=
  List.flatMap_append

@[simp] lemma addedTo_singleton (event : PcommEvent) (fd : ℤ) :
    addedTo [event] fd = event.addedTo fd := by simp [addedTo]

@[simp] lemma acceptedBy_singleton (event : PcommEvent) (fd : ℤ) :
    acceptedBy [event] fd = event.acceptedBy fd := by simp [acceptedBy]

lemma bufferedFor_absent {fd : ℤ} (h : seekFd fds fd = none) : bufferedFor fds fd = [] := by
  simp [bufferedFor, h]

lemma bufferedFor_mem (h : FdsWf fds nextAddress) (hc : c ∈ fds) :
    bufferedFor fds c.fileDescriptor = c.buffered := by
  simp [bufferedFor, h.seek hc]

lemma bufferedFor_update (h : FdsWf fds nextAddress) (hr : Rewrites fds c c') (hwf : FdWf c')
    (fd : ℤ) :
    bufferedFor (updateFd fds c') fd
      = if fd = c.fileDescriptor then c'.buffered else bufferedFor fds fd := by
  simp only [bufferedFor, seekFd_updateFd h hr hwf]
  split_ifs <;> rfl

lemma bufferedFor_append (h : seekFd fds c.fileDescriptor = none) (fd : ℤ) :
    bufferedFor (fds ++ [c]) fd
      = if fd = c.fileDescriptor then c.buffered else bufferedFor fds fd := by
  simp only [bufferedFor, seekFd_append h]
  split_ifs <;> rfl

lemma bufferedFor_erase (h : FdsWf fds nextAddress) (fd fd' : ℤ) :
    bufferedFor (fds.eraseP (·.fileDescriptor = fd)) fd'
      = if fd' = fd then [] else bufferedFor fds fd' := by
  simp only [bufferedFor, seekFd_eraseFd h]
  split_ifs <;> rfl

lemma buffered_none (h : c.buffer = none) : c.buffered = [] := by simp [PcommFd.buffered, h]

lemma FdWf.buffered_ne_nil (h : FdWf c) (hb : c.buffer ≠ none) : c.buffered ≠ [] := by
  obtain ⟨buffer, hb⟩ := Option.ne_none_iff_exists'.mp hb
  obtain ⟨hpos, hlen, -⟩ := h.filled buffer hb
  simp only [PcommFd.buffered, hb]
  apply List.ne_nil_of_length_pos
  simp only [List.length_take]
  exact lt_min hpos (hpos.trans_le hlen)

/-- An event that neither adds nor takes bytes. -/
def PcommEvent.Silent : PcommEvent → Prop
  | .added _ _ => False
  | .accepted _ _ => False
  | _ => True

lemma PcommEvent.Silent.addedTo {event : PcommEvent} (h : event.Silent) (fd : ℤ) :
    event.addedTo fd = [] := by
  cases event <;> first | rfl | exact h.elim

lemma PcommEvent.Silent.acceptedBy {event : PcommEvent} (h : event.Silent) (fd : ℤ) :
    event.acceptedBy fd = [] := by
  cases event <;> first | rfl | exact h.elim

lemma StreamKept.log {ctx : PcommContext} (h : StreamKept ctx) {e : PcommEvent}
    (hsilent : e.Silent) : StreamKept (ctx.log e) where
  bytes fd := by
    simpa [PcommContext.log, hsilent.addedTo, hsilent.acceptedBy] using h.bytes fd
  used c hc := by simpa [PcommContext.log, hsilent.addedTo] using h.used c hc

end Bytes

/-! ### What calls keep -/

/-- The contexts of a list go on in another one, and the others there have bytes. -/
structure FdsContinue (fds fds' : List PcommFd) : Prop where
  forward : ∀ c ∈ fds, ∃ c' ∈ fds', c'.address = c.address ∧ c'.fileDescriptor = c.fileDescriptor ∧
    c'.closeCallback = c.closeCallback ∧ (c'.buffer = none ↔ c.buffer = none)
  backward : ∀ c' ∈ fds', (∃ c ∈ fds, c.fileDescriptor = c'.fileDescriptor ∧
    c'.checkOnly = c.checkOnly ∧ (c'.buffer = none ↔ c.buffer = none)) ∨
      (c'.checkOnly = false → c'.buffer ≠ none)

lemma FdsContinue.refl (fds : List PcommFd) : FdsContinue fds fds where
  forward c hc := ⟨c, hc, rfl, rfl, rfl, Iff.rfl⟩
  backward c hc := Or.inl ⟨c, hc, rfl, rfl, Iff.rfl⟩

lemma FdsContinue.trans {fds fds' fds'' : List PcommFd} (h : FdsContinue fds fds')
    (h' : FdsContinue fds' fds'') : FdsContinue fds fds'' where
  forward c hc := by
    obtain ⟨c', hc', ha, hd, hclose, hb⟩ := h.forward c hc
    obtain ⟨c'', hc'', ha', hd', hclose', hb'⟩ := h'.forward c' hc'
    exact ⟨c'', hc'', ha'.trans ha, hd'.trans hd, hclose'.trans hclose, hb'.trans hb⟩
  backward c'' hc'' := by
    rcases h'.backward c'' hc'' with ⟨c', hc', hd', hcheck', hb'⟩ | hnew
    · rcases h.backward c' hc' with ⟨c, hc, hd, hcheck, hb⟩ | hnew
      · exact Or.inl ⟨c, hc, hd.trans hd', hcheck'.trans hcheck, hb'.trans hb⟩
      · exact Or.inr fun hcheck => mt hb'.mp (hnew (hcheck'.symm.trans hcheck))
    · exact Or.inr hnew

/-- An event that does not concern the block of a context. -/
def PcommEvent.OffHeap : PcommEvent → Prop
  | .touched _ => False
  | .released _ _ => False
  | _ => True

/-- What calls keep: the list of writes, its contexts, and the heap. -/
structure CallsKeep (ctx ctx' : PcommContext) : Prop where
  wf : FdsWf ctx.writeFds ctx.nextAddress → FdsWf ctx'.writeFds ctx'.nextAddress
  continues : FdsWf ctx.writeFds ctx.nextAddress → FdsContinue ctx.writeFds ctx'.writeFds
  trace : FdsWf ctx.writeFds ctx.nextAddress → Grows PcommEvent.OffHeap ctx.trace ctx'.trace

lemma CallsKeep.refl (ctx : PcommContext) : CallsKeep ctx ctx :=
  ⟨id, fun _ => .refl _, fun _ => .refl _ _⟩

lemma CallsKeep.trans {ctx ctx' ctx'' : PcommContext} (h : CallsKeep ctx ctx')
    (h' : CallsKeep ctx' ctx'') : CallsKeep ctx ctx'' where
  wf hwf := h'.wf (h.wf hwf)
  continues hwf := (h.continues hwf).trans (h'.continues (h.wf hwf))
  trace hwf := (h.trace hwf).trans (h'.trace (h.wf hwf))

lemma FdsContinue.append {fds : List PcommFd} {c : PcommFd}
    (h : c.checkOnly = false → c.buffer ≠ none) : FdsContinue fds (fds ++ [c]) where
  forward e he := ⟨e, List.mem_append_left _ he, rfl, rfl, rfl, Iff.rfl⟩
  backward e he := by
    rcases List.mem_append.mp he with he | he
    · exact Or.inl ⟨e, he, rfl, rfl, Iff.rfl⟩
    · rw [List.mem_singleton.mp he]
      exact Or.inr h

lemma FdsContinue.update {fds : List PcommFd} {nextAddress : ℕ} (hwf : FdsWf fds nextAddress)
    {c c' : PcommFd} (hr : Rewrites fds c c') (hcheck : c'.checkOnly = c.checkOnly)
    (hclose : c'.closeCallback = c.closeCallback) (hb : c'.buffer = none ↔ c.buffer = none) :
    FdsContinue fds (updateFd fds c') where
  forward e he := by
    by_cases heq : e = c
    · exact ⟨c', (mem_updateFd hwf hr).mpr (Or.inl rfl), heq ▸ hr.address, heq ▸ hr.descriptor,
        heq ▸ hclose, heq ▸ hb⟩
    · exact ⟨e, (mem_updateFd hwf hr).mpr (Or.inr ⟨he, heq⟩), rfl, rfl, rfl, Iff.rfl⟩
  backward e he := by
    rcases (mem_updateFd hwf hr).mp he with rfl | ⟨he, -⟩
    · exact Or.inl ⟨c, hr.mem, hr.descriptor.symm, hcheck, hb⟩
    · exact Or.inl ⟨e, he, rfl, rfl, Iff.rfl⟩

lemma CallEffect.keep {ctx ctx' : PcommContext} {call : WriteCall} (h : CallEffect ctx call ctx')
    (hwf : FdsWf ctx.writeFds ctx.nextAddress) : CallsKeep ctx ctx' := by
  have hadded : ∀ fd data, Grows PcommEvent.OffHeap ctx.trace (ctx.trace ++ [.added fd data]) :=
    fun fd data => .single _ trivial
  cases h with
  | none writes next trace =>
    refine ⟨fun _ => ?_, fun _ => ?_, fun _ => ?_⟩
    · rw [writes]
      exact hwf.mono next
    · rw [writes]
      exact .refl _
    · rw [trace]
      exact .refl _ _
  | lost fd data lost writes next trace =>
    refine ⟨fun _ => ?_, fun _ => ?_, fun _ => ?_⟩
    · rw [writes]
      exact hwf.mono next
    · rw [writes]
      exact .refl _
    · rw [trace]
      exact hadded fd data
  | monitored c absent nonneg address wf check writes next trace =>
    refine ⟨fun _ => ?_, fun _ => ?_, fun _ => ?_⟩
    · rw [writes, next]
      exact hwf.append absent address nonneg wf
    · rw [writes]
      exact .append fun h => by simp [check] at h
    · rw [trace]
      exact .refl _ _
  | opened c absent nonneg address wf buffer used writes next trace =>
    refine ⟨fun _ => ?_, fun _ => ?_, fun _ => ?_⟩
    · rw [writes, next]
      exact hwf.append absent address nonneg wf
    · rw [writes]
      exact .append fun _ => buffer
    · rw [trace]
      exact hadded _ _
  | extended c c' data rewrites wf buffer buffer' buffered used check close writes next trace =>
    refine ⟨fun _ => ?_, fun _ => ?_, fun _ => ?_⟩
    · rw [writes, next]
      exact hwf.update rewrites wf
    · rw [writes]
      exact .update hwf rewrites check close (iff_of_false buffer' buffer)
    · rw [trace]
      exact hadded _ _

lemma StreamKept.call {ctx : PcommContext} (h : StreamKept ctx)
    (hwf : FdsWf ctx.writeFds ctx.nextAddress) {call : WriteCall} (hkept : ¬ call.Lost ctx) :
    StreamKept (call.run ctx) := by
  have heffect := call.effect hwf
  generalize call.run ctx = ctx' at heffect ⊢
  -- a longer trace has added at least as much
  have hmono : ∀ fd data c, c ∈ ctx.writeFds →
      c.used ≤ (addedTo (ctx.trace ++ [.added fd data]) c.fileDescriptor).length := by
    intro fd data c hc
    rw [addedTo_append, List.length_append]
    exact (h.used c hc).trans (Nat.le_add_right _ _)
  cases heffect with
  | none writes next trace =>
    exact ⟨by rw [writes, trace]; exact h.bytes, by rw [writes, trace]; exact h.used⟩
  | lost fd data lost writes next trace => exact absurd lost hkept
  | monitored c absent nonneg address wf check writes next trace =>
    refine ⟨fun fd => ?_, fun e he => ?_⟩
    · rw [writes, trace, bufferedFor_append absent]
      split_ifs with hfd
      · rw [hfd, buffered_none (wf.monitored check), ← bufferedFor_absent absent]
        exact h.bytes _
      · exact h.bytes fd
    · rw [writes] at he
      rw [trace]
      rcases List.mem_append.mp he with he | he
      · exact h.used e he
      · rw [List.mem_singleton.mp he, wf.empty (wf.monitored check)]
        exact Nat.zero_le _
  | opened c absent nonneg address wf buffer used writes next trace =>
    refine ⟨fun fd => ?_, fun e he => ?_⟩
    · have hbytes := h.bytes fd
      rw [writes, trace, bufferedFor_append absent]
      split_ifs with hfd
      · subst hfd
        rw [bufferedFor_absent absent, List.append_nil] at hbytes
        simp [PcommEvent.addedTo, PcommEvent.acceptedBy, hbytes]
      · simpa [PcommEvent.addedTo, PcommEvent.acceptedBy, Ne.symm hfd] using hbytes
    · rw [writes] at he
      rw [trace]
      rcases List.mem_append.mp he with he | he
      · exact hmono _ _ e he
      · rw [List.mem_singleton.mp he, used]
        simp [PcommEvent.addedTo]
  | extended c c' data rewrites wf buffer buffer' buffered used check close writes next trace =>
    refine ⟨fun fd => ?_, fun e he => ?_⟩
    · have hbytes := h.bytes fd
      rw [writes, trace, bufferedFor_update hwf rewrites wf]
      split_ifs with hfd
      · subst hfd
        rw [bufferedFor_mem hwf rewrites.mem] at hbytes
        simp [PcommEvent.addedTo, PcommEvent.acceptedBy, buffered, ← hbytes]
      · simpa [PcommEvent.addedTo, PcommEvent.acceptedBy, Ne.symm hfd] using hbytes
    · rw [writes] at he
      rw [trace]
      rcases (mem_updateFd hwf rewrites).mp he with rfl | ⟨he, -⟩
      · rw [used, rewrites.descriptor]
        have hused := h.used c rewrites.mem
        simpa [PcommEvent.addedTo] using hused
      · exact hmono _ _ e he

lemma callsKeep_foldl (calls : List WriteCall) (ctx : PcommContext)
    (hwf : FdsWf ctx.writeFds ctx.nextAddress) :
    CallsKeep ctx (calls.foldl WriteCall.run ctx) := by
  induction calls generalizing ctx with
  | nil => exact .refl ctx
  | cons call calls ih =>
    have hcall := (call.effect hwf).keep hwf
    exact hcall.trans (ih (call.run ctx) (hcall.wf hwf))

lemma StreamKept.calls {calls : List WriteCall} {ctx : PcommContext} (h : StreamKept ctx)
    (hwf : FdsWf ctx.writeFds ctx.nextAddress) (hkept : CallsKept calls ctx) :
    StreamKept (calls.foldl WriteCall.run ctx) := by
  induction calls generalizing ctx with
  | nil => exact h
  | cons call calls ih =>
    exact ih (h.call hwf hkept.1) (((call.effect hwf).keep hwf).wf hwf) hkept.2

/-! ### A selected descriptor -/

section Selected

variable {ctx : PcommContext} {fd : ℤ} {c : PcommFd}

lemma rewrites_write (o : WriteOutcome) (hc : c ∈ ctx.writeFds) :
    Rewrites ctx.writeFds c (writeFd o c).2 := ⟨hc, by simp, by simp⟩

lemma FdsWf.manage (hwf : FdsWf ctx.writeFds ctx.nextAddress) (hc : c ∈ ctx.writeFds)
    (o : WriteOutcome) :
    FdsWf (manageWrite o c ctx).writeFds (manageWrite o c ctx).nextAddress :=
  hwf.update (rewrites_write o hc) ((hwf.wf c hc).write o)

lemma StreamKept.manage (h : StreamKept ctx) (hwf : FdsWf ctx.writeFds ctx.nextAddress)
    (hc : c ∈ ctx.writeFds) {o : WriteOutcome} (hr : o.result ≠ .error) :
    StreamKept (manageWrite o c ctx) := by
  obtain ⟨hsplit, hle⟩ := writeFd_bytes (hwf.wf c hc) hr
  have hwf' := (hwf.wf c hc).write o
  refine ⟨fun fd => ?_, fun e he => ?_⟩
  · have hbytes := h.bytes fd
    show acceptedBy (ctx.trace ++ _) fd ++ bufferedFor (updateFd ctx.writeFds _) fd
      = addedTo (ctx.trace ++ _) fd
    rw [bufferedFor_update hwf (rewrites_write o hc) hwf']
    split_ifs with hfd
    · subst hfd
      rw [bufferedFor_mem hwf hc, ← hsplit] at hbytes
      simpa [PcommEvent.addedTo, PcommEvent.acceptedBy] using hbytes
    · simpa [PcommEvent.addedTo, PcommEvent.acceptedBy, Ne.symm hfd] using hbytes
  · have hadded : addedTo (manageWrite o c ctx).trace e.fileDescriptor
        = addedTo ctx.trace e.fileDescriptor := by
      simp [manageWrite, PcommContext.log, PcommEvent.addedTo]
    rw [hadded]
    rcases (mem_updateFd hwf (rewrites_write o hc)).mp he with rfl | ⟨he, -⟩
    · rw [writeFd_descriptor]
      exact hle.trans (h.used c hc)
    · exact h.used e he

/-- The state in which the close callback is called: the context is removed and freed. -/
lemma closing_eq (hwf : FdsWf ctx.writeFds ctx.nextAddress) (hc : c ∈ ctx.writeFds)
    (address : ℕ) :
    closing address c.fileDescriptor ctx = { ctx with
      writeFds := ctx.writeFds.eraseP (·.fileDescriptor = c.fileDescriptor)
      freed := c :: ctx.freed
      trace := ctx.trace ++ [.touched address, .released c.address c.fileDescriptor,
        .touched address] } := by
  have hsign : ¬ c.fileDescriptor < 0 := not_lt.mpr (hwf.nonneg c hc)
  simp [closing, removeFd, hsign, PcommContext.log, PcommContext.fds, PcommContext.setFds,
    hwf.seek hc]

/-- What happens after the write and its callback. -/
lemma finishWrite_eq (close : PcommContext → PcommContext)
    (hwf : FdsWf ctx.writeFds ctx.nextAddress) (hc : c ∈ ctx.writeFds) :
    finishWrite close c.address ctx
      = if c.buffer = none then
          (if c.closeCallback then close (closing c.address c.fileDescriptor ctx)
            else closing c.address c.fileDescriptor ctx).log
              (.released c.address c.fileDescriptor)
        else ctx.log (.touched c.address) := by
  have hderef : (ctx.log (.touched c.address)).deref .write c.address = some c := by
    show (ctx.writeFds ++ ctx.freed).find? (·.address = c.address) = some c
    rw [List.find?_append, find?_key PcommFd.address hwf.addresses hc]
    rfl
  have hused : c.buffer = none ∨ c.used = 0 ↔ c.buffer = none := by
    refine or_iff_left_of_imp fun h0 => ?_
    by_contra hb
    obtain ⟨buffer, hb⟩ := Option.ne_none_iff_exists'.mp hb
    exact ((hwf.wf c hc).filled buffer hb).1.ne' h0
  simp only [finishWrite, hderef, hused]
  rfl

/-- The context of a managed write after it and its callback. -/
lemma written_spec (hwf : FdsWf ctx.writeFds ctx.nextAddress) (hc : c ∈ ctx.writeFds)
    (fd : ℤ) (o : FdOutcome WriteCall) :
    FdsWf (written fd o c ctx).writeFds (written fd o c ctx).nextAddress ∧
      FdsContinue (updateFd ctx.writeFds (writeFd o.write c).2) (written fd o c ctx).writeFds ∧
      Grows PcommEvent.OffHeap ctx.trace (written fd o c ctx).trace := by
  have hmanage := hwf.manage hc o.write
  have haccepted : Grows PcommEvent.OffHeap ctx.trace (manageWrite o.write c ctx).trace :=
    .single _ trivial
  simp only [written]
  split_ifs
  · have hcalls := callsKeep_foldl o.io ((manageWrite o.write c ctx).log (.dispatched .write fd))
      hmanage
    refine ⟨hcalls.wf hmanage, hcalls.continues hmanage, ?_⟩
    have hdispatched : Grows PcommEvent.OffHeap (manageWrite o.write c ctx).trace
        ((manageWrite o.write c ctx).log (.dispatched .write fd)).trace :=
      .single (e := .dispatched .write fd) _ trivial
    exact (haccepted.trans hdispatched).trans (hcalls.trace hmanage)
  · exact ⟨hmanage, .refl _, haccepted⟩

lemma StreamKept.of_written (h : StreamKept ctx) (hwf : FdsWf ctx.writeFds ctx.nextAddress)
    (hc : c ∈ ctx.writeFds) {o : FdOutcome WriteCall} (hr : o.write.result ≠ .error)
    (hio : c.ioCallback = true →
      CallsKept o.io ((manageWrite o.write c ctx).log (.dispatched .write fd))) :
    StreamKept (written fd o c ctx) := by
  have hmanage := h.manage hwf hc hr
  simp only [written]
  split_ifs with hset
  · exact (hmanage.log (e := .dispatched .write fd) trivial).calls (hwf.manage hc o.write)
      (hio hset)
  · exact hmanage

/-- A context as it is found after the callback of its write. -/
lemma exists_written (hwf : FdsWf ctx.writeFds ctx.nextAddress) (hc : c ∈ ctx.writeFds)
    (fd : ℤ) (o : FdOutcome WriteCall) :
    ∃ c' ∈ (written fd o c ctx).writeFds, c'.address = c.address ∧
      c'.fileDescriptor = c.fileDescriptor ∧ c'.closeCallback = c.closeCallback ∧
      (c'.buffer = none ↔ (writeFd o.write c).2.buffer = none) := by
  obtain ⟨-, hcont, -⟩ := written_spec hwf hc fd o
  have hmem := (mem_updateFd hwf (rewrites_write o.write hc)).mpr (Or.inl rfl)
  obtain ⟨c', hc', ha, hd, hclose, hb⟩ := hcont.forward _ hmem
  exact ⟨c', hc', by simpa using ha, by simpa using hd, by simpa using hclose, hb⟩

end Selected

/-! ### One step -/

/-- Between steps a managed context has bytes. -/
structure WriteInv (ctx : PcommContext) : Prop where
  wf : FdsWf ctx.writeFds ctx.nextAddress
  settled : ∀ c ∈ ctx.writeFds, c.checkOnly = false → c.buffer ≠ none

lemma WriteInv.continues {ctx ctx' : PcommContext} (h : WriteInv ctx)
    (hwf : FdsWf ctx'.writeFds ctx'.nextAddress) (hcont : FdsContinue ctx.writeFds ctx'.writeFds) :
    WriteInv ctx' where
  wf := hwf
  settled c' hc' hcheck := by
    rcases hcont.backward c' hc' with ⟨c, hc, -, hsame, hb⟩ | hnew
    · exact mt hb.mp (h.settled c hc (hsame.symm.trans hcheck))
    · exact hnew hcheck

lemma WriteInv.log {ctx : PcommContext} (h : WriteInv ctx) (event : PcommEvent) :
    WriteInv (ctx.log event) := ⟨h.wf, h.settled⟩

lemma WriteInv.calls {ctx : PcommContext} (h : WriteInv ctx) (calls : List WriteCall) :
    WriteInv (calls.foldl WriteCall.run ctx) :=
  have hkeep := callsKeep_foldl calls ctx h.wf
  h.continues (hkeep.wf h.wf) (hkeep.continues h.wf)

/-- The state after a managed write, its callback and, if the buffer is empty, the removal of the
context. -/
inductive ReadyEffect (ctx : PcommContext) (fd : ℤ) (o : FdOutcome WriteCall) :
    PcommContext → Prop
  | skipped (idle : ∀ c, ctx.exitNow = false → seekFd ctx.writeFds fd = some c →
      c.checkOnly = true) : ReadyEffect ctx fd o ctx
  | notified (c : PcommFd) (running : ctx.exitNow = false) (mem : c ∈ ctx.writeFds)
      (check : c.checkOnly = true)
      (descriptor : c.fileDescriptor = fd) (ready : c.readyCallback = true) :
      ReadyEffect ctx fd o (o.ready.foldl WriteCall.run (ctx.log (.dispatched .write fd)))
  | kept (c : PcommFd) (running : ctx.exitNow = false) (mem : c ∈ ctx.writeFds)
      (check : c.checkOnly = false)
      (descriptor : c.fileDescriptor = fd) (left : o.write.result.count c.used ≠ c.used) :
      ReadyEffect ctx fd o ((written fd o c ctx).log (.touched c.address))
  | drained (c c' : PcommFd) (running : ctx.exitNow = false) (mem : c ∈ ctx.writeFds)
      (check : c.checkOnly = false)
      (descriptor : c.fileDescriptor = fd) (all : o.write.result.count c.used = c.used)
      (mem' : c' ∈ (written fd o c ctx).writeFds) (address : c'.address = c.address)
      (descriptor' : c'.fileDescriptor = fd) (close : c'.closeCallback = c.closeCallback)
      (buffer : c'.buffer = none) :
      ReadyEffect ctx fd o ((if c.closeCallback then
        o.close.foldl WriteCall.run (closing c.address fd (written fd o c ctx))
        else closing c.address fd (written fd o c ctx)).log (.released c.address fd))

lemma ready_effect {ctx : PcommContext} (h : WriteInv ctx) (fd : ℤ) (o : FdOutcome WriteCall) :
    ReadyEffect ctx fd o ((WriteEvent.ready fd o).step ctx) := by
  cases hexit : ctx.exitNow with
  | true =>
    simp only [WriteEvent.step, hexit, if_true]
    exact .skipped fun c hrun => by simp [hexit] at hrun
  | false =>
    simp only [WriteEvent.step, hexit, Bool.false_eq_true, if_false, processFd, processWriteFd]
    cases hseek : seekFd ctx.writeFds fd with
    | none => exact .skipped fun c _ hsome => by simp [hseek] at hsome
    | some c =>
      have hc := seekFd_mem hseek
      have hd := seekFd_descriptor hseek
      cases hcheck : c.checkOnly with
      | true =>
        cases hready : c.readyCallback with
        | true =>
          simp only [hcheck, hready, if_true]
          exact .notified c hexit hc hcheck hd hready
        | false =>
          simp only [hcheck, hready, if_true, Bool.false_eq_true, if_false]
          refine .skipped fun e _ he => ?_
          rw [hseek] at he
          rwa [← Option.some.inj he]
      | false =>
        simp only [hcheck, Bool.false_eq_true, if_false]
        obtain ⟨c', hc', ha, hd', hclose, hb⟩ := exists_written h.wf hc fd o
        obtain ⟨hwf, -, -⟩ := written_spec h.wf hc fd o
        have hfinish := finishWrite_eq (fun ctx => o.close.foldl WriteCall.run ctx) hwf hc'
        rw [writeFd_buffer (h.wf.wf c hc) (h.settled c hc hcheck)] at hb
        show ReadyEffect ctx fd o (finishWrite _ c.address (written fd o c ctx))
        rw [← ha, hfinish]
        by_cases hall : o.write.result.count c.used = c.used
        · rw [if_pos (hb.mpr hall), ha, hd', hd, hclose]
          exact .drained c c' hexit hc hcheck hd hall hc' ha (hd'.trans hd) hclose (hb.mpr hall)
        · rw [if_neg (mt hb.mp hall), ha]
          exact .kept c hexit hc hcheck hd hall

section Step

variable {ctx : PcommContext} {fd : ℤ} {o : FdOutcome WriteCall} {c : PcommFd}

/-- After a write, contexts without bytes are those whose last byte was taken. -/
lemma written_settled (h : WriteInv ctx) (hc : c ∈ ctx.writeFds) (hcheck : c.checkOnly = false)
    {e : PcommFd} (he : e ∈ (written fd o c ctx).writeFds)
    (hleft : e.fileDescriptor ≠ c.fileDescriptor ∨ o.write.result.count c.used ≠ c.used)
    (hmanaged : e.checkOnly = false) : e.buffer ≠ none := by
  obtain ⟨-, hcont, -⟩ := written_spec h.wf hc fd o
  rcases hcont.backward e he with ⟨e', he', hd, hsame, hb⟩ | hnew
  · apply mt hb.mp
    rcases (mem_updateFd h.wf (rewrites_write o.write hc)).mp he' with rfl | ⟨he', -⟩
    · rw [writeFd_buffer (h.wf.wf c hc) (h.settled c hc hcheck)]
      apply hleft.resolve_left
      simpa using hd.symm
    · exact h.settled e' he' (hsame.symm.trans hmanaged)
  · exact hnew hmanaged

lemma WriteInv.of_closing {ctx' : PcommContext} (hwf : FdsWf ctx'.writeFds ctx'.nextAddress)
    (hc : c ∈ ctx'.writeFds)
    (hothers : ∀ e ∈ ctx'.writeFds, e.fileDescriptor ≠ c.fileDescriptor → e.checkOnly = false →
      e.buffer ≠ none) (address : ℕ) :
    WriteInv (closing address c.fileDescriptor ctx') := by
  rw [closing_eq hwf hc]
  refine ⟨hwf.erase _, fun e he hcheck => ?_⟩
  obtain ⟨he, hne⟩ := (mem_eraseFd hwf).mp he
  exact hothers e he hne hcheck

lemma WriteInv.ready (h : WriteInv ctx) (fd : ℤ) (o : FdOutcome WriteCall) :
    WriteInv ((WriteEvent.ready fd o).step ctx) := by
  have heffect := ready_effect h fd o
  generalize (WriteEvent.ready fd o).step ctx = ctx' at heffect ⊢
  cases heffect with
  | skipped idle => exact h
  | notified c running mem check descriptor ready => exact (h.log _).calls _
  | kept c running mem check descriptor left =>
    obtain ⟨hwf, -, -⟩ := written_spec h.wf mem fd o
    exact ⟨hwf, fun e he hcheck => written_settled h mem check he (Or.inr left) hcheck⟩
  | drained c c' running mem check descriptor all mem' address descriptor' close buffer =>
    obtain ⟨hwf, -, -⟩ := written_spec h.wf mem fd o
    subst descriptor'
    have hclosing : WriteInv (closing c.address c'.fileDescriptor
        (written c'.fileDescriptor o c ctx)) := by
      refine .of_closing hwf mem' (fun e he hne hcheck => ?_) _
      exact written_settled h mem check he (Or.inl (by rwa [descriptor])) hcheck
    split_ifs
    · exact (hclosing.calls _).log _
    · exact hclosing.log _

lemma WriteInv.step (h : WriteInv ctx) (e : WriteEvent) : WriteInv (e.step ctx) := by
  cases e with
  | call c => exact h.calls [c]
  | ready fd o => exact h.ready fd o

lemma StreamKept.of_closing (h : StreamKept ctx) (hwf : FdsWf ctx.writeFds ctx.nextAddress)
    (hc : c ∈ ctx.writeFds) (hb : c.buffer = none) (address : ℕ) :
    StreamKept (closing address c.fileDescriptor ctx) := by
  rw [closing_eq hwf hc]
  refine ⟨fun fd => ?_, fun e he => ?_⟩
  · have hbytes := h.bytes fd
    show acceptedBy (ctx.trace ++ _) fd ++ bufferedFor (ctx.writeFds.eraseP _) fd
      = addedTo (ctx.trace ++ _) fd
    rw [bufferedFor_erase hwf]
    split_ifs with hfd
    · rw [hfd, bufferedFor_mem hwf hc, buffered_none hb] at hbytes
      simpa [addedTo, acceptedBy, PcommEvent.addedTo, PcommEvent.acceptedBy, hfd] using hbytes
    · simpa [addedTo, acceptedBy, PcommEvent.addedTo, PcommEvent.acceptedBy] using hbytes
  · have hused := h.used e ((mem_eraseFd hwf).mp he).1
    simpa [addedTo, PcommEvent.addedTo] using hused

/-- A step whose write does not fail, and whose calls lose nothing, keeps the bytes. -/
lemma StreamKept.step (h : StreamKept ctx) (hinv : WriteInv ctx) {e : WriteEvent}
    (hkept : BytesKept ctx e) : StreamKept (e.step ctx) := by
  cases e with
  | call c => exact h.call hinv.wf hkept
  | ready fd o =>
    have heffect := ready_effect hinv fd o
    generalize (WriteEvent.ready fd o).step ctx = ctx' at heffect ⊢
    cases heffect with
    | skipped idle => exact h
    | notified c running mem check descriptor ready =>
      have hseek : seekFd ctx.writeFds fd = some c := descriptor ▸ hinv.wf.seek mem
      exact (h.log (e := .dispatched .write fd) trivial).calls hinv.wf
        ((hkept running c hseek).1 check ready)
    | kept c running mem check descriptor left =>
      have hseek : seekFd ctx.writeFds fd = some c := descriptor ▸ hinv.wf.seek mem
      obtain ⟨hr, hio, -⟩ := (hkept running c hseek).2 check
      exact (h.of_written hinv.wf mem hr hio).log (e := .touched _) trivial
    | drained c c' running mem check descriptor all mem' address descriptor' close buffer =>
      have hseek : seekFd ctx.writeFds fd = some c := descriptor ▸ hinv.wf.seek mem
      obtain ⟨hr, hio, hclose⟩ := (hkept running c hseek).2 check
      obtain ⟨hwf, -, -⟩ := written_spec hinv.wf mem fd o
      subst descriptor'
      have hclosing := (h.of_written hinv.wf mem hr hio).of_closing hwf mem' buffer c.address
      split_ifs with hset
      · have hwf' : FdsWf (closing c.address c'.fileDescriptor
              (written c'.fileDescriptor o c ctx)).writeFds
            (closing c.address c'.fileDescriptor
              (written c'.fileDescriptor o c ctx)).nextAddress := by
          rw [closing_eq hwf mem']
          exact hwf.erase _
        exact (hclosing.calls hwf' (hclose all hset)).log (e := .released _ _) trivial
      · exact hclosing.log (e := .released _ _) trivial

/-- An event that frees no block. -/
def PcommEvent.NoRelease (e : PcommEvent) : Prop := ∀ address fd, e ≠ .released address fd

lemma PcommEvent.OffHeap.noRelease {e : PcommEvent} (h : e.OffHeap) : e.NoRelease := by
  rintro address fd rfl
  exact h

/-- A step whose write leaves bytes, or that writes nothing, frees no block. -/
lemma step_noRelease (h : WriteInv ctx) {e : WriteEvent} (hleft : ¬ Drains ctx e) :
    Grows PcommEvent.NoRelease ctx.trace (e.step ctx).trace := by
  have hcalls : ∀ (calls : List WriteCall) {ctx : PcommContext}, WriteInv ctx →
      Grows PcommEvent.NoRelease ctx.trace (calls.foldl WriteCall.run ctx).trace :=
    fun calls _ h => ((callsKeep_foldl calls _ h.wf).trace h.wf).imp fun _ => (·.noRelease)
  cases e with
  | call c => exact hcalls [c] h
  | ready fd o =>
    have heffect := ready_effect h fd o
    generalize (WriteEvent.ready fd o).step ctx = ctx' at heffect ⊢
    cases heffect with
    | skipped idle => exact .refl _ _
    | notified c running mem check descriptor ready =>
      have hdispatched : Grows PcommEvent.NoRelease ctx.trace
          (ctx.log (.dispatched .write fd)).trace :=
        .single (e := .dispatched .write fd) _ (by simp [PcommEvent.NoRelease])
      exact hdispatched.trans (hcalls _ (h.log _))
    | kept c running mem check descriptor left =>
      obtain ⟨-, -, htrace⟩ := written_spec h.wf mem fd o
      have htouched : Grows PcommEvent.NoRelease (written fd o c ctx).trace
          ((written fd o c ctx).log (.touched c.address)).trace :=
        .single (e := .touched c.address) _ (by simp [PcommEvent.NoRelease])
      exact (htrace.imp fun _ => (·.noRelease)).trans htouched
    | drained c c' running mem check descriptor all mem' address descriptor' close buffer =>
      exact absurd ⟨running, c, descriptor ▸ h.wf.seek mem, check, all⟩ hleft

/-- A step whose write takes the last byte frees the block of its context twice. -/
lemma step_releases_twice (h : WriteInv ctx) {e : WriteEvent} (hdrains : Drains ctx e) :
    ∃ address fd, 2 ≤ (e.step ctx).trace.count (.released address fd) := by
  cases e with
  | call c => exact hdrains.elim
  | ready fd o =>
    obtain ⟨running, c, hseek, check, hall⟩ := hdrains
    have hsame : ∀ c' ∈ ctx.writeFds, c'.fileDescriptor = fd → c' = c := fun c' hc' hd => by
      have hseek' := h.wf.seek hc'
      rw [hd, hseek] at hseek'
      exact (Option.some.inj hseek').symm
    have heffect := ready_effect h fd o
    generalize (WriteEvent.ready fd o).step ctx = ctx' at heffect ⊢
    cases heffect with
    | skipped idle =>
      have hmonitored := idle c running hseek
      simp [check] at hmonitored
    | notified c' _ mem check' descriptor ready =>
      rw [hsame c' mem descriptor, check] at check'
      cases check'
    | kept c' _ mem _ descriptor left =>
      rw [hsame c' mem descriptor] at left
      exact absurd hall left
    | drained c' c'' _ mem _ descriptor _ mem' address descriptor' close buffer =>
      subst descriptor'
      obtain ⟨hwf, -, -⟩ := written_spec h.wf mem c''.fileDescriptor o
      have hclosing := closing_eq hwf mem' c'.address
      refine ⟨c'.address, c''.fileDescriptor, ?_⟩
      have hfirst : 1 ≤ (closing c'.address c''.fileDescriptor
          (written c''.fileDescriptor o c' ctx)).trace.count
            (.released c'.address c''.fileDescriptor) := by
        rw [hclosing, address]
        exact List.count_pos_iff.mpr (by simp)
      simp only [PcommContext.log, List.count_append, List.count_singleton_self]
      apply Nat.succ_le_succ
      split_ifs
      · have hwf' : FdsWf (closing c'.address c''.fileDescriptor
            (written c''.fileDescriptor o c' ctx)).writeFds (closing c'.address
              c''.fileDescriptor (written c''.fileDescriptor o c' ctx)).nextAddress := by
          rw [hclosing]
          exact hwf.erase _
        obtain ⟨more, hmore, -⟩ := (callsKeep_foldl o.close _ hwf').trace hwf'
        rw [hmore, List.count_append]
        exact hfirst.trans (Nat.le_add_right _ _)
      · exact hfirst

end Step

/-! ### Runs -/

section Run

variable {ctx : PcommContext} {events : List WriteEvent}

lemma writeRun_append (ctx : PcommContext) (before after : List WriteEvent) :
    writeRun ctx (before ++ after) = writeRun (writeRun ctx before) after := List.foldl_append

lemma Along.of_append {P : PcommContext → WriteEvent → Prop} {before after : List WriteEvent}
    (h : Along P (before ++ after) ctx) : Along P before ctx := by
  induction before generalizing ctx with
  | nil => trivial
  | cons e before ih => exact ⟨h.1, ih h.2⟩

/-- A run with a step that does not meet a condition has a first part that leads to it. -/
lemma exists_of_not_along {P : PcommContext → WriteEvent → Prop} (h : ¬ Along P events ctx) :
    ∃ before e after, events = before ++ e :: after ∧ ¬ P (writeRun ctx before) e := by
  induction events generalizing ctx with
  | nil => exact absurd trivial h
  | cons e events ih =>
    by_cases hfirst : P ctx e
    · obtain ⟨before, e', after, rfl, hno⟩ := ih fun hrest => h ⟨hfirst, hrest⟩
      exact ⟨e :: before, e', after, rfl, hno⟩
    · exact ⟨[], e, events, rfl, hfirst⟩

lemma WriteInv.run (h : WriteInv ctx) (events : List WriteEvent) :
    WriteInv (writeRun ctx events) := by
  induction events generalizing ctx with
  | nil => exact h
  | cons e events ih => exact ih (h.step e)

lemma StreamKept.run (h : StreamKept ctx) (hinv : WriteInv ctx)
    (hkept : Along BytesKept events ctx) : StreamKept (writeRun ctx events) := by
  induction events generalizing ctx with
  | nil => exact h
  | cons e events ih => exact ih (h.step hinv hkept.1) (hinv.step e) hkept.2

lemma run_noRelease (hinv : WriteInv ctx) (hleft : Along (fun ctx e => ¬ Drains ctx e) events ctx) :
    Grows PcommEvent.NoRelease ctx.trace (writeRun ctx events).trace := by
  induction events generalizing ctx with
  | nil => exact .refl _ _
  | cons e events ih => exact (step_noRelease hinv hleft.1).trans (ih (hinv.step e) hleft.2)

/-- A state with a trace that frees nothing. -/
lemma WriteInv.releasedOnce (h : WriteInv ctx) (htrace : ∀ e ∈ ctx.trace, e.NoRelease) :
    ReleasedOnce ctx := by
  have hno : ∀ before after address fd,
      ctx.trace ≠ before ++ PcommEvent.released address fd :: after := by
    intro before after address fd heq
    exact htrace (.released address fd) (by rw [heq]; simp) address fd rfl
  refine ⟨fun c hc hcheck => ?_, fun address fd => ?_, fun _ _ _ _ heq => ?_, fun _ _ _ _ heq => ?_⟩
  · exact (h.wf.wf c hc).buffered_ne_nil (h.settled c hc hcheck)
  · have hmem : .released address fd ∉ ctx.trace := fun hmem => htrace _ hmem address fd rfl
    rw [List.count_eq_zero_of_not_mem hmem]
    exact Nat.zero_le _
  · exact absurd heq (hno _ _ _ _)
  · exact absurd heq (hno _ _ _ _)

end Run

/-- From a context that manages no writes: the bytes of every descriptor are kept in every run
whose writes do not fail and whose additions are not lost; its contexts are freed properly in all
states of a run exactly when no write of it takes a last byte. -/
theorem managed_writes {ctx : PcommContext} (hwrites : ctx.writeFds = []) (htrace : ctx.trace = [])
    (events : List WriteEvent) :
    (Along BytesKept events ctx → ∀ before, before <+: events →
        StreamKept (writeRun ctx before)) ∧
      ((∀ before, before <+: events → ReleasedOnce (writeRun ctx before)) ↔
        Along (fun ctx e => ¬ Drains ctx e) events ctx) := by
  have hinv : WriteInv ctx := by
    refine ⟨⟨?_, ?_, ?_, ?_, ?_⟩, ?_⟩ <;> simp [hwrites]
  have hkept : StreamKept ctx := by
    refine ⟨fun fd => ?_, ?_⟩ <;> simp [hwrites, htrace, addedTo, acceptedBy, bufferedFor, seekFd]
  refine ⟨?_, ?_, ?_⟩
  · rintro halong before ⟨after, rfl⟩
    exact hkept.run hinv halong.of_append
  · intro h
    by_contra hnot
    obtain ⟨before, e, after, rfl, hdrains⟩ := exists_of_not_along hnot
    obtain ⟨address, fd, htwice⟩ := step_releases_twice (hinv.run before) (not_not.mp hdrains)
    have honce := (h (before ++ [e]) ⟨after, by simp⟩).once address fd
    rw [writeRun_append] at honce
    exact absurd (htwice.trans honce) (by decide)
  · rintro halong before ⟨after, rfl⟩
    refine (hinv.run before).releasedOnce fun e he => ?_
    obtain ⟨more, hmore, hall⟩ := run_noRelease hinv halong.of_append
    rw [hmore, htrace, List.nil_append] at he
    exact hall e he

/-- Three bytes for a descriptor, and what a write of them returns. -/
def writeThree (result : WriteResult) : List WriteEvent :=
  [.call (.addWriteFd 5 [1, 2, 3] ⟨true, true, true⟩ false false),
    .ready 5 ⟨⟨result, 0, true⟩, ⟨.eof, true, true⟩, [], [], []⟩]

theorem managed_writes_short :
    (Along BytesKept (writeThree (.wrote 2)) pcommInit →
        ∀ before, before <+: writeThree (.wrote 2) → StreamKept (writeRun pcommInit before)) ∧
      ((∀ before, before <+: writeThree (.wrote 2) →
          ReleasedOnce (writeRun pcommInit before)) ↔
        Along (fun ctx e => ¬ Drains ctx e) (writeThree (.wrote 2)) pcommInit) :=
  managed_writes rfl rfl (writeThree (.wrote 2))

/-- A write that fails puts a byte before the buffered ones, and one that takes them all frees
their context twice. -/
theorem managed_writes_not :
    ¬ StreamKept (writeRun pcommInit (writeThree .error)) ∧
      ¬ ReleasedOnce (writeRun pcommInit (writeThree (.wrote 3))) := by
  constructor
  · intro h
    have hbytes := h.bytes 5
    revert hbytes
    decide +kernel
  · intro h
    have honce := h.once 0 5
    revert honce
    decide +kernel

end StationProcessor
