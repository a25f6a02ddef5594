import StationProcessor.Pcomm.Select

/-!
# Managed writes

Runs of additions and of selected write descriptors. The bytes a descriptor has taken and the
bytes buffered for it make up the bytes added, as long as `write()` does not fail. A context whose
last byte is taken is freed twice.
-/

namespace StationProcessor

/-! ### Runs -/

/-- A call of the program, or a descriptor that `select` has returned, with the calls made from
its callbacks. -/
inductive WriteEvent
  | call (c : WriteCall)
  | ready (fd : ℤ) (o : FdOutcome WriteCall)

def WriteEvent.step (ctx : PcommContext) : WriteEvent → PcommContext
  | .call c => c.run ctx
  | .ready fd o => if ctx.exitNow then ctx else processFd WriteCall.run .write o fd ctx

def writeRun (ctx : PcommContext) (events : List WriteEvent) : PcommContext :=
  events.foldl WriteEvent.step ctx

/-- All steps of a run meet a condition on the state before them. -/
def Along (P : PcommContext → WriteEvent → Prop) : List WriteEvent → PcommContext → Prop
  | [], _ => True
  | e :: events, ctx => P ctx e ∧ Along P events (e.step ctx)

/-- `_process_selected_fds` on the write list is a run over the descriptors of the set. -/
lemma processSelectedFds_write (set : List ℤ) (outcome : ℤ → FdOutcome WriteCall)
    (ctx : PcommContext) :
    processSelectedFds WriteCall.run .write (some set) outcome ctx
      = some (writeRun ctx (((ctx.writeFds.map PcommFd.fileDescriptor).filter (· ∈ set)).map
          fun fd => .ready fd (outcome fd))) := by
  unfold processSelectedFds
  show List.foldlM _ ctx (ctx.writeFds.map PcommFd.fileDescriptor) = _
  generalize ctx.writeFds.map PcommFd.fileDescriptor = fds
  induction fds generalizing ctx with
  | nil => rfl
  | cons fd fds ih =>
    rw [List.foldlM_cons]
    by_cases hexit : ctx.exitNow
    · by_cases hset : fd ∈ set
      · simp [processRound, hexit, hset, ih, writeRun, WriteEvent.step]
      · simp [processRound, hexit, hset, ih]
    · by_cases hset : fd ∈ set
      · simp [processRound, hexit, hset, ih, writeRun, WriteEvent.step]
      · simp [processRound, hexit, hset, ih]

/-! ### What is added, taken and buffered -/

/-- The bytes of one event of the trace that a descriptor is concerned with. -/
def PcommEvent.addedTo (fd : ℤ) : PcommEvent → List UInt8
  | .added fd' data => if fd' = fd then data else []
  | _ => []

def PcommEvent.acceptedBy (fd : ℤ) : PcommEvent → List UInt8
  | .accepted fd' data => if fd' = fd then data else []
  | _ => []

def addedTo (trace : List PcommEvent) (fd : ℤ) : List UInt8 := trace.flatMap (·.addedTo fd)

def acceptedBy (trace : List PcommEvent) (fd : ℤ) : List UInt8 := trace.flatMap (·.acceptedBy fd)

def bufferedFor (fds : List PcommFd) (fd : ℤ) : List UInt8 :=
  ((seekFd fds fd).map PcommFd.buffered).getD []

/-- The bytes a descriptor has taken, followed by those buffered for it, are the bytes added; and
a context counts no more bytes than were added. -/
structure StreamKept (ctx : PcommContext) : Prop where
  bytes : ∀ fd, acceptedBy ctx.trace fd ++ bufferedFor ctx.writeFds fd = addedTo ctx.trace fd
  used : ∀ c ∈ ctx.writeFds, c.used ≤ (addedTo ctx.trace c.fileDescriptor).length

/-- A managed context is kept as long as it has bytes, is freed once, after its last byte, and is
not used after that. -/
structure ReleasedOnce (ctx : PcommContext) : Prop where
  kept : ∀ c ∈ ctx.writeFds, c.checkOnly = false → c.buffered ≠ []
  once : ∀ address fd, ctx.trace.count (.released address fd) ≤ 1
  last : ∀ before after address fd, ctx.trace = before ++ .released address fd :: after →
    acceptedBy before fd = addedTo before fd
  unused : ∀ before after address fd, ctx.trace = before ++ .released address fd :: after →
    .touched address ∉ after

/-! ### Conditions -/

/-- An addition that reports success and stores nothing: to a descriptor that is only monitored,
or to a new one when there is no memory for the entry of the list. -/
def WriteCall.Lost (ctx : PcommContext) : WriteCall → Prop
  | .addWriteFd fd data alloc _ _ =>
    ctx.exitRequest = false ∧ data ≠ [] ∧ 0 ≤ fd ∧
      match seekFd ctx.writeFds fd with
      | some c => c.checkOnly = true
      | none => alloc.context = true ∧ allocates alloc.buffer data.length = true ∧
          alloc.entry = false
  | _ => False

/-- No call of a list loses its bytes. -/
def CallsKept : List WriteCall → PcommContext → Prop
  | [], _ => True
  | c :: calls, ctx => ¬ c.Lost ctx ∧ CallsKept calls (c.run ctx)

/-- A managed context after its write and the callback of that. -/
def written (fd : ℤ) (o : FdOutcome WriteCall) (c : PcommFd) (ctx : PcommContext) :
    PcommContext :=
  let ctx := manageWrite o.write c ctx
  if c.ioCallback then o.io.foldl WriteCall.run (ctx.log (.dispatched .write fd)) else ctx

/-- The state in which the close callback of a context is called. -/
def closing (address : ℕ) (fd : ℤ) (ctx : PcommContext) : PcommContext :=
  (removeFd (ctx.log (.touched address)) .write fd).2.log (.touched address)

/-- No write fails, and no call loses its bytes. -/
def BytesKept (ctx : PcommContext) : WriteEvent → Prop
  | .call c => ¬ c.Lost ctx
  | .ready fd o => ctx.exitNow = false → ∀ c, seekFd ctx.writeFds fd = some c →
    (c.checkOnly = true → c.readyCallback = true →
      CallsKept o.ready (ctx.log (.dispatched .write fd))) ∧
    (c.checkOnly = false → o.write.result ≠ .error ∧
      (c.ioCallback = true →
        CallsKept o.io ((manageWrite o.write c ctx).log (.dispatched .write fd))) ∧
      (o.write.result.count c.used = c.used → c.closeCallback = true →
        CallsKept o.close (closing c.address fd (written fd o c ctx))))

/-- The write of a descriptor takes all the bytes of its context. -/
def Drains (ctx : PcommContext) : WriteEvent → Prop
  | .call _ => False
  | .ready fd o =>
    ctx.exitNow = false ∧ ∃ c, seekFd ctx.writeFds fd = some c ∧ c.checkOnly = false ∧
      o.write.result.count c.used = c.used

/-! ### Lists of contexts -/

/-- What holds of every context: one that is only monitored has no buffer, and a buffer holds the
bytes the context counts, at least one. -/
structure FdWf (c : PcommFd) : Prop where
  monitored : c.checkOnly = true → c.buffer = none
  empty : c.buffer = none → c.used = 0
  filled : ∀ buffer, c.buffer = some buffer →
    0 < c.used ∧ c.used ≤ buffer.length ∧ c.used < 2 ^ 64

/-- What holds of a list of write contexts, given the next address. -/
structure FdsWf (fds : List PcommFd) (nextAddress : ℕ) : Prop where
  descriptors : (fds.map PcommFd.fileDescriptor).Nodup
  addresses : (fds.map PcommFd.address).Nodup
  fresh : ∀ c ∈ fds, c.address < nextAddress
  nonneg : ∀ c ∈ fds, 0 ≤ c.fileDescriptor
  wf : ∀ c ∈ fds, FdWf c

section Lists

variable {fds : List PcommFd} {nextAddress : ℕ} {c c' : PcommFd} {fd : ℤ}

lemma seekFd_mem (h : seekFd fds fd = some c) : c ∈ fds := List.mem_of_find?_eq_some h

lemma seekFd_descriptor (h : seekFd fds fd = some c) : c.fileDescriptor = fd := by
  simpa using List.find?_some h

lemma seekFd_eq_none : seekFd fds fd = none ↔ ∀ c ∈ fds, c.fileDescriptor ≠ fd := by
  simp [seekFd]

/-- A member is what a search for its key finds, if keys are different. -/
lemma find?_key {α β : Type} [DecidableEq β] (key : α → β) {xs : List α} {x : α}
    (h : (xs.map key).Nodup) (hx : x ∈ xs) : xs.find? (key · = key x) = some x := by
  induction xs with
  | nil => simp at hx
  | cons y ys ih =>
    rw [List.map_cons, List.nodup_cons] at h
    rcases List.mem_cons.mp hx with rfl | hx
    · simp
    · have hne : key y ≠ key x := fun heq => h.1 (heq ▸ List.mem_map_of_mem hx)
      simpa [List.find?_cons, hne] using ih h.2 hx

lemma FdsWf.seek (h : FdsWf fds nextAddress) (hc : c ∈ fds) :
    seekFd fds c.fileDescriptor = some c := find?_key _ h.descriptors hc

lemma FdsWf.same_address (h : FdsWf fds nextAddress) (hc : c ∈ fds) (hc' : c' ∈ fds)
    (ha : c'.address = c.address) : c' = c := by
  have hfind := find?_key PcommFd.address h.addresses hc
  rw [← ha, find?_key PcommFd.address h.addresses hc'] at hfind
  exact Option.some.inj hfind

lemma FdsWf.mono (h : FdsWf fds nextAddress) {nextAddress' : ℕ} (hle : nextAddress ≤ nextAddress') :
    FdsWf fds nextAddress' where
  descriptors := h.descriptors
  addresses := h.addresses
  fresh c hc := (h.fresh c hc).trans_le hle
  nonneg := h.nonneg
  wf := h.wf

/-- A context written through its address. -/
structure Rewrites (fds : List PcommFd) (c c' : PcommFd) : Prop where
  mem : c ∈ fds
  address : c'.address = c.address
  descriptor : c'.fileDescriptor = c.fileDescriptor

lemma mem_updateFd (h : FdsWf fds nextAddress) (hr : Rewrites fds c c') {e : PcommFd} :
    e ∈ updateFd fds c' ↔ e = c' ∨ e ∈ fds ∧ e ≠ c := by
  simp only [updateFd, List.mem_map]
  constructor
  · rintro ⟨x, hx, rfl⟩
    split_ifs with ha
    · exact Or.inl rfl
    · exact Or.inr ⟨hx, fun heq => ha (by rw [heq, hr.address])⟩
  · rintro (rfl | ⟨he, hne⟩)
    · exact ⟨c, hr.mem, if_pos hr.address.symm⟩
    · refine ⟨e, he, if_neg fun ha => hne ?_⟩
      exact h.same_address hr.mem he (ha.trans hr.address)

lemma map_updateFd {β : Type} (key : PcommFd → β) (h : FdsWf fds nextAddress)
    (hr : Rewrites fds c c') (hkey : key c' = key c) :
    (updateFd fds c').map key = fds.map key := by
  rw [updateFd, List.map_map]
  refine List.map_congr_left fun e he => ?_
  simp only [Function.comp_apply]
  split_ifs with ha
  · rw [hkey, h.same_address hr.mem he (ha.trans hr.address)]
  · rfl

lemma FdsWf.update (h : FdsWf fds nextAddress) (hr : Rewrites fds c c') (hwf : FdWf c') :
    FdsWf (updateFd fds c') nextAddress where
  descriptors := by rw [map_updateFd _ h hr hr.descriptor]; exact h.descriptors
  addresses := by rw [map_updateFd _ h hr hr.address]; exact h.addresses
  fresh e he := by
    rcases (mem_updateFd h hr).mp he with rfl | ⟨he, -⟩
    · rw [hr.address]
      exact h.fresh c hr.mem
    · exact h.fresh e he
  nonneg e he := by
    rcases (mem_updateFd h hr).mp he with rfl | ⟨he, -⟩
    · rw [hr.descriptor]
      exact h.nonneg c hr.mem
    · exact h.nonneg e he
  wf e he := by
    rcases (mem_updateFd h hr).mp he with rfl | ⟨he, -⟩
    · exact hwf
    · exact h.wf e he

lemma seekFd_updateFd (h : FdsWf fds nextAddress) (hr : Rewrites fds c c') (hwf : FdWf c')
    (fd : ℤ) :
    seekFd (updateFd fds c') fd = if fd = c.fileDescriptor then some c' else seekFd fds fd := by
  have h' := h.update hr hwf
  split_ifs with hfd
  · rw [hfd, ← hr.descriptor]
    exact h'.seek ((mem_updateFd h hr).mpr (Or.inl rfl))
  · cases hseek : seekFd fds fd with
    | none =>
      rw [seekFd_eq_none] at hseek ⊢
      intro e he
      rcases (mem_updateFd h hr).mp he with rfl | ⟨he, -⟩
      · rw [hr.descriptor]
        exact Ne.symm hfd
      · exact hseek e he
    | some e =>
      have he := seekFd_descriptor hseek
      rw [← he]
      refine h'.seek ((mem_updateFd h hr).mpr (Or.inr ⟨seekFd_mem hseek, fun heq => hfd ?_⟩))
      rw [← he, heq]

lemma FdsWf.append (h : FdsWf fds nextAddress) (hseek : seekFd fds c.fileDescriptor = none)
    (ha : c.address = nextAddress) (hd : 0 ≤ c.fileDescriptor) (hwf : FdWf c) :
    FdsWf (fds ++ [c]) (nextAddress + 1) where
  descriptors := by
    rw [List.map_append, List.map_singleton, List.nodup_append]
    refine ⟨h.descriptors, List.nodup_singleton _, ?_⟩
    rintro d hd' _ hx rfl
    obtain ⟨e, he, rfl⟩ := List.mem_map.mp hd'
    exact seekFd_eq_none.mp hseek e he (List.mem_singleton.mp hx)
  addresses := by
    rw [List.map_append, List.map_singleton, List.nodup_append]
    refine ⟨h.addresses, List.nodup_singleton _, ?_⟩
    rintro d hd' _ hx rfl
    obtain ⟨e, he, rfl⟩ := List.mem_map.mp hd'
    have hlt := h.fresh e he
    rw [List.mem_singleton.mp hx, ha] at hlt
    exact lt_irrefl _ hlt
  fresh e he := by
    rcases List.mem_append.mp he with he | he
    · exact (h.fresh e he).trans (Nat.lt_succ_self _)
    · rw [List.mem_singleton.mp he, ha]
      exact Nat.lt_succ_self _
  nonneg e he := by
    rcases List.mem_append.mp he with he | he
    · exact h.nonneg e he
    · rwa [List.mem_singleton.mp he]
  wf e he := by
    rcases List.mem_append.mp he with he | he
    · exact h.wf e he
    · rwa [List.mem_singleton.mp he]

lemma seekFd_append (hseek : seekFd fds c.fileDescriptor = none) (fd : ℤ) :
    seekFd (fds ++ [c]) fd = if fd = c.fileDescriptor then some c else seekFd fds fd := by
  rw [seekFd, List.find?_append]
  split_ifs with hfd
  · subst hfd
    rw [show fds.find? (fun x => decide (x.fileDescriptor = c.fileDescriptor)) = none from hseek]
    simp
  · show (seekFd fds fd).or _ = _
    cases seekFd fds fd with
    | none => simp [Ne.symm hfd]
    | some e => rfl

/-- Erasing a key that occurs at most once. -/
lemma eraseP_key {α β : Type} [DecidableEq β] (key : α → β) (k : β) {xs : List α}
    (h : (xs.map key).Nodup) : xs.eraseP (key · = k) = xs.filter (key · ≠ k) := by
  induction xs with
  | nil => rfl
  | cons x xs ih =>
    rw [List.map_cons, List.nodup_cons] at h
    by_cases hx : key x = k
    · have hall : ∀ y ∈ xs, key y ≠ k := fun y hy heq =>
        h.1 (hx.trans heq.symm ▸ List.mem_map_of_mem hy)
      rw [List.eraseP_cons_of_pos (by simpa using hx), List.filter_cons_of_neg (by simpa using hx)]
      exact (List.filter_eq_self.mpr (by simpa using hall)).symm
    · simp [hx, ih h.2]

lemma FdsWf.erase (h : FdsWf fds nextAddress) (fd : ℤ) :
    FdsWf (fds.eraseP (·.fileDescriptor = fd)) nextAddress where
  descriptors := h.descriptors.sublist (List.eraseP_sublist.map _)
  addresses := h.addresses.sublist (List.eraseP_sublist.map _)
  fresh e he := h.fresh e (List.eraseP_subset he)
  nonneg e he := h.nonneg e (List.eraseP_subset he)
  wf e he := h.wf e (List.eraseP_subset he)

lemma mem_eraseFd (h : FdsWf fds nextAddress) {e : PcommFd} :
    e ∈ fds.eraseP (·.fileDescriptor = fd) ↔ e ∈ fds ∧ e.fileDescriptor ≠ fd := by
  rw [eraseP_key PcommFd.fileDescriptor fd h.descriptors]
  simp

lemma seekFd_eraseFd (h : FdsWf fds nextAddress) (fd' : ℤ) :
    seekFd (fds.eraseP (·.fileDescriptor = fd)) fd'
      = if fd' = fd then none else seekFd fds fd' := by
  split_ifs with hfd
  · rw [seekFd_eq_none]
    intro e he
    rw [hfd]
    exact ((mem_eraseFd h).mp he).2
  · cases hseek : seekFd fds fd' with
    | none =>
      rw [seekFd_eq_none] at hseek ⊢
      exact fun e he => hseek e ((mem_eraseFd h).mp he).1
    | some e =>
      have he := seekFd_descriptor hseek
      rw [← he]
      exact (h.erase fd).seek ((mem_eraseFd h).mpr ⟨seekFd_mem hseek, he ▸ hfd⟩)

end Lists

end StationProcessor
