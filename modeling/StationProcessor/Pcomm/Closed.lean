import StationProcessor.Pcomm.Select

/-!
# What calls and turns preserve

A relation between contexts that every change of a list keeps holds between the contexts before and
after any call and before and after the turn of a descriptor.
-/

namespace StationProcessor

/-! ### Changes of the lists -/

/-- The events of calls. -/
structure CallEvents (P : PcommEvent → Prop) : Prop where
  added : ∀ fd data, P (.added fd data)
  released : ∀ address fd, P (.released address fd)

/-- The events of a stream that is processed. -/
structure StreamEvents (P : PcommEvent → Prop) (stream : PcommStream) : Prop extends
    CallEvents P where
  accepted : ∀ fd data, P (.accepted fd data)
  touched : ∀ address, P (.touched address)
  dispatched : ∀ fd, P (.dispatched stream fd)

/-- A context with the list of a stream without the first entry of a number, whose block is
freed. -/
def PcommContext.erase (ctx : PcommContext) (stream : PcommStream) (fd : ℤ) (c : PcommFd) :
    PcommContext :=
  { ctx.setFds stream ((ctx.fds stream).eraseP (·.fileDescriptor = fd)) with
    freed := c :: ctx.freed }

/-- A relation that a new entry, a rewritten one, an erased one, the stops that are allowed and the
events of a kind keep. -/
structure PcommClosed (R : PcommContext → PcommContext → Prop) (P : PcommEvent → Prop)
    (allowed : Bool → Prop) : Prop where
  refl : ∀ ctx, R ctx ctx
  trans : ∀ {ctx ctx' ctx''}, R ctx ctx' → R ctx' ctx'' → R ctx ctx''
  log : ∀ ctx {e}, P e → R ctx (ctx.log e)
  append : ∀ ctx stream {c : PcommFd} entry, 0 ≤ c.fileDescriptor → c.address = ctx.nextAddress →
    R ctx (ctx.append stream c entry)
  update : ∀ ctx stream {c c' : PcommFd}, c ∈ ctx.fds stream → c'.address = c.address →
    c'.fileDescriptor = c.fileDescriptor →
    R ctx (ctx.setFds stream (updateFd (ctx.fds stream) c'))
  erase : ∀ (ctx : PcommContext) stream fd c, R ctx (ctx.erase stream fd c)
  stop : ∀ ctx {immediately}, allowed immediately → R ctx (pcommStop ctx immediately)

/-- Only stops that are allowed are among the calls. -/
def Permitted (allowed : Bool → Prop) (calls : List PcommCall) : Prop :=
  ∀ immediately, .write (.stop immediately) ∈ calls → allowed immediately

/-- The calls of the callbacks of a descriptor. -/
def FdOutcome.Permitted (allowed : Bool → Prop) (o : FdOutcome PcommCall) : Prop :=
  StationProcessor.Permitted allowed o.ready ∧ StationProcessor.Permitted allowed o.io ∧
    StationProcessor.Permitted allowed o.close

section Calls

variable {R : PcommContext → PcommContext → Prop} {P : PcommEvent → Prop} {allowed : Bool → Prop}
  {stream : PcommStream}

lemma addInputFd_closed (hR : PcommClosed R P allowed) (ctx : PcommContext) (stream : PcommStream)
    (fd : ℤ) (checkOnly : Bool) (alloc : Alloc) (ready io close : Bool) :
    R ctx (addInputFd ctx stream fd checkOnly alloc ready io close).2 := by
  unfold addInputFd
  split_ifs with hfd hcontext
  · exact hR.refl ctx
  · exact hR.append ctx stream _ (not_lt.mp hfd) rfl
  · exact hR.refl ctx

lemma addOutputFd_closed (hR : PcommClosed R P allowed) (ctx : PcommContext) (fd : ℤ)
    (checkOnly : Bool) (data : List UInt8) (alloc : Alloc) (ready io close : Bool) :
    R ctx (addOutputFd ctx fd checkOnly data alloc ready io close).2 := by
  unfold addOutputFd
  split
  · exact hR.refl ctx
  · rename_i hfd
    split
    · rename_i found hseek
      split
      · exact hR.refl ctx
      · split
        · exact hR.refl ctx
        · split
          · exact hR.refl ctx
          · split
            · exact hR.update ctx .write (List.mem_of_find?_eq_some hseek) rfl rfl
            · exact hR.refl ctx
    · split
      · exact hR.refl ctx
      · split
        · exact hR.append ctx .write _ (not_lt.mp hfd) rfl
        · split
          · exact hR.refl ctx
          · split
            · exact hR.append ctx .write _ (not_lt.mp hfd) rfl
            · exact hR.refl ctx

lemma removeFd_closed (hR : PcommClosed R P allowed) (hP : ∀ address fd, P (.released address fd))
    (ctx : PcommContext) (stream : PcommStream) (fd : ℤ) : R ctx (removeFd ctx stream fd).2 := by
  unfold removeFd
  split_ifs
  · exact hR.refl ctx
  · cases seekFd (ctx.fds stream) fd with
    | none => exact hR.refl ctx
    | some c =>
      have herase := hR.erase ctx stream fd c
      have hlog := hR.log (ctx.erase stream fd c) (hP c.address fd)
      cases stream with
      | _ => exact hR.trans herase hlog

lemma pcommAddInputFd_closed (hR : PcommClosed R P allowed) (stream : PcommStream)
    (ctx : PcommContext) (fd : ℤ) (alloc : Alloc) (io close : Bool) :
    R ctx (pcommAddInputFd stream ctx fd alloc io close).2 := by
  unfold pcommAddInputFd
  split_ifs
  · exact hR.refl ctx
  · exact addInputFd_closed hR ctx stream fd false alloc false io close
  · exact hR.refl ctx

lemma pcommMonitorInputFd_closed (hR : PcommClosed R P allowed) (stream : PcommStream)
    (ctx : PcommContext) (fd : ℤ) (alloc : Alloc) (ready : Bool) :
    R ctx (pcommMonitorInputFd stream ctx fd alloc ready).2 := by
  unfold pcommMonitorInputFd
  split_ifs
  · exact hR.refl ctx
  · exact addInputFd_closed hR ctx stream fd true alloc ready false false
  · exact hR.refl ctx

lemma writeCall_closed (hR : PcommClosed R P allowed) (hP : CallEvents P) (ctx : PcommContext)
    {call : WriteCall} (hcall : ∀ immediately, call = .stop immediately → allowed immediately) :
    R ctx (call.run ctx) := by
  cases call with
  | addWriteFd fd data alloc io close =>
    have hadd : R ctx (pcommAddWriteFd ctx fd data alloc io close).2 := by
      unfold pcommAddWriteFd
      split_ifs
      · exact hR.refl ctx
      · exact hR.refl ctx
      · exact addOutputFd_closed hR ctx fd false data alloc false io close
    simp only [WriteCall.run]
    split
    · rename_i heq
      rw [heq] at hadd
      exact hR.trans hadd (hR.log _ (hP.added fd data))
    · rename_i heq
      rwa [heq] at hadd
  | monitorWriteFd fd alloc ready =>
    simp only [WriteCall.run, pcommMonitorWriteFd]
    split_ifs
    · exact hR.refl ctx
    · exact addOutputFd_closed hR ctx fd true [] alloc ready false false
  | stop immediately => exact hR.stop ctx (hcall immediately rfl)

lemma pcommCall_closed (hR : PcommClosed R P allowed) (hP : CallEvents P) (ctx : PcommContext)
    {call : PcommCall}
    (hcall : ∀ immediately, call = .write (.stop immediately) → allowed immediately) :
    R ctx (call.run ctx) := by
  cases call with
  | write call =>
    exact writeCall_closed hR hP ctx fun immediately h => hcall immediately (by rw [h])
  | addReadFd fd alloc io close => exact pcommAddInputFd_closed hR .read ctx fd alloc io close
  | addErrorFd fd alloc io close => exact pcommAddInputFd_closed hR .error ctx fd alloc io close
  | monitorReadFd fd alloc ready => exact pcommMonitorInputFd_closed hR .read ctx fd alloc ready
  | monitorErrorFd fd alloc ready => exact pcommMonitorInputFd_closed hR .error ctx fd alloc ready
  | removeFd stream fd => exact removeFd_closed hR hP.released ctx stream fd

lemma foldl_run_closed (hR : PcommClosed R P allowed) (hP : CallEvents P) {calls : List PcommCall}
    (h : Permitted allowed calls) (ctx : PcommContext) :
    R ctx (calls.foldl PcommCall.run ctx) := by
  induction calls generalizing ctx with
  | nil => exact hR.refl ctx
  | cons call calls ih =>
    have hfirst : R ctx (call.run ctx) := pcommCall_closed hR hP ctx fun immediately hcall =>
      h immediately (hcall ▸ List.mem_cons_self)
    refine hR.trans hfirst (ih (fun immediately hmem => ?_) (call.run ctx))
    exact h immediately (List.mem_cons_of_mem _ hmem)

end Calls

/-! ### The turn of a descriptor -/

section Process

variable {R : PcommContext → PcommContext → Prop} {P : PcommEvent → Prop} {allowed : Bool → Prop}
  {ready io close : PcommContext → PcommContext}

lemma PcommContext.setFds_self (ctx : PcommContext) (stream : PcommStream) :
    ctx.setFds stream (ctx.fds stream) = ctx := by
  cases stream <;> rfl

lemma readFd_address (o : ReadOutcome) (c : PcommFd) : (readFd o c).2.address = c.address := by
  unfold readFd
  split_ifs
  · cases o.result with
    | data first rest => dsimp only; split_ifs <;> rfl
    | _ => rfl
  · rfl

lemma readFd_descriptor (o : ReadOutcome) (c : PcommFd) :
    (readFd o c).2.fileDescriptor = c.fileDescriptor := by
  unfold readFd
  split_ifs
  · cases o.result with
    | data first rest => dsimp only; split_ifs <;> rfl
    | _ => rfl
  · rfl

/-- A function on the context behind an address, which may have been freed. -/
lemma modify_closed (hR : PcommClosed R P allowed) (stream : PcommStream) (address : ℕ)
    (f : PcommFd → PcommFd) (haddress : ∀ c, (f c).address = c.address)
    (hdescriptor : ∀ c, (f c).fileDescriptor = c.fileDescriptor) (ctx : PcommContext) :
    R ctx (ctx.modify stream address f) := by
  unfold PcommContext.modify
  cases hderef : ctx.deref stream address with
  | none => exact hR.refl ctx
  | some c =>
    rw [PcommContext.deref, List.find?_append] at hderef
    cases hlive : (ctx.fds stream).find? (·.address = address) with
    | some live =>
      rw [hlive] at hderef
      obtain rfl : live = c := Option.some.inj hderef
      exact hR.update ctx stream (List.mem_of_find?_eq_some hlive) (haddress _) (hdescriptor _)
    | none =>
      -- the context was freed, and nothing is left of it in the list
      have hc : c.address = address := by
        rw [hlive] at hderef
        simpa using List.find?_some hderef
      have hsame : updateFd (ctx.fds stream) (f c) = ctx.fds stream := by
        refine (List.map_congr_left fun e he => if_neg ?_).trans (List.map_id _)
        rw [haddress, hc]
        simpa using List.find?_eq_none.mp hlive e he
      show R ctx (ctx.setFds stream (updateFd (ctx.fds stream) (f c)))
      rw [hsame, ctx.setFds_self]
      exact hR.refl ctx

lemma finishWrite_closed (hR : PcommClosed R P allowed) (hP : StreamEvents P .write)
    (hclose : ∀ ctx, R ctx (close ctx)) (address : ℕ) (ctx : PcommContext) :
    R ctx (finishWrite close address ctx) := by
  have htouched := hR.log ctx (hP.touched address)
  unfold finishWrite
  dsimp only
  split
  · exact htouched
  · rename_i c hderef
    have hremoved := hR.trans (hR.trans htouched
      (removeFd_closed hR hP.released _ .write c.fileDescriptor)) (hR.log _ (hP.touched address))
    split_ifs
    · exact hR.trans (hR.trans hremoved (hclose _)) (hR.log _ (hP.released _ _))
    · exact hR.trans hremoved (hR.log _ (hP.released _ _))
    · exact htouched

lemma processWriteFd_closed (hR : PcommClosed R P allowed) (hP : StreamEvents P .write)
    (hready : ∀ ctx, R ctx (ready ctx)) (hio : ∀ ctx, R ctx (io ctx))
    (hclose : ∀ ctx, R ctx (close ctx)) (o : WriteOutcome) (fd : ℤ) (ctx : PcommContext) :
    R ctx (processWriteFd ready io close o fd ctx) := by
  unfold processWriteFd
  split
  · exact hR.refl ctx
  · rename_i c hseek
    have hdispatched := fun ctx => hR.log ctx (hP.dispatched fd)
    have hmanage : R ctx (manageWrite o c ctx) :=
      hR.trans (hR.update ctx .write (List.mem_of_find?_eq_some hseek) (by simp) (by simp))
        (hR.log _ (hP.accepted _ _))
    have hfinish := finishWrite_closed hR hP hclose c.address
    split_ifs
    · exact hR.trans (hdispatched ctx) (hready _)
    · exact hR.refl ctx
    · exact hR.trans (hR.trans (hR.trans hmanage (hdispatched _)) (hio _)) (hfinish _)
    · exact hR.trans hmanage (hfinish _)

lemma processInputFd_closed {stream : PcommStream} (hR : PcommClosed R P allowed)
    (hP : StreamEvents P stream) (hready : ∀ ctx, R ctx (ready ctx)) (hio : ∀ ctx, R ctx (io ctx))
    (hclose : ∀ ctx, R ctx (close ctx)) (o : ReadOutcome) (fd : ℤ) (ctx : PcommContext) :
    R ctx (processInputFd stream ready io close o fd ctx) := by
  have hdispatched := fun ctx => hR.log ctx (hP.dispatched fd)
  unfold processInputFd
  split
  · exact hR.refl ctx
  · rename_i c hseek
    have hc : c ∈ ctx.fds stream := List.mem_of_find?_eq_some hseek
    split
    · split
      · exact hR.trans (hdispatched ctx) (hready _)
      · exact hR.refl ctx
    · split
      · rename_i c' hread
        have haddress := readFd_address o c
        have hdescriptor := readFd_descriptor o c
        rw [hread] at haddress hdescriptor
        have hread : R ctx (ctx.setFds stream
            (updateFd (ctx.fds stream) { c' with lastReadEmpty := false })) :=
          hR.update ctx stream hc haddress hdescriptor
        dsimp only
        split
        · exact hR.trans (hR.trans (hR.trans hread (hdispatched _)) (hio _))
            (modify_closed hR _ _ cleanReadBuffer (fun _ => rfl) (fun _ => rfl) _)
        · exact hread
      · split
        · have hremoved := hR.trans (removeFd_closed hR hP.released ctx .read fd)
            (hR.log _ (hP.touched c.address))
          dsimp only
          split
          · exact hR.trans (hR.trans hremoved (hdispatched _)) (hclose _)
          · exact hremoved
        · exact modify_closed hR _ _ (fun c => { c with lastReadEmpty := true }) (fun _ => rfl)
            (fun _ => rfl) ctx
      · exact hR.refl ctx

lemma processFd_closed {stream : PcommStream} (hR : PcommClosed R P allowed)
    (hP : StreamEvents P stream) {o : FdOutcome PcommCall} (ho : o.Permitted allowed) (fd : ℤ)
    (ctx : PcommContext) : R ctx (processFd PcommCall.run stream o fd ctx) := by
  have hcalls := hP.toCallEvents
  have hready := foldl_run_closed hR hcalls ho.1
  have hio := foldl_run_closed hR hcalls ho.2.1
  have hclose := foldl_run_closed hR hcalls ho.2.2
  cases stream with
  | write => exact processWriteFd_closed hR hP hready hio hclose o.write fd ctx
  | read => exact processInputFd_closed hR hP hready hio hclose o.read fd ctx
  | error => exact processInputFd_closed hR hP hready hio hclose o.read fd ctx

lemma processRound_closed {stream : PcommStream} (hR : PcommClosed R P allowed)
    (hP : StreamEvents P stream) {outcome : ℤ → FdOutcome PcommCall}
    (ho : ∀ fd, (outcome fd).Permitted allowed) {set : Option (List ℤ)} {fd : ℤ}
    {ctx ctx' : PcommContext}
    (h : processRound PcommCall.run stream set outcome ctx fd = some ctx') : R ctx ctx' := by
  simp only [processRound] at h
  split at h
  · obtain rfl := Option.some.inj h
    exact hR.refl ctx
  · split at h
    · cases h
    · obtain rfl := Option.some.inj h
      split
      · exact processFd_closed hR hP (ho fd) fd ctx
      · exact hR.refl ctx

lemma foldlM_processRound_closed {stream : PcommStream} (hR : PcommClosed R P allowed)
    (hP : StreamEvents P stream) {outcome : ℤ → FdOutcome PcommCall}
    (ho : ∀ fd, (outcome fd).Permitted allowed) (set : Option (List ℤ)) (fds : List ℤ)
    {ctx ctx' : PcommContext}
    (h : fds.foldlM (processRound PcommCall.run stream set outcome) ctx = some ctx') :
    R ctx ctx' := by
  induction fds generalizing ctx with
  | nil =>
    obtain rfl : ctx = ctx' := Option.some.inj h
    exact hR.refl ctx
  | cons fd fds ih =>
    rw [List.foldlM_cons] at h
    obtain ⟨mid, hround, hrest⟩ := Option.bind_eq_some_iff.mp h
    exact hR.trans (processRound_closed hR hP ho hround) (ih hrest)

end Process

end StationProcessor
