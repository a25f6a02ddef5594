import StationProcessor.Pcomm.Closed

/-!
# The event loop of pcomm

`_pcomm_loop` with `select()` as its environment. A stop that is not immediate lets the loop go on
until the list of writes is empty; then, and after an error of `select()`, it ends.
-/

namespace StationProcessor

/-! ### One round -/

/-- The errors of `select()` the loop tells apart. -/
inductive SelectError
  | badFd
  | interrupted
  | invalid
  | noMemory
  | other
deriving DecidableEq

/-- What `select()` returns: an error, no descriptor in time, or the sets it has left. -/
inductive SelectResult
  | error (e : SelectError)
  | timeout
  | ready (set : PcommStream → List ℤ)

/-- The environment of one round: the result of `select()`, and the calls made by the callbacks of
the loop, by signal handlers during `select()` and by the callbacks of descriptors. -/
structure LoopRound where
  prepare : List PcommCall
  signal : List PcommCall
  select : SelectResult
  timeout : List PcommCall
  selected : List PcommCall
  outcome : PcommStream → ℤ → FdOutcome PcommCall

/-- The context, and the result of the loop. -/
structure LoopState where
  ctx : PcommContext
  result : PcommResult

def callAll (calls : List PcommCall) (ctx : PcommContext) : PcommContext :=
  calls.foldl PcommCall.run ctx

/-- The largest descriptor of a list, `-1` for none, as `_pcomm_populate_set` returns it. -/
def populateMax (fds : List PcommFd) : ℤ := fds.foldl (fun m c => max m c.fileDescriptor) (-1)

/-- `read_max`, `write_max` and `error_max`: only the writes are looked at after a stop. -/
def streamMax (ctx : PcommContext) : PcommStream → ℤ
  | .write => populateMax ctx.writeFds
  | stream => if ctx.exitRequest then -1 else populateMax (ctx.fds stream)

/-- The set of a stream, or `NULL`. -/
def selectSet (ctx : PcommContext) (stream : PcommStream) : Option (List ℤ) :=
  if streamMax ctx stream ≥ 0 then some ((ctx.fds stream).map PcommFd.fileDescriptor) else none

/-- Process a stream with what `select()` has left of its set. -/
def processStream (r : LoopRound) (sets : PcommStream → Option (List ℤ))
    (set : PcommStream → List ℤ) (stream : PcommStream) (ctx : PcommContext) :
    Option PcommContext :=
  processSelectedFds PcommCall.run stream
    ((sets stream).map fun fds => fds.filter (· ∈ set stream)) (r.outcome stream) ctx

/-- The rest of a round, after `select()`. -/
def afterSelect (r : LoopRound) (sets : PcommStream → Option (List ℤ)) (ctx : PcommContext) :
    Option PcommContext :=
  match r.select with
  | .error e =>
    if ctx.exitNow then some ctx
    -- `exit_now` is set first, and reset for an unknown error
    else some { ctx with exitNow := e ≠ .other }
  | .timeout =>
    if ctx.exitNow then some ctx
    else if ctx.debug then some ctx
    else some (callAll r.timeout ctx)
  | .ready set =>
    let ctx := callAll r.selected ctx
    if ctx.exitNow then some ctx
    else do
      let ctx ← processStream r sets set .error ctx
      let ctx ← processStream r sets set .write ctx
      processStream r sets set .read ctx

/-- The body of the loop in `_pcomm_loop`; `none` is the access through a `NULL` set. -/
def pcommRound (r : LoopRound) (s : LoopState) : Option LoopState :=
  if s.ctx.exitRequest ∧ s.ctx.writeFds = [] then
    some { s with ctx := { s.ctx with exitNow := true } }
  else
    let ctx := callAll r.prepare s.ctx
    if ctx.exitNow then some { s with ctx }
    else if max (streamMax ctx .write) (max (streamMax ctx .read) (streamMax ctx .error)) < 0 then
      some ⟨{ ctx with exitNow := true }, .fdNotFound⟩
    else do
      let ctx ← afterSelect r (selectSet ctx) (callAll r.signal ctx)
      return { s with ctx }

/-- `while (!context->exit_now)`, for as many rounds as are given. -/
def pcommLoop : List LoopRound → LoopState → Option LoopState
  | [], s => some s
  | r :: rounds, s => if s.ctx.exitNow then some s else pcommRound r s >>= pcommLoop rounds

/-- `pcomm_main`. -/
def pcommMain (rounds : List LoopRound) (ctx : PcommContext) : Option LoopState :=
  if ctx.exitRequest ∨ ctx.exitNow then some ⟨ctx, .exiting⟩
  else pcommLoop rounds ⟨ctx, .success⟩

/-! ### The drain -/

/-- A managed write with bytes that are not sent. -/
def Unsent (ctx : PcommContext) : Prop :=
  ∃ c ∈ ctx.writeFds, c.checkOnly = false ∧ c.buffered ≠ []

/-- A callback of a read descriptor. -/
def PcommEvent.IsRead : PcommEvent → Prop
  | .dispatched .read _ => True
  | _ => False

/-- What the drain promises of a round: it does not crash; the loop ends after a stop only when
nothing is left to send; and a round that starts after the stop dispatches no read callback. -/
def RoundDrains (r : LoopRound) (s : LoopState) : Prop :=
  ∃ s', pcommRound r s = some s' ∧
    (s'.ctx.exitNow = true → s'.ctx.exitRequest = true → ¬ Unsent s'.ctx) ∧
    (s.ctx.exitRequest = true → Grows (fun e => ¬ e.IsRead) s.ctx.trace s'.ctx.trace)

/-- All rounds of a run, as long as the loop goes on. -/
def AlongRounds (P : LoopRound → LoopState → Prop) : List LoopRound → LoopState → Prop
  | [], _ => True
  | r :: rounds, s => s.ctx.exitNow = true ∨
    P r s ∧ ∀ s', pcommRound r s = some s' → AlongRounds P rounds s'

/-- No call stops the loop immediately. -/
def Gentle (calls : List PcommCall) : Prop := ∀ c ∈ calls, c ≠ .write (.stop true)

/-- All calls of a round. -/
def LoopRound.Gentle (r : LoopRound) : Prop :=
  StationProcessor.Gentle r.prepare ∧ StationProcessor.Gentle r.signal ∧
    StationProcessor.Gentle r.timeout ∧ StationProcessor.Gentle r.selected ∧
    ∀ stream fd, StationProcessor.Gentle (r.outcome stream fd).ready ∧
      StationProcessor.Gentle (r.outcome stream fd).io ∧
      StationProcessor.Gentle (r.outcome stream fd).close

/-- A stream without a set has no descriptors when it is processed. -/
def NullSafe (sets : PcommStream → Option (List ℤ)) (stream : PcommStream) (ctx : PcommContext) :
    Prop := sets stream = none → ctx.fds stream = []

/-- The three streams, each in the state in which it is processed. -/
def SetsSafe (r : LoopRound) (sets : PcommStream → Option (List ℤ)) (set : PcommStream → List ℤ)
    (ctx : PcommContext) : Prop :=
  NullSafe sets .error ctx ∧ ∀ ctx', processStream r sets set .error ctx = some ctx' →
    NullSafe sets .write ctx' ∧ ∀ ctx'', processStream r sets set .write ctx' = some ctx'' →
      NullSafe sets .read ctx''

/-- A round that comes to `select()`. -/
structure Selects (r : LoopRound) (s : LoopState) : Prop where
  loops : ¬ (s.ctx.exitRequest = true ∧ s.ctx.writeFds = [])
  running : (callAll r.prepare s.ctx).exitNow = false
  watches : 0 ≤ max (streamMax (callAll r.prepare s.ctx) .write)
    (max (streamMax (callAll r.prepare s.ctx) .read) (streamMax (callAll r.prepare s.ctx) .error))

/-- The condition on a round: no immediate stop; during a drain with bytes to send, no error of
`select()` that ends the loop; and no list of descriptors that gets processed without a set. -/
structure DrainSafe (r : LoopRound) (s : LoopState) : Prop where
  gentle : r.Gentle
  error : Selects r s → ∀ e, r.select = .error e → e ≠ .other →
    (callAll r.signal (callAll r.prepare s.ctx)).exitRequest = true →
      ¬ Unsent (callAll r.signal (callAll r.prepare s.ctx))
  sets : Selects r s → ∀ set, r.select = .ready set →
    SetsSafe r (selectSet (callAll r.prepare s.ctx)) set
      (callAll r.selected (callAll r.signal (callAll r.prepare s.ctx)))

/-! ### What calls keep -/

def NonnegWrites (ctx : PcommContext) : Prop := ∀ c ∈ ctx.writeFds, 0 ≤ c.fileDescriptor

/-- What everything but the loop itself keeps: whether the loop ends, a stop, the signs of the
write descriptors, and the kind of the events. -/
structure LoopKeeps (P : PcommEvent → Prop) (ctx ctx' : PcommContext) : Prop where
  exitNow : ctx'.exitNow = ctx.exitNow
  request : ctx.exitRequest = true → ctx'.exitRequest = true
  nonneg : NonnegWrites ctx → NonnegWrites ctx'
  trace : Grows P ctx.trace ctx'.trace

section Keeps

variable {P : PcommEvent → Prop} {ctx ctx' ctx'' : PcommContext}

lemma LoopKeeps.refl (ctx : PcommContext) : LoopKeeps P ctx ctx := ⟨rfl, id, id, .refl _ _⟩

lemma LoopKeeps.trans (h : LoopKeeps P ctx ctx') (h' : LoopKeeps P ctx' ctx'') :
    LoopKeeps P ctx ctx'' :=
  ⟨h'.exitNow.trans h.exitNow, h'.request ∘ h.request, h'.nonneg ∘ h.nonneg, h.trace.trans h'.trace⟩

lemma LoopKeeps.log (ctx : PcommContext) {e : PcommEvent} (h : P e) :
    LoopKeeps P ctx (ctx.log e) := ⟨rfl, id, id, .single _ h⟩

/-- Calls and turns keep it as long as no stop is immediate. -/
lemma loopKeeps_closed : PcommClosed (LoopKeeps P) P (· = false) where
  refl := .refl
  trans := .trans
  log := .log
  append ctx stream c entry hc _ := by
    have hnonneg : NonnegWrites ctx → NonnegWrites (ctx.append stream c entry) := by
      intro h e he
      cases entry with
      | false => exact h e he
      | true =>
        cases stream with
        | write =>
          rcases List.mem_append.mp he with he | he
          · exact h e he
          · rwa [List.mem_singleton.mp he]
        | _ => exact h e he
    cases entry with
    | false => exact ⟨rfl, id, hnonneg, .refl _ _⟩
    | true => cases stream <;> exact ⟨rfl, id, hnonneg, .refl _ _⟩
  update ctx stream c c' hc _ hd := by
    cases stream with
    | write =>
      refine ⟨rfl, id, fun h e he => ?_, .refl _ _⟩
      obtain ⟨e', he', rfl⟩ := List.mem_map.mp he
      split_ifs
      · rw [hd]
        exact h c hc
      · exact h e' he'
    | _ => exact ⟨rfl, id, id, .refl _ _⟩
  erase ctx stream fd c := by
    cases stream with
    | write => exact ⟨rfl, id, fun h e he => h e (List.eraseP_subset he), .refl _ _⟩
    | _ => exact ⟨rfl, id, id, .refl _ _⟩
  stop ctx immediately h := by
    subst h
    exact ⟨by simp [pcommStop], fun _ => rfl, id, .refl _ _⟩

lemma Gentle.permitted {calls : List PcommCall} (h : Gentle calls) :
    Permitted (· = false) calls := by
  intro immediately hmem
  cases immediately with
  | false => rfl
  | true => exact absurd rfl (h _ hmem)

lemma callAll_keeps (hP : CallEvents P) {calls : List PcommCall} (h : Gentle calls)
    (ctx : PcommContext) : LoopKeeps P ctx (callAll calls ctx) :=
  foldl_run_closed loopKeeps_closed hP h.permitted ctx

end Keeps

/-! ### What the processing of descriptors keeps -/

section Process

variable {P : PcommEvent → Prop}

/-- The calls of the callbacks of a descriptor do not stop the loop immediately. -/
def FdOutcome.Gentle (o : FdOutcome PcommCall) : Prop :=
  StationProcessor.Gentle o.ready ∧ StationProcessor.Gentle o.io ∧ StationProcessor.Gentle o.close

lemma FdOutcome.Gentle.permitted {o : FdOutcome PcommCall} (h : o.Gentle) :
    o.Permitted (· = false) :=
  ⟨h.1.permitted, h.2.1.permitted, h.2.2.permitted⟩

lemma foldlM_processRound_some (stream : PcommStream) (set : List ℤ)
    (outcome : ℤ → FdOutcome PcommCall) (fds : List ℤ) (ctx : PcommContext) :
    ∃ ctx', fds.foldlM (processRound PcommCall.run stream (some set) outcome) ctx = some ctx' := by
  induction fds generalizing ctx with
  | nil => exact ⟨ctx, rfl⟩
  | cons fd fds ih =>
    rw [List.foldlM_cons]
    simp only [processRound]
    split
    · exact ih ctx
    · exact ih _

variable {r : LoopRound} {sets : PcommStream → Option (List ℤ)} {set : PcommStream → List ℤ}
  {stream : PcommStream} {ctx : PcommContext}

/-- An empty list of descriptors is processed without looking at the set. -/
lemma processStream_nil (h : ctx.fds stream = []) :
    processStream r sets set stream ctx = some ctx := by
  simp only [processStream, processSelectedFds, h]
  rfl

/-- A stream that is safe to process gets processed. -/
lemma processStream_some (r : LoopRound) (set : PcommStream → List ℤ)
    (hsafe : NullSafe sets stream ctx) :
    ∃ ctx', processStream r sets set stream ctx = some ctx' := by
  cases hset : sets stream with
  | none => exact ⟨ctx, processStream_nil (hsafe hset)⟩
  | some fds =>
    simp only [processStream, processSelectedFds, hset]
    exact foldlM_processRound_some stream _ _ _ ctx

lemma processStream_keeps (hP : StreamEvents P stream) (hr : r.Gentle) {ctx' : PcommContext}
    (h : processStream r sets set stream ctx = some ctx') : LoopKeeps P ctx ctx' :=
  foldlM_processRound_closed loopKeeps_closed hP
    (fun fd => FdOutcome.Gentle.permitted (hr.2.2.2.2 stream fd)) _ _ h

end Process

/-! ### Rounds of a drain -/

section Rounds

lemma populateMax_ge (fds : List PcommFd) {c : PcommFd} (hc : c ∈ fds) :
    c.fileDescriptor ≤ populateMax fds := by
  have hfold : ∀ (fds : List PcommFd) (m : ℤ),
      m ≤ fds.foldl (fun m c => max m c.fileDescriptor) m ∧
        ∀ c ∈ fds, c.fileDescriptor ≤ fds.foldl (fun m c => max m c.fileDescriptor) m := by
    intro fds
    induction fds with
    | nil => simp
    | cons e fds ih =>
      intro m
      obtain ⟨hm, hall⟩ := ih (max m e.fileDescriptor)
      refine ⟨(le_max_left _ _).trans hm, fun c hc => ?_⟩
      rcases List.mem_cons.mp hc with rfl | hc
      · exact (le_max_right _ _).trans hm
      · exact hall c hc
  exact (hfold fds (-1)).2 c hc

lemma not_unsent_of_max {ctx : PcommContext} (hwrites : NonnegWrites ctx)
    (hmax : streamMax ctx .write < 0) : ¬ Unsent ctx := by
  rintro ⟨c, hc, -⟩
  have hle := populateMax_ge ctx.writeFds hc
  exact absurd ((hwrites c hc).trans hle) (not_le.mpr hmax)

/-- Once a stop was requested there are no events of reads. -/
def DrainEvent (requested : Bool) (e : PcommEvent) : Prop := requested = true → ¬ e.IsRead

lemma drainEvents (requested : Bool) : CallEvents (DrainEvent requested) :=
  ⟨fun _ _ _ => id, fun _ _ _ => id⟩

lemma drainEvents_stream (requested : Bool) {stream : PcommStream} (hstream : stream ≠ .read) :
    StreamEvents (DrainEvent requested) stream where
  toCallEvents := drainEvents requested
  accepted _ _ _ := id
  touched _ _ := id
  dispatched fd _ := by
    cases stream with
    | read => exact absurd rfl hstream
    | _ => exact id

lemma drainEvents_read : StreamEvents (DrainEvent false) .read where
  toCallEvents := drainEvents false
  accepted _ _ h := by cases h
  touched _ h := by cases h
  dispatched _ h := by cases h

/-- What the rest of a round does that selects. -/
lemma afterSelect_drains {r : LoopRound} {s : LoopState} (hsafe : DrainSafe r s)
    (hselects : Selects r s) :
    ∃ ctx', afterSelect r (selectSet (callAll r.prepare s.ctx))
        (callAll r.signal (callAll r.prepare s.ctx)) = some ctx' ∧
      (ctx'.exitNow = true → ctx'.exitRequest = true → ¬ Unsent ctx') ∧
      (NonnegWrites s.ctx → NonnegWrites ctx') ∧
      Grows (DrainEvent s.ctx.exitRequest) s.ctx.trace ctx'.trace := by
  obtain ⟨hprepare, hsignal, htimeout, hselected, -⟩ := hsafe.gentle
  have hcalls := drainEvents s.ctx.exitRequest
  have hprepared := callAll_keeps hcalls hprepare s.ctx
  have hwaited := hprepared.trans (callAll_keeps hcalls hsignal (callAll r.prepare s.ctx))
  have hstart : s.ctx.exitNow = false := hprepared.exitNow.symm.trans hselects.running
  -- as long as only callbacks and descriptors have been at work, the loop goes on
  have hgoes : ∀ ctx', LoopKeeps (DrainEvent s.ctx.exitRequest) s.ctx ctx' →
      (ctx'.exitNow = true → ctx'.exitRequest = true → ¬ Unsent ctx') ∧
        (NonnegWrites s.ctx → NonnegWrites ctx') ∧
        Grows (DrainEvent s.ctx.exitRequest) s.ctx.trace ctx'.trace := by
    intro ctx' hkeeps
    refine ⟨fun hexit => ?_, hkeeps.nonneg, hkeeps.trace⟩
    rw [hkeeps.exitNow, hstart] at hexit
    cases hexit
  have hrunning : (callAll r.signal (callAll r.prepare s.ctx)).exitNow = false :=
    hwaited.exitNow.trans hstart
  unfold afterSelect
  cases hselect : r.select with
  | error e =>
    simp only [hrunning, Bool.false_eq_true, if_false]
    refine ⟨_, rfl, fun hexit hrequest => ?_, hwaited.nonneg, hwaited.trace⟩
    exact hsafe.error hselects e hselect (by simpa using hexit) hrequest
  | timeout =>
    simp only [hrunning, Bool.false_eq_true, if_false]
    split_ifs
    · exact ⟨_, rfl, hgoes _ hwaited⟩
    · exact ⟨_, rfl, hgoes _ (hwaited.trans (callAll_keeps hcalls htimeout _))⟩
  | ready set =>
    have hready := hwaited.trans (callAll_keeps hcalls hselected _)
    have hon := hready.exitNow.trans hstart
    obtain ⟨hsafe₁, hrest⟩ := hsafe.sets hselects set hselect
    obtain ⟨ctx₁, hctx₁⟩ := processStream_some r set hsafe₁
    obtain ⟨hsafe₂, hrest⟩ := hrest ctx₁ hctx₁
    obtain ⟨ctx₂, hctx₂⟩ := processStream_some r set hsafe₂
    have hsafe₃ := hrest ctx₂ hctx₂
    obtain ⟨ctx₃, hctx₃⟩ := processStream_some r set hsafe₃
    have hkeeps₁ := processStream_keeps (drainEvents_stream s.ctx.exitRequest (by simp))
      hsafe.gentle hctx₁
    have hkeeps₂ := processStream_keeps (drainEvents_stream s.ctx.exitRequest (by simp))
      hsafe.gentle hctx₂
    have hkeeps₃ : LoopKeeps (DrainEvent s.ctx.exitRequest) ctx₂ ctx₃ := by
      cases hrequest : s.ctx.exitRequest with
      | false => exact processStream_keeps drainEvents_read hsafe.gentle hctx₃
      | true =>
        -- reads are not watched, so there is none to process
        have hnull : selectSet (callAll r.prepare s.ctx) .read = none := by
          simp [selectSet, streamMax, hprepared.request hrequest]
        rw [processStream_nil (hsafe₃ hnull)] at hctx₃
        obtain rfl := Option.some.inj hctx₃
        exact .refl ctx₂
    refine ⟨ctx₃, ?_, hgoes ctx₃ (((hready.trans hkeeps₁).trans hkeeps₂).trans hkeeps₃)⟩
    simp only [hon, Bool.false_eq_true, if_false, hctx₁, hctx₂, Option.bind_eq_bind,
      Option.bind_some, hctx₃]

lemma round_drains {r : LoopRound} {s : LoopState} (hrunning : s.ctx.exitNow = false)
    (hwrites : NonnegWrites s.ctx) (hsafe : DrainSafe r s) :
    RoundDrains r s ∧ ∀ s', pcommRound r s = some s' → NonnegWrites s'.ctx := by
  have hprepared := callAll_keeps (drainEvents s.ctx.exitRequest) hsafe.gentle.1 s.ctx
  have hon : (callAll r.prepare s.ctx).exitNow = false := hprepared.exitNow.trans hrunning
  have hround : ∃ s', pcommRound r s = some s' ∧
      (s'.ctx.exitNow = true → s'.ctx.exitRequest = true → ¬ Unsent s'.ctx) ∧
      NonnegWrites s'.ctx ∧ Grows (DrainEvent s.ctx.exitRequest) s.ctx.trace s'.ctx.trace := by
    unfold pcommRound
    by_cases hdone : s.ctx.exitRequest = true ∧ s.ctx.writeFds = []
    · rw [if_pos hdone]
      refine ⟨_, rfl, fun _ _ => ?_, hwrites, .refl _ _⟩
      rintro ⟨c, hc, -⟩
      simp [hdone.2] at hc
    rw [if_neg hdone]
    simp only [hon, Bool.false_eq_true, if_false]
    split_ifs with hmax
    · refine ⟨_, rfl, fun _ _ => ?_, hprepared.nonneg hwrites, hprepared.trace⟩
      exact not_unsent_of_max (hprepared.nonneg hwrites) (lt_of_le_of_lt (le_max_left _ _) hmax)
    · obtain ⟨ctx', hctx', hends, hnonneg, htrace⟩ :=
        afterSelect_drains hsafe ⟨hdone, hon, not_lt.mp hmax⟩
      simp only [hctx']
      exact ⟨_, rfl, hends, hnonneg hwrites, htrace⟩
  obtain ⟨s', hs', hends, hnonneg, htrace⟩ := hround
  refine ⟨⟨s', hs', hends, fun hrequest => htrace.imp fun e he => he hrequest⟩, fun s'' hs'' => ?_⟩
  rw [hs'] at hs''
  rwa [← Option.some.inj hs'']

lemma along_drains {rounds : List LoopRound} {s : LoopState} (hwrites : NonnegWrites s.ctx)
    (h : AlongRounds DrainSafe rounds s) : AlongRounds RoundDrains rounds s := by
  induction rounds generalizing s with
  | nil => trivial
  | cons r rounds ih =>
    rcases h with hdone | ⟨hsafe, hrest⟩
    · exact Or.inl hdone
    · cases hrunning : s.ctx.exitNow with
      | true => exact Or.inl hrunning
      | false =>
        obtain ⟨hround, hnonneg⟩ := round_drains hrunning hwrites hsafe
        exact Or.inr ⟨hround, fun s' hs' => ih (hnonneg s' hs') (hrest s' hs')⟩

lemma callAll_nonneg (calls : List PcommCall) {ctx : PcommContext} (h : NonnegWrites ctx) :
    NonnegWrites (callAll calls ctx) := by
  induction calls generalizing ctx with
  | nil => exact h
  | cons call calls ih =>
    apply ih
    by_cases hcall : call = .write (.stop true)
    · rw [hcall]
      exact h
    · have hgentle : Gentle [call] := fun c hc => List.mem_singleton.mp hc ▸ hcall
      have hkeeps := callAll_keeps (P := fun _ => True) ⟨fun _ _ => trivial, fun _ _ => trivial⟩
        hgentle ctx
      exact hkeeps.nonneg h

/-- A run whose rounds keep the promise of a drain does not crash, and ends after a stop only when
nothing is left to send. -/
lemma AlongRounds.loop {rounds : List LoopRound} {s : LoopState}
    (h : AlongRounds RoundDrains rounds s)
    (hs : s.ctx.exitNow = true → s.ctx.exitRequest = true → ¬ Unsent s.ctx) :
    ∃ s', pcommLoop rounds s = some s' ∧
      (s'.ctx.exitNow = true → s'.ctx.exitRequest = true → ¬ Unsent s'.ctx) := by
  induction rounds generalizing s with
  | nil => exact ⟨s, rfl, hs⟩
  | cons r rounds ih =>
    simp only [pcommLoop]
    split_ifs with hexit
    · exact ⟨s, rfl, hs⟩
    · obtain ⟨⟨s', hs', hends, -⟩, hrest⟩ := h.resolve_left hexit
      simp only [hs']
      exact ih (hrest s' hs') hends

end Rounds

/-- Every run of the loop, over any descriptors registered before and any results of `select()`,
whose rounds meet the condition: it does not crash, it ends after a stop only when no managed
write has bytes left, and no round that starts after the stop dispatches a read callback. -/
theorem pcommLoop_drains (setup : List PcommCall) (rounds : List LoopRound)
    (hstart : (callAll setup pcommInit).exitNow = false)
    (hsafe : AlongRounds DrainSafe rounds ⟨callAll setup pcommInit, .success⟩) :
    (∃ s', pcommLoop rounds ⟨callAll setup pcommInit, .success⟩ = some s' ∧
        (s'.ctx.exitNow = true → s'.ctx.exitRequest = true → ¬ Unsent s'.ctx)) ∧
      AlongRounds RoundDrains rounds ⟨callAll setup pcommInit, .success⟩ := by
  have hwrites : NonnegWrites (callAll setup pcommInit) :=
    callAll_nonneg setup fun c hc => by simp [pcommInit] at hc
  have halong := along_drains (s := ⟨callAll setup pcommInit, .success⟩) hwrites hsafe
  refine ⟨halong.loop fun hexit => ?_, halong⟩
  rw [hstart] at hexit
  cases hexit

/-- A program with three bytes to write to one descriptor and another one to read from. -/
def oneWrite (read : Bool) : List PcommCall :=
  .write (.addWriteFd 5 [1, 2, 3] ⟨true, true, true⟩ false false) ::
    if read then [.addReadFd 6 ⟨true, true, true⟩ true false] else []

/-- A round in which a signal handler asks for a stop while `select()` waits. -/
def stopRound (select : SelectResult) : LoopRound where
  prepare := []
  signal := [.write (.stop false)]
  select := select
  timeout := []
  selected := []
  outcome := fun _ _ => ⟨⟨.wrote 1, 0, true⟩, ⟨.eof, true, true⟩, [], [], []⟩

instance (ctx : PcommContext) : Decidable (Unsent ctx) :=
  inferInstanceAs (Decidable (∃ c ∈ ctx.writeFds, c.checkOnly = false ∧ c.buffered ≠ []))

theorem pcommLoop_drains_timeout :
    (∃ s', pcommLoop [stopRound .timeout] ⟨callAll (oneWrite true) pcommInit, .success⟩ = some s' ∧
        (s'.ctx.exitNow = true → s'.ctx.exitRequest = true → ¬ Unsent s'.ctx)) ∧
      AlongRounds RoundDrains [stopRound .timeout]
        ⟨callAll (oneWrite true) pcommInit, .success⟩ := by
  refine pcommLoop_drains (oneWrite true) [stopRound .timeout] rfl (Or.inr ⟨?_, fun _ _ => trivial⟩)
  have hgentle : (stopRound .timeout).Gentle := by
    refine ⟨?_, ?_, ?_, ?_, fun _ _ => ⟨?_, ?_, ?_⟩⟩ <;> simp [stopRound, Gentle]
  refine ⟨hgentle, ?_, ?_⟩
  · intro _ e he
    cases he
  · intro _ set hset
    cases hset

/-- The signal that asks for the stop also ends the loop, with the bytes unsent; and a descriptor
that gets ready during the drain makes the loop look into the set of reads it has not made. -/
theorem pcommLoop_drains_not :
    ¬ RoundDrains (stopRound (.error .interrupted)) ⟨callAll (oneWrite false) pcommInit, .success⟩ ∧
      ∃ s, pcommLoop [stopRound .timeout] ⟨callAll (oneWrite true) pcommInit, .success⟩ = some s ∧
        pcommRound (stopRound (.ready fun _ => [5])) s = none := by
  constructor
  · rintro ⟨s', hs', hends, -⟩
    have hround : (pcommRound (stopRound (.error .interrupted))
        ⟨callAll (oneWrite false) pcommInit, .success⟩).any (fun s => s.ctx.exitNow ∧
          s.ctx.exitRequest ∧ Unsent s.ctx) := by decide +kernel
    rw [hs'] at hround
    simp only [Option.any_some, decide_eq_true_eq] at hround
    exact hends hround.1 hround.2.1 hround.2.2
  · refine ⟨_, rfl, ?_⟩
    rfl

end StationProcessor
