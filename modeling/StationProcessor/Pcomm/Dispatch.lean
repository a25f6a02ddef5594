import StationProcessor.Pcomm.Loop

/-!
# Dispatched descriptors

Which contexts get a turn in a pass of `_process_selected_fds`. `select()` reports numbers, and a
pass looks them up in the list of its stream as it is then. A context is told from another of the
same number by its address.
-/

namespace StationProcessor

/-! ### What is registered -/

/-- Every context has an address that was given out, and an address has one number. -/
structure Registered (ctx : PcommContext) : Prop where
  lt : ∀ stream, ∀ c ∈ ctx.fds stream, c.address < ctx.nextAddress
  number : ∀ stream, ∀ c ∈ ctx.fds stream, ∀ c' ∈ ctx.fds stream, c.address = c'.address →
    c.fileDescriptor = c'.fileDescriptor

/-- A list has the context with this address and number. -/
def HasFd (fds : List PcommFd) (c : PcommFd) : Prop :=
  ∃ c' ∈ fds, c'.address = c.address ∧ c'.fileDescriptor = c.fileDescriptor

/-- A context with an address from an earlier state was registered then. -/
structure SinceThen (filled ctx : PcommContext) : Prop where
  next : filled.nextAddress ≤ ctx.nextAddress
  old : ∀ stream, ∀ c ∈ ctx.fds stream, c.address < filled.nextAddress → HasFd (filled.fds stream) c

/-- What all calls and turns keep. -/
def GoesOn (ctx ctx' : PcommContext) : Prop := Registered ctx → Registered ctx' ∧ SinceThen ctx ctx'

section GoesOn

variable {ctx ctx' ctx'' : PcommContext}

lemma HasFd.of_mem {fds : List PcommFd} {c : PcommFd} (h : c ∈ fds) : HasFd fds c :=
  ⟨c, h, rfl, rfl⟩

lemma SinceThen.trans (h : SinceThen ctx ctx') (h' : SinceThen ctx' ctx'') :
    SinceThen ctx ctx'' := by
  refine ⟨h.next.trans h'.next, fun stream c hc hlt => ?_⟩
  obtain ⟨c', hc', haddress, hnumber⟩ := h'.old stream c hc (hlt.trans_le h.next)
  obtain ⟨c₀, hc₀, haddress₀, hnumber₀⟩ := h.old stream c' hc' (haddress ▸ hlt)
  exact ⟨c₀, hc₀, haddress₀.trans haddress, hnumber₀.trans hnumber⟩

lemma GoesOn.trans (h : GoesOn ctx ctx') (h' : GoesOn ctx' ctx'') : GoesOn ctx ctx'' := by
  intro hctx
  obtain ⟨hctx', hsince⟩ := h hctx
  obtain ⟨hctx'', hsince'⟩ := h' hctx'
  exact ⟨hctx'', hsince.trans hsince'⟩

/-- A change that registers nothing. -/
lemma GoesOn.of_hasFd (hnext : ctx'.nextAddress = ctx.nextAddress)
    (h : ∀ stream, ∀ c ∈ ctx'.fds stream, HasFd (ctx.fds stream) c) : GoesOn ctx ctx' := by
  intro hctx
  refine ⟨⟨fun stream c hc => ?_, fun stream c hc c' hc' heq => ?_⟩, hnext.ge,
    fun stream c hc _ => h stream c hc⟩
  · obtain ⟨c₀, hc₀, haddress, -⟩ := h stream c hc
    rw [hnext, ← haddress]
    exact hctx.lt stream c₀ hc₀
  · obtain ⟨c₀, hc₀, haddress, hnumber⟩ := h stream c hc
    obtain ⟨c₁, hc₁, haddress', hnumber'⟩ := h stream c' hc'
    rw [← hnumber, ← hnumber']
    exact hctx.number stream c₀ hc₀ c₁ hc₁ (by rw [haddress, haddress', heq])

lemma GoesOn.of_fds (hnext : ctx'.nextAddress = ctx.nextAddress)
    (h : ∀ stream, ctx'.fds stream = ctx.fds stream) : GoesOn ctx ctx' :=
  .of_hasFd hnext fun stream _ hc => .of_mem (h stream ▸ hc)

lemma fds_setFds (ctx : PcommContext) (stream stream' : PcommStream) (fds : List PcommFd) :
    (ctx.setFds stream fds).fds stream' = if stream' = stream then fds else ctx.fds stream' := by
  cases stream <;> cases stream' <;> rfl

lemma nextAddress_setFds (ctx : PcommContext) (stream : PcommStream) (fds : List PcommFd) :
    (ctx.setFds stream fds).nextAddress = ctx.nextAddress := by
  cases stream <;> rfl

/-- A context with a new address behind those of its stream. -/
lemma GoesOn.append (stream : PcommStream) {c : PcommFd} (hc : c.address = ctx.nextAddress)
    (hnext : ctx'.nextAddress = ctx.nextAddress + 1)
    (h : ∀ stream', ∀ e ∈ ctx'.fds stream', e ∈ ctx.fds stream' ∨ stream' = stream ∧ e = c) :
    GoesOn ctx ctx' := by
  intro hctx
  have hold : ∀ stream', ∀ e ∈ ctx.fds stream', e.address ≠ c.address := by
    intro stream' e he heq
    have hlt := hctx.lt stream' e he
    rw [heq, hc] at hlt
    exact lt_irrefl _ hlt
  refine ⟨⟨fun stream' e he => ?_, fun stream' e he e' he' heq => ?_⟩, by omega,
    fun stream' e he hlt => ?_⟩
  · rcases h stream' e he with he | ⟨-, rfl⟩
    · exact hnext ▸ (hctx.lt stream' e he).trans (Nat.lt_succ_self _)
    · rw [hc, hnext]
      exact Nat.lt_succ_self _
  · rcases h stream' e he with he | ⟨-, rfl⟩ <;> rcases h stream' e' he' with he' | ⟨-, rfl⟩
    · exact hctx.number stream' e he e' he' heq
    · exact absurd heq (hold stream' e he)
    · exact absurd heq.symm (hold stream' e' he')
    · rfl
  · rcases h stream' e he with he | ⟨-, rfl⟩
    · exact .of_mem he
    · rw [hc] at hlt
      exact absurd hlt (lt_irrefl _)

lemma goesOn_closed : PcommClosed GoesOn (fun _ => True) (fun _ => True) where
  refl _ := .of_fds rfl fun _ => rfl
  trans := .trans
  log _ _ _ := .of_fds rfl fun stream => by cases stream <;> rfl
  append ctx stream c entry _ hc := by
    cases entry with
    | false =>
      refine .append stream hc rfl fun stream' e he => Or.inl ?_
      cases stream' <;> exact he
    | true =>
      have hnext : (ctx.append stream c true).nextAddress = ctx.nextAddress + 1 :=
        nextAddress_setFds _ _ _
      refine .append stream hc hnext fun stream' e he => ?_
      rw [PcommContext.append, if_pos rfl, fds_setFds] at he
      split_ifs at he with hstream
      · subst hstream
        rcases List.mem_append.mp he with he | he
        · left
          cases stream' <;> exact he
        · exact Or.inr ⟨rfl, List.mem_singleton.mp he⟩
      · left
        cases stream' <;> exact he
  update ctx stream c c' hc haddress hnumber := by
    refine .of_hasFd (nextAddress_setFds _ _ _) fun stream' e he => ?_
    rw [fds_setFds] at he
    split_ifs at he with hstream
    · subst hstream
      obtain ⟨e', he', rfl⟩ := List.mem_map.mp he
      split_ifs
      · exact ⟨c, hc, haddress.symm, hnumber.symm⟩
      · exact .of_mem he'
    · exact .of_mem he
  erase ctx stream fd c := by
    refine .of_hasFd (nextAddress_setFds _ _ _) fun stream' e he => ?_
    have he : e ∈ (ctx.setFds stream
        ((ctx.fds stream).eraseP (·.fileDescriptor = fd))).fds stream' := by
      cases stream' <;> exact he
    rw [fds_setFds] at he
    split_ifs at he with hstream
    · subst hstream
      exact .of_mem (List.eraseP_subset he)
    · exact .of_mem he
  stop _ _ _ := .of_fds rfl fun stream => by cases stream <;> rfl

lemma permitted_true (calls : List PcommCall) : Permitted (fun _ => True) calls :=
  fun _ _ => trivial

lemma allEvents (stream : PcommStream) : StreamEvents (fun _ => True) stream where
  added _ _ := trivial
  released _ _ := trivial
  accepted _ _ := trivial
  touched _ := trivial
  dispatched _ := trivial

lemma callAll_goesOn (calls : List PcommCall) (ctx : PcommContext) :
    GoesOn ctx (callAll calls ctx) :=
  foldl_run_closed goesOn_closed (allEvents .read).toCallEvents (permitted_true calls) ctx

lemma registered_init : Registered pcommInit :=
  have hnone : ∀ stream, ∀ c, c ∉ pcommInit.fds stream := by
    intro stream c hc
    cases stream <;> cases hc
  ⟨fun stream c hc => absurd hc (hnone stream c), fun stream c hc => absurd hc (hnone stream c)⟩

end GoesOn

/-! ### Turns -/

/-- The context that gets a turn for a number of the snapshot. -/
def turnOf (stream : PcommStream) (set : List ℤ) (ctx : PcommContext) (fd : ℤ) : Option PcommFd :=
  if ctx.exitNow then none
  else if fd ∈ set then seekFd (ctx.fds stream) fd
  else none

/-- The contexts that get a turn in a pass over a snapshot. -/
def turns (stream : PcommStream) (set : List ℤ) (outcome : ℤ → FdOutcome PcommCall) :
    List ℤ → PcommContext → List PcommFd
  | [], _ => []
  | fd :: fds, ctx => (turnOf stream set ctx fd).toList ++
      match processRound PcommCall.run stream (some set) outcome ctx fd with
      | none => []
      | some ctx => turns stream set outcome fds ctx

/-- The numbers that `select()` has left in the set of a stream, which was filled from a context. -/
def reported (filled : PcommContext) (set : PcommStream → List ℤ) (stream : PcommStream) : List ℤ :=
  ((filled.fds stream).map PcommFd.fileDescriptor).filter (· ∈ set stream)

/-- The contexts that get a turn when a stream is processed. -/
def streamTurns (r : LoopRound) (filled : PcommContext) (set : PcommStream → List ℤ)
    (stream : PcommStream) (ctx : PcommContext) : List PcommFd :=
  match selectSet filled stream with
  | none => []
  | some _ => turns stream (reported filled set stream) (r.outcome stream)
      ((ctx.fds stream).map PcommFd.fileDescriptor) ctx

/-- A pass looks into no set that is null, and gives a turn only to contexts that were registered
for the stream when its set was filled and that `select()` reported, each once. -/
structure PassRight (r : LoopRound) (filled : PcommContext) (set : PcommStream → List ℤ)
    (stream : PcommStream) (ctx : PcommContext) : Prop where
  runs : ∃ ctx', processStream r (selectSet filled) set stream ctx = some ctx'
  ready : ∀ c ∈ streamTurns r filled set stream ctx,
    c.fileDescriptor ∈ set stream ∧ HasFd (filled.fds stream) c
  once : ((streamTurns r filled set stream ctx).map PcommFd.address).Nodup

/-- A pass over a list that is empty or has a set, that names no reported number twice, and in which
no number was given to another context since the sets were filled. -/
structure PassFits (r : LoopRound) (filled : PcommContext) (set : PcommStream → List ℤ)
    (stream : PcommStream) (ctx : PcommContext) : Prop where
  nonnull : selectSet filled stream = none → ctx.fds stream = [] ∨ ctx.exitNow = true
  once : (((ctx.fds stream).map PcommFd.fileDescriptor).filter
    (· ∈ reported filled set stream)).Nodup
  since : ∀ c ∈ streamTurns r filled set stream ctx, c.address < filled.nextAddress

/-- The three passes of a round, each in the state in which its stream is processed. -/
def AlongPasses (P : PcommStream → PcommContext → Prop) (r : LoopRound) (filled : PcommContext)
    (set : PcommStream → List ℤ) (ctx : PcommContext) : Prop :=
  P .error ctx ∧ ∀ ctx', processStream r (selectSet filled) set .error ctx = some ctx' →
    P .write ctx' ∧ ∀ ctx'', processStream r (selectSet filled) set .write ctx' = some ctx'' →
      P .read ctx''

/-- All passes of a round that comes to them. -/
def RoundPasses (P : LoopRound → PcommContext → (PcommStream → List ℤ) → PcommStream →
    PcommContext → Prop) (r : LoopRound) (s : LoopState) : Prop :=
  Selects r s → ∀ set, r.select = .ready set →
    AlongPasses (P r (callAll r.prepare s.ctx) set) r (callAll r.prepare s.ctx) set
      (callAll r.selected (callAll r.signal (callAll r.prepare s.ctx)))

/-- A round does not crash, and its passes are right. -/
def RoundDispatches (r : LoopRound) (s : LoopState) : Prop :=
  (∃ s', pcommRound r s = some s') ∧ RoundPasses PassRight r s

section Passes

variable {r : LoopRound} {filled ctx ctx' : PcommContext} {set : PcommStream → List ℤ}
  {stream : PcommStream} {reports : List ℤ} {outcome : ℤ → FdOutcome PcommCall} {fds : List ℤ}

lemma turnOf_spec {fd : ℤ} {c : PcommFd} (h : turnOf stream reports ctx fd = some c) :
    fd ∈ reports ∧ c ∈ ctx.fds stream ∧ c.fileDescriptor = fd := by
  rw [turnOf] at h
  split_ifs at h with hexit hset
  exact ⟨hset, List.mem_of_find?_eq_some h, by simpa using List.find?_some h⟩

lemma processRound_goesOn {fd : ℤ} {readable : Option (List ℤ)}
    (h : processRound PcommCall.run stream readable outcome ctx fd = some ctx') :
    GoesOn ctx ctx' :=
  processRound_closed goesOn_closed (allEvents stream)
    (fun _ => ⟨permitted_true _, permitted_true _, permitted_true _⟩) h

lemma processStream_goesOn
    (h : processStream r (selectSet filled) set stream ctx = some ctx') : GoesOn ctx ctx' :=
  foldlM_processRound_closed goesOn_closed (allEvents stream)
    (fun _ => ⟨permitted_true _, permitted_true _, permitted_true _⟩) _ _ h

/-- A context that gets a turn is in the list then, and its number was in the snapshot. -/
lemma mem_turns {c : PcommFd} (hc : c ∈ turns stream reports outcome fds ctx)
    (hctx : Registered ctx) (hsince : SinceThen filled ctx) :
    c.fileDescriptor ∈ reports ∧
      (c.address < filled.nextAddress → HasFd (filled.fds stream) c) := by
  induction fds generalizing ctx with
  | nil => cases hc
  | cons fd fds ih =>
    rw [turns] at hc
    rcases List.mem_append.mp hc with hc | hc
    · obtain ⟨hset, hmem, rfl⟩ := turnOf_spec (Option.mem_toList.mp hc)
      exact ⟨hset, hsince.old stream c hmem⟩
    · cases hround : processRound PcommCall.run stream (some reports) outcome ctx fd with
      | none =>
        rw [hround] at hc
        cases hc
      | some ctx' =>
        rw [hround] at hc
        obtain ⟨hctx', hsince'⟩ := processRound_goesOn hround hctx
        exact ih hc hctx' (hsince.trans hsince')

lemma turns_sublist : ((turns stream reports outcome fds ctx).map PcommFd.fileDescriptor).Sublist
    (fds.filter (· ∈ reports)) := by
  induction fds generalizing ctx with
  | nil => exact List.Sublist.slnil
  | cons fd fds ih =>
    rw [turns, List.map_append]
    have hrest : ((match processRound PcommCall.run stream (some reports) outcome ctx fd with
        | none => []
        | some ctx => turns stream reports outcome fds ctx).map PcommFd.fileDescriptor).Sublist
          (fds.filter (· ∈ reports)) := by
      split
      · exact List.nil_sublist _
      · exact ih
    cases hturn : turnOf stream reports ctx fd with
    | none => exact hrest.trans ((List.sublist_cons_self _ _).filter _)
    | some c =>
      obtain ⟨hset, -, hnumber⟩ := turnOf_spec hturn
      rw [List.filter_cons_of_pos (by simpa using hset)]
      simp only [Option.toList_some, List.map_cons, List.map_nil, hnumber, List.singleton_append]
      exact hrest.cons_cons fd

/-- Nothing is done any more after an immediate stop. -/
lemma foldlM_processRound_exit (hexit : ctx.exitNow = true) (readable : Option (List ℤ))
    (fds : List ℤ) :
    fds.foldlM (processRound PcommCall.run stream readable outcome) ctx = some ctx := by
  induction fds with
  | nil => rfl
  | cons fd fds ih =>
    have hround : processRound PcommCall.run stream readable outcome ctx fd = some ctx := by
      simp [processRound, hexit]
    rw [List.foldlM_cons, hround]
    exact ih

/-- A pass that fits is right. -/
lemma PassFits.right (h : PassFits r filled set stream ctx) (hfilled : Registered filled)
    (hctx : Registered ctx) (hsince : SinceThen filled ctx) :
    PassRight r filled set stream ctx := by
  have hready : ∀ c ∈ streamTurns r filled set stream ctx,
      c.fileDescriptor ∈ set stream ∧ HasFd (filled.fds stream) c := by
    intro c hc
    have hlt := h.since c hc
    rw [streamTurns] at hc
    cases hset : selectSet filled stream with
    | none =>
      rw [hset] at hc
      cases hc
    | some _ =>
      rw [hset] at hc
      obtain ⟨hreported, hhas⟩ := mem_turns hc hctx hsince
      exact ⟨by simpa using (List.mem_filter.mp hreported).2, hhas hlt⟩
  have hnumbers : ((streamTurns r filled set stream ctx).map PcommFd.fileDescriptor).Nodup := by
    rw [streamTurns]
    cases selectSet filled stream with
    | none => exact List.nodup_nil
    | some _ => exact h.once.sublist turns_sublist
  refine ⟨?_, hready, ?_⟩
  · cases hset : selectSet filled stream with
    | none =>
      rcases h.nonnull hset with hnil | hexit
      · exact ⟨ctx, processStream_nil hnil⟩
      · exact ⟨ctx, foldlM_processRound_exit hexit _ _⟩
    | some fds =>
      rw [processStream, processSelectedFds, hset]
      exact foldlM_processRound_some stream _ _ _ ctx
  · rw [List.Nodup, List.pairwise_map] at hnumbers ⊢
    refine hnumbers.imp_of_mem fun {c c'} hc hc' hne heq => hne ?_
    obtain ⟨-, c₀, hc₀, haddress, hnumber⟩ := hready c hc
    obtain ⟨-, c₁, hc₁, haddress', hnumber'⟩ := hready c' hc'
    rw [← hnumber, ← hnumber']
    exact hfilled.number stream c₀ hc₀ c₁ hc₁ (by rw [haddress, haddress', heq])

end Passes

/-! ### Runs -/

section Runs

variable {r : LoopRound} {s s' : LoopState}

/-- Passes that fit follow each other. -/
lemma alongPasses_right {filled ctx : PcommContext} {set : PcommStream → List ℤ}
    (hfilled : Registered filled) (hctx : Registered ctx) (hsince : SinceThen filled ctx)
    (h : AlongPasses (PassFits r filled set) r filled set ctx) :
    AlongPasses (PassRight r filled set) r filled set ctx := by
  obtain ⟨herror, hrest⟩ := h
  refine ⟨herror.right hfilled hctx hsince, fun ctx' hctx' => ?_⟩
  obtain ⟨hwrite, hrest⟩ := hrest ctx' hctx'
  obtain ⟨hregistered, hsince'⟩ := processStream_goesOn hctx' hctx
  refine ⟨hwrite.right hfilled hregistered (hsince.trans hsince'), fun ctx'' hctx'' => ?_⟩
  obtain ⟨hregistered', hsince''⟩ := processStream_goesOn hctx'' hregistered
  exact (hrest ctx'' hctx'').right hfilled hregistered'
    ((hsince.trans hsince').trans hsince'')

/-- Right passes come to their end. -/
lemma afterSelect_some {filled ctx : PcommContext}
    (h : ∀ set, r.select = .ready set →
      AlongPasses (PassRight r filled set) r filled set (callAll r.selected ctx)) :
    ∃ ctx', afterSelect r (selectSet filled) ctx = some ctx' := by
  rw [afterSelect]
  cases hselect : r.select with
  | error e =>
    dsimp only
    split_ifs
    · exact ⟨_, rfl⟩
    · exact ⟨_, rfl⟩
  | timeout =>
    dsimp only
    split_ifs
    · exact ⟨_, rfl⟩
    · exact ⟨_, rfl⟩
    · exact ⟨_, rfl⟩
  | ready set =>
    dsimp only
    split_ifs
    · exact ⟨_, rfl⟩
    obtain ⟨⟨⟨ctx₁, hctx₁⟩, -, -⟩, hrest⟩ := h set hselect
    obtain ⟨⟨⟨ctx₂, hctx₂⟩, -, -⟩, hrest⟩ := hrest ctx₁ hctx₁
    obtain ⟨ctx₃, hctx₃⟩ := (hrest ctx₂ hctx₂).runs
    refine ⟨ctx₃, ?_⟩
    simp only [hctx₁, hctx₂, hctx₃, Option.bind_eq_bind, Option.bind_some]

lemma afterSelect_goesOn {filled ctx ctx' : PcommContext}
    (h : afterSelect r (selectSet filled) ctx = some ctx') : GoesOn ctx ctx' := by
  have hsame : ∀ exitNow, GoesOn ctx { ctx with exitNow } := fun exitNow =>
    .of_fds rfl fun stream => by cases stream <;> rfl
  rw [afterSelect] at h
  cases hselect : r.select with
  | error e =>
    simp only [hselect] at h
    split_ifs at h
    all_goals obtain rfl := Option.some.inj h
    · exact goesOn_closed.refl ctx
    · exact hsame _
  | timeout =>
    simp only [hselect] at h
    split_ifs at h
    all_goals obtain rfl := Option.some.inj h
    · exact goesOn_closed.refl ctx
    · exact goesOn_closed.refl ctx
    · exact callAll_goesOn _ _
  | ready set =>
    simp only [hselect] at h
    split_ifs at h
    · obtain rfl := Option.some.inj h
      exact callAll_goesOn _ _
    · obtain ⟨ctx₁, hctx₁, h⟩ := Option.bind_eq_some_iff.mp h
      obtain ⟨ctx₂, hctx₂, hctx₃⟩ := Option.bind_eq_some_iff.mp h
      exact (((callAll_goesOn _ _).trans (processStream_goesOn hctx₁)).trans
        (processStream_goesOn hctx₂)).trans (processStream_goesOn hctx₃)

lemma pcommRound_goesOn (h : pcommRound r s = some s') : GoesOn s.ctx s'.ctx := by
  have hexit : ∀ ctx : PcommContext, GoesOn ctx { ctx with exitNow := true } := fun ctx =>
    .of_fds rfl fun stream => by cases stream <;> rfl
  have hprepared := callAll_goesOn r.prepare s.ctx
  rw [pcommRound] at h
  dsimp only at h
  split_ifs at h
  · obtain rfl := Option.some.inj h
    exact hexit _
  · obtain rfl := Option.some.inj h
    exact hprepared
  · obtain rfl := Option.some.inj h
    exact hprepared.trans (hexit _)
  · obtain ⟨ctx, hctx, h⟩ := Option.bind_eq_some_iff.mp h
    obtain rfl := Option.some.inj h
    exact (hprepared.trans (callAll_goesOn _ _)).trans (afterSelect_goesOn hctx)

/-- A round whose passes fit does not crash, and its passes are right. -/
lemma round_dispatches (hctx : Registered s.ctx) (h : RoundPasses PassFits r s) :
    RoundDispatches r s := by
  have hright : RoundPasses PassRight r s := by
    intro hselects set hset
    obtain ⟨hfilled, -⟩ := callAll_goesOn r.prepare s.ctx hctx
    obtain ⟨hwaited, hsince⟩ := ((callAll_goesOn r.signal _).trans
      (callAll_goesOn r.selected _)) hfilled
    exact alongPasses_right hfilled hwaited hsince (h hselects set hset)
  refine ⟨?_, hright⟩
  rw [pcommRound]
  dsimp only
  split_ifs with hdone hexit hmax
  · exact ⟨_, rfl⟩
  · exact ⟨_, rfl⟩
  · exact ⟨_, rfl⟩
  · have hselects : Selects r s := ⟨hdone, by simpa using hexit, not_lt.mp hmax⟩
    obtain ⟨ctx', hctx'⟩ := afterSelect_some (hright hselects)
    simp only [hctx']
    exact ⟨_, rfl⟩

lemma along_dispatches {rounds : List LoopRound} (hctx : Registered s.ctx)
    (h : AlongRounds (RoundPasses PassFits) rounds s) : AlongRounds RoundDispatches rounds s := by
  induction rounds generalizing s with
  | nil => trivial
  | cons r rounds ih =>
    rcases h with hexit | ⟨hfits, hrest⟩
    · exact Or.inl hexit
    · refine Or.inr ⟨round_dispatches hctx hfits, fun s' hs' => ih ?_ (hrest s' hs')⟩
      exact (pcommRound_goesOn hs' hctx).1

lemma pcommLoop_some {rounds : List LoopRound} (h : AlongRounds RoundDispatches rounds s) :
    ∃ s', pcommLoop rounds s = some s' := by
  induction rounds generalizing s with
  | nil => exact ⟨s, rfl⟩
  | cons r rounds ih =>
    rw [pcommLoop]
    split_ifs with hexit
    · exact ⟨s, rfl⟩
    · obtain ⟨⟨⟨s', hs'⟩, -⟩, hrest⟩ := h.resolve_left hexit
      simp only [hs']
      exact ih (hrest s' hs')

/-- **Dispatched descriptors.** In every run of the loop all of whose passes fit, no pass looks into
a set that is null, and every pass gives turns only to contexts that were registered for its stream
when the sets were filled and that `select()` reported, each once. -/
theorem pcommLoop_dispatches (setup : List PcommCall) (rounds : List LoopRound)
    (hfits : AlongRounds (RoundPasses PassFits) rounds ⟨callAll setup pcommInit, .success⟩) :
    (∃ s', pcommLoop rounds ⟨callAll setup pcommInit, .success⟩ = some s') ∧
      AlongRounds RoundDispatches rounds ⟨callAll setup pcommInit, .success⟩ := by
  have hctx : Registered (callAll setup pcommInit) :=
    (callAll_goesOn setup pcommInit registered_init).1
  have halong := along_dispatches (s := ⟨callAll setup pcommInit, .success⟩) hctx hfits
  exact ⟨pcommLoop_some halong, halong⟩

/-- A program that reads from these descriptors. -/
def readers (fds : List ℤ) : List PcommCall :=
  fds.map fun fd => .addReadFd fd ⟨true, true, true⟩ true false

/-- A round in which `select()` reports these descriptors, and the callback of the first one makes
some calls. -/
def readRound (fds : List ℤ) (first : ℤ) (calls : List PcommCall) : LoopRound where
  prepare := []
  signal := []
  select := .ready fun _ => fds
  timeout := []
  selected := []
  outcome := fun _ fd =>
    ⟨⟨.wrote 1, 0, true⟩, ⟨.data 1 [], true, true⟩, [], if fd = first then calls else [], []⟩

/-- The callback of one descriptor removes the other, which can be read from too. -/
theorem pcommLoop_dispatches_removal :
    (∃ s', pcommLoop [readRound [5, 6] 5 [.removeFd .read 6]]
        ⟨callAll (readers [5, 6]) pcommInit, .success⟩ = some s') ∧
      AlongRounds RoundDispatches [readRound [5, 6] 5 [.removeFd .read 6]]
        ⟨callAll (readers [5, 6]) pcommInit, .success⟩ := by
  refine pcommLoop_dispatches (readers [5, 6]) [readRound [5, 6] 5 [.removeFd .read 6]]
    (Or.inr ⟨?_, fun _ _ => trivial⟩)
  intro _ set hset
  obtain rfl := SelectResult.ready.inj hset
  refine ⟨⟨by decide, by decide, by decide⟩, fun ctx' hctx' => ?_⟩
  obtain rfl := Option.some.inj hctx'
  refine ⟨⟨by decide, by decide, by decide⟩, fun ctx'' hctx'' => ?_⟩
  obtain rfl := Option.some.inj hctx''
  exact ⟨by decide, by decide, by decide⟩

/-- A drain looks into the set of reads it has not made; a descriptor that is removed and added
again gets the turn of the old one; and one that was added twice gets two turns. -/
theorem pcommLoop_dispatches_not :
    ¬ RoundDispatches (readRound [7] 7 []) ⟨callAll (readers [5] ++
        [.write (.addWriteFd 7 [1] ⟨true, true, true⟩ false false), .write (.stop false)])
          pcommInit, .success⟩ ∧
      ¬ RoundDispatches (readRound [5, 6] 5 (.removeFd .read 6 :: readers [6]))
        ⟨callAll (readers [5, 6]) pcommInit, .success⟩ ∧
      ¬ RoundDispatches (readRound [5] 5 []) ⟨callAll (readers [5, 5]) pcommInit, .success⟩ := by
  refine ⟨?_, ?_, ?_⟩
  · rintro ⟨⟨s', hs'⟩, -⟩
    cases (rfl : pcommRound _ _ = none).symm.trans hs'
  · rintro ⟨-, hpasses⟩
    have hread := ((hpasses ⟨by decide, by decide, by decide⟩ _ rfl).2 _ rfl).2 _ rfl
    have hturns : ∃ c ∈ streamTurns (readRound [5, 6] 5 (.removeFd .read 6 :: readers [6]))
        (callAll (readers [5, 6]) pcommInit) (fun _ => [5, 6]) .read
        (callAll (readers [5, 6]) pcommInit), c.address = 2 := by decide
    obtain ⟨c, hc, haddress⟩ := hturns
    obtain ⟨-, c', hc', heq, -⟩ := hread.ready c hc
    have hnone : ∀ e ∈ (callAll (readers [5, 6]) pcommInit).fds .read, e.address ≠ 2 := by decide
    exact hnone c' hc' (heq.trans haddress)
  · rintro ⟨-, hpasses⟩
    have hread := ((hpasses ⟨by decide, by decide, by decide⟩ _ rfl).2 _ rfl).2 _ rfl
    exact absurd hread.once (by decide)

end Runs

end StationProcessor
