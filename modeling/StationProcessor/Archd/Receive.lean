import StationProcessor.Archd.Server

/-!
# What becomes of the frames of a data source

The frames of the byte stream that do not begin with the command prefix should be queued for the
archive once and in order, the others should go to `ChannelControl` only, and each should get its
reply, however the stream is cut into the results of `recv`.
-/

namespace StationProcessor

variable {n : ℕ}

/-! ### The replies the frames should get -/

/-- The bypass maps after a frame. -/
def bypassAfter (maps : BypassMaps) (frame : Record n) : BypassMaps :=
  if isControl frame then (channelControl maps frame.toList 0).maps else maps

/-- The reply to a frame, with the outcome of its command. -/
def replyFor (maps : BypassMaps) (frame : Record n) : Bytes :=
  if isControl frame then
    let control := channelControl maps frame.toList 0
    if control.result = 1 then okayReply control.msgId
    else if control.result = 0 then failReply control.msgId
    else invalidReply
  else recordReply frame

def repliesFor : BypassMaps → List (Record n) → List Bytes
  | _, [] => []
  | maps, frame :: frames => replyFor maps frame :: repliesFor (bypassAfter maps frame) frames

lemma repliesFor_append (maps : BypassMaps) (fs gs : List (Record n)) :
    repliesFor maps (fs ++ gs)
      = repliesFor maps fs ++ repliesFor (fs.foldl bypassAfter maps) gs := by
  induction fs generalizing maps with
  | nil => rfl
  | cons f fs ih => simp only [List.cons_append, repliesFor, List.foldl_cons, ih]

/-- The frames were handled between two states: those without the prefix are new records, added
to the record queue in order, the commands were applied, and each frame has its reply. -/
structure HandledFrames (s s' : RecvState n) (frames : List (Record n)) (ids : List ℕ) :
    Prop where
  fifo : s'.archd.recordQueue.fifo = s.archd.recordQueue.fifo ++ ids
  data : ids.map (fun id => (s'.archd.records id).data) = frames.filter fun f => !isControl f
  bypass : s'.archd.bypass = frames.foldl bypassAfter s.archd.bypass
  replies : s'.replies = s.replies ++ repliesFor s.archd.bypass frames
  allocated : s.archd.allocated ≤ s'.archd.allocated
  fresh : ∀ id ∈ ids, s.archd.allocated ≤ id ∧ id < s'.archd.allocated
  old : ∀ i < s.archd.allocated, (s'.archd.records i).data = (s.archd.records i).data
  capacity : s'.archd.recordQueue.capacity = s.archd.recordQueue.capacity

lemma HandledFrames.nil (s : RecvState n) : HandledFrames s s [] [] where
  fifo := (List.append_nil _).symm
  data := rfl
  bypass := rfl
  replies := (List.append_nil _).symm
  allocated := le_rfl
  fresh := by simp
  old _ _ := rfl
  capacity := rfl

lemma HandledFrames.append {s s' s'' : RecvState n} {fs gs : List (Record n)}
    {ids ids' : List ℕ} (h : HandledFrames s s' fs ids) (h' : HandledFrames s' s'' gs ids') :
    HandledFrames s s'' (fs ++ gs) (ids ++ ids') where
  fifo := by rw [h'.fifo, h.fifo, List.append_assoc]
  data := by
    have hkept : ids.map (fun id => (s''.archd.records id).data)
        = ids.map (fun id => (s'.archd.records id).data) :=
      List.map_congr_left fun id hid => h'.old id (h.fresh id hid).2
    rw [List.map_append, hkept, h.data, h'.data, List.filter_append]
  bypass := by rw [h'.bypass, h.bypass, List.foldl_append]
  replies := by rw [h'.replies, h.replies, h.bypass, repliesFor_append, List.append_assoc]
  allocated := h.allocated.trans h'.allocated
  fresh := by
    intro id hid
    have := h.allocated
    have := h'.allocated
    rcases List.mem_append.mp hid with hid | hid
    · have := h.fresh id hid
      omega
    · have := h'.fresh id hid
      omega
  old i hi := (h'.old i (hi.trans_le h.allocated)).trans (h.old i hi)
  capacity := h'.capacity.trans h.capacity

/-! ### One frame -/

/-- A frame without the prefix, while no command came before it, is a record. -/
lemma handleFrame_record {env : FrameEnv} {s : RecvState n} {frame : Record n}
    (hcontrol : isControl frame = false) (hresult : s.result = 0)
    (hcap : s.archd.recordQueue.capacity < 0)
    (hbelow : s.archd.recordQueue.BelowAll 0 env.accept.recordNow) :
    HandledFrames s (handleFrame env s frame) [frame] [s.archd.allocated] ∧
      (handleFrame env s frame).result = 0 := by
  have harchd : (handleFrame env s frame).archd
      = (s.archd.allocate frame).accept env.accept s.archd.allocated := by
    unfold handleFrame runCommand answer
    simp only [hcontrol, hresult, Bool.false_eq_true, if_false]
    rfl
  have hreply : (handleFrame env s frame).replies = s.replies ++ [recordReply frame] ∧
      (handleFrame env s frame).result = 0 := by
    unfold handleFrame runCommand answer
    simp only [hcontrol, hresult, Bool.false_eq_true, if_false]
    exact ⟨rfl, rfl⟩
  have hnew := allocate_new s.archd frame
  have hqueue : (handleFrame env s frame).archd.recordQueue
      = (prioqueueAdd s.archd.recordQueue env.accept.recordNow s.archd.allocated 0).1 := by
    rw [harchd, ArchdContext.accept_recordQueue,
      queueRecord_queue _ (show (s.archd.allocate frame).recordQueue.capacity ≠ 0 from hcap.ne),
      hnew]
    rfl
  refine ⟨⟨?_, ?_, ?_, ?_, ?_, ?_, ?_, ?_⟩, hreply.2⟩
  · rw [hqueue, fifo_prioqueueAdd hcap hbelow]
  · rw [harchd, List.map_singleton, ArchdContext.accept_data, hnew]
    simp [hcontrol]
  · rw [harchd]
    simp only [List.foldl_cons, List.foldl_nil, bypassAfter, hcontrol, Bool.false_eq_true, if_false]
    rfl
  · rw [hreply.1]
    simp [repliesFor, replyFor, hcontrol]
  · rw [harchd]
    exact Nat.le_succ _
  · intro id hid
    rw [harchd]
    rw [List.mem_singleton.mp hid]
    exact ⟨le_rfl, Nat.lt_succ_self _⟩
  · intro i hi
    rw [harchd, ArchdContext.accept_data, allocate_old _ _ hi]
  · rw [hqueue, capacity_prioqueueAdd]

/-- A command that is applied goes to `ChannelControl` only. -/
lemma handleFrame_command (env : FrameEnv) {s : RecvState n} {frame : Record n}
    (hcontrol : isControl frame = true)
    (happlied : (channelControl s.archd.bypass frame.toList 0).result = 1) :
    HandledFrames s (handleFrame env s frame) [frame] [] := by
  have hid : channelControl s.archd.bypass frame.toList s.controlId
      = channelControl s.archd.bypass frame.toList 0 :=
    channelControl_msgId (by rw [happlied]; decide) _
  have harchd : (handleFrame env s frame).archd
      = { s.archd.allocate frame with
          bypass := (channelControl s.archd.bypass frame.toList 0).maps } := by
    unfold handleFrame runCommand answer
    simp only [hcontrol, if_true, ArchdContext.allocate, hid, happlied]
    rfl
  have hreply : (handleFrame env s frame).replies
      = s.replies ++ [okayReply (channelControl s.archd.bypass frame.toList 0).msgId] := by
    unfold handleFrame runCommand answer
    simp only [hcontrol, if_true, ArchdContext.allocate, hid, happlied]
    rfl
  refine ⟨?_, ?_, ?_, ?_, ?_, ?_, ?_, ?_⟩
  · rw [harchd]
    exact (List.append_nil _).symm
  · simp [hcontrol]
  · rw [harchd]
    simp only [List.foldl_cons, List.foldl_nil, bypassAfter, hcontrol, if_true]
  · rw [hreply]
    simp only [repliesFor, replyFor, hcontrol, happlied, if_true]
  · rw [harchd]
    exact Nat.le_succ _
  · simp
  · intro i hi
    rw [harchd]
    exact congrArg DataRecord.data (allocate_old _ frame hi)
  · rw [harchd]
    rfl

/-! ### One callback -/

/-- A command is applied, and a record is queued at a clock reading that puts it behind all
others. -/
def Applies (env : FrameEnv) (s : RecvState n) (frame : Record n) : Prop :=
  if isControl frame then (channelControl s.archd.bypass frame.toList 0).result = 1
  else s.archd.recordQueue.BelowAll 0 env.accept.recordNow

instance (env : FrameEnv) (s : RecvState n) (frame : Record n) :
    Decidable (Applies env s frame) :=
  inferInstanceAs (Decidable (if isControl frame then _ else _))

lemma handleFrames_handled {env : ℕ → FrameEnv} {s : RecvState n} {frames : List (Record n)}
    (hresult : s.result = 0 ∨ ∀ f ∈ frames, isControl f = true)
    (hcap : s.archd.recordQueue.capacity < 0)
    (hlast : frames.Pairwise fun f g => isControl f = true → isControl g = true)
    (heach : EachFrame Applies env s frames) :
    ∃ ids, HandledFrames s (handleFrames env s frames) frames ids := by
  induction frames generalizing env s with
  | nil => exact ⟨[], HandledFrames.nil s⟩
  | cons frame frames ih =>
    obtain ⟨happlies, hrest⟩ := heach
    obtain ⟨hfirst, hlast⟩ := List.pairwise_cons.mp hlast
    unfold Applies at happlies
    cases hcontrol : isControl frame with
    | true =>
      rw [if_pos hcontrol] at happlies
      have hframe := handleFrame_command (env 0) hcontrol happlies
      obtain ⟨ids, hids⟩ := ih (Or.inr fun f hf => hfirst f hf hcontrol)
        (by rw [hframe.capacity]; exact hcap) hlast hrest
      exact ⟨ids, hframe.append hids⟩
    | false =>
      rw [if_neg (by rw [hcontrol]; decide)] at happlies
      have hzero : s.result = 0 := by
        rcases hresult with h | h
        · exact h
        · rw [h frame List.mem_cons_self] at hcontrol
          cases hcontrol
      obtain ⟨hframe, hresult'⟩ := handleFrame_record hcontrol hzero hcap happlies
      obtain ⟨ids, hids⟩ := ih (Or.inl hresult') (by rw [hframe.capacity]; exact hcap) hlast hrest
      exact ⟨s.archd.allocated :: ids, hframe.append hids⟩

/-! ### The stream -/

/-- One call of the receive callback: what archd is at that moment, and what the call meets. -/
structure Visit (n : ℕ) where
  archd : ArchdContext n
  env : ℕ → FrameEnv
  avail : Bytes
  ending : RecvEnd

/-- The calls for one data source up to the one that closes the connection, each with the state
it ends in, and the source's context after them. -/
def serve (server : ServerContext) : List (Visit n) → List (RecvState n × Visit n × RecvState n) ×
    ServerContext
  | [] => ([], server)
  | v :: visits =>
    let (out, status) := callbackServerCanRecv v.archd server v.env v.avail v.ending
    if status = .running then
      let (trace, last) := serve out.server visits
      ((RecvState.start v.archd server, v, out) :: trace, last)
    else ([(RecvState.start v.archd server, v, out)], out.server)

/-- In a call the frames without the prefix come before the commands, each command is applied,
and each record is queued at a later clock reading than those in the queue. -/
structure Visit.Orderly (v : Visit n) (server : ServerContext) : Prop where
  controlsLast : (Blocks.complete n (server.buffer ++ v.avail)).Pairwise
    fun f g => isControl f = true → isControl g = true
  each : EachFrame Applies v.env (RecvState.start v.archd server)
    (Blocks.complete n (server.buffer ++ v.avail))

/-- Every call of a run is orderly. -/
def OrderlyRun (server : ServerContext) : List (Visit n) → Prop
  | [] => True
  | v :: visits => v.Orderly server ∧
      ((callbackServerCanRecv v.archd server v.env v.avail v.ending).2 = .running →
        OrderlyRun (callbackServerCanRecv v.archd server v.env v.avail v.ending).1.server visits)

lemma HandledFrames.withBuffer {s s' : RecvState n} {frames : List (Record n)} {ids : List ℕ}
    (h : HandledFrames s s' frames ids) (buffer : Bytes) :
    HandledFrames s (s'.withBuffer buffer) frames ids :=
  ⟨h.fifo, h.data, h.bypass, h.replies, h.allocated, h.fresh, h.old, h.capacity⟩

/-- One orderly call handles the frames it completes. -/
lemma Visit.Orderly.handled {v : Visit n} {server : ServerContext} (h : v.Orderly server)
    (hbuffer : server.buffer.length < n) (hcap : v.archd.recordQueue.capacity < 0) :
    ∃ frames, server.buffer ++ v.avail = Blocks.layout frames
        ++ (callbackServerCanRecv v.archd server v.env v.avail v.ending).1.server.buffer ∧
      (callbackServerCanRecv v.archd server v.env v.avail v.ending).1.server.buffer.length < n ∧
      ∃ ids, HandledFrames (RecvState.start v.archd server)
        (callbackServerCanRecv v.archd server v.env v.avail v.ending).1 frames ids := by
  obtain ⟨rest, status, hcut, hrest, hout⟩ :=
    callbackServerCanRecv_eq v.archd hbuffer v.env v.avail v.ending
  obtain ⟨ids, hids⟩ := handleFrames_handled (Or.inl rfl) hcap h.controlsLast h.each
  rw [hout]
  exact ⟨_, hcut, hrest, ids, hids.withBuffer rest⟩

/-- **Frames of a data source.** In every run of orderly calls, whatever the rest of archd does
between them, the calls handle the consecutive frames of the stream. -/
theorem serve_handles_frames {server : ServerContext} (hbuffer : server.buffer.length < n)
    (visits : List (Visit n)) (hcap : ∀ v ∈ visits, v.archd.recordQueue.capacity = -1)
    (h : OrderlyRun server visits) :
    ∃ batches : List (List (Record n)),
      server.buffer ++ ((serve server visits).1.map fun t => t.2.1.avail).flatten
        = Blocks.layout batches.flatten ++ (serve server visits).2.buffer ∧
      (serve server visits).2.buffer.length < n ∧
      List.Forall₂ (fun t frames => ∃ ids, HandledFrames t.1 t.2.2 frames ids)
        (serve server visits).1 batches := by
  induction visits generalizing server with
  | nil => exact ⟨[], by simp [serve], hbuffer, List.Forall₂.nil⟩
  | cons v visits ih =>
    obtain ⟨hvisit, hnext⟩ := h
    have hcapv : v.archd.recordQueue.capacity < 0 := by
      rw [hcap v List.mem_cons_self]
      decide
    obtain ⟨frames, hcut, hrest, hhandled⟩ := hvisit.handled hbuffer hcapv
    unfold serve
    generalize callbackServerCanRecv v.archd server v.env v.avail v.ending = out at *
    obtain ⟨out, status⟩ := out
    dsimp only at *
    by_cases hstatus : status = .running
    · obtain ⟨batches, hstream, hlen, hforall⟩ :=
        ih hrest (fun v' hv' => hcap v' (List.mem_cons_of_mem v hv')) (hnext hstatus)
      rw [if_pos hstatus]
      refine ⟨frames :: batches, ?_, hlen, List.Forall₂.cons hhandled hforall⟩
      dsimp only
      rw [List.map_cons, List.flatten_cons, ← List.append_assoc, hcut, List.append_assoc, hstream,
        List.flatten_cons, Blocks.layout_append, List.append_assoc]
    · rw [if_neg hstatus]
      refine ⟨[frames], ?_, hrest, List.Forall₂.cons hhandled List.Forall₂.nil⟩
      simpa using hcut

/-- A call at a fresh daemon, one second for each frame, that receives the given bytes. -/
def sampleVisit (avail : Bytes) : Visit 512 where
  archd := ArchdContext.initial
  env i := ⟨⟨⟨i, 0⟩, ⟨i, 0⟩, ⟨i, 0⟩⟩, ⟨i, 0⟩, .all⟩
  avail := avail
  ending := .error .eagain

/-- A record cut in two, another record, and a command. -/
def orderlyVisits : List (Visit 512) :=
  [sampleVisit ((logRecord 0 10).toList.take 300),
    sampleVisit ((logRecord 0 10).toList.drop 300 ++ (logRecord 0 20).toList
      ++ (frameOf (ascii "CHANNELCONTROL-7-ANMO-00-BHZ-ARCHIVE-ON")).toList)]

lemma orderlyVisits_orderly : OrderlyRun ServerContext.connect orderlyVisits :=
  ⟨⟨by decide +kernel, by decide +kernel⟩,
    fun _ => ⟨⟨by decide +kernel, by decide +kernel⟩, fun _ => trivial⟩⟩

theorem serve_handles_frames_cut :
    ∃ batches : List (List (Record 512)),
      ServerContext.connect.buffer
          ++ ((serve ServerContext.connect orderlyVisits).1.map fun t => t.2.1.avail).flatten
        = Blocks.layout batches.flatten
          ++ (serve ServerContext.connect orderlyVisits).2.buffer ∧
      (serve ServerContext.connect orderlyVisits).2.buffer.length < 512 ∧
      List.Forall₂ (fun t frames => ∃ ids, HandledFrames t.1 t.2.2 frames ids)
        (serve ServerContext.connect orderlyVisits).1 batches :=
  serve_handles_frames (by decide) orderlyVisits (by simp [orderlyVisits]; exact ⟨rfl, rfl⟩)
    orderlyVisits_orderly

/-- A record behind a command in one call is answered like the command and lost, and a command
that finds nothing to remove is archived like a record. -/
theorem serve_mistakes_frames :
    ((serve ServerContext.connect [sampleVisit
        ((frameOf (ascii "CHANNELCONTROL-7-ANMO-00-BHZ-ARCHIVE-ON")).toList
          ++ (logRecord 0 10).toList)]).1.map fun t => (t.2.2.archd.queued, t.2.2.replies))
        = [([], [okayReply 7, okayReply 7])] ∧
      repliesFor BypassMaps.none
          [frameOf (ascii "CHANNELCONTROL-7-ANMO-00-BHZ-ARCHIVE-ON"), logRecord 0 10]
        = [okayReply 7, recordReply (logRecord 0 10)] ∧
      ((serve ServerContext.connect [sampleVisit
        (frameOf (ascii "CHANNELCONTROL-7-ANMO-00-BHZ-ARCHIVE-DEFAULT")).toList]).1.map
          fun t => (t.2.2.archd.queued, t.2.2.replies))
        = [([frameOf (ascii "CHANNELCONTROL-7-ANMO-00-BHZ-ARCHIVE-DEFAULT")], [[69]])] ∧
      repliesFor BypassMaps.none [frameOf (ascii "CHANNELCONTROL-7-ANMO-00-BHZ-ARCHIVE-DEFAULT")]
        = [failReply 7] := by
  decide +kernel

end StationProcessor
