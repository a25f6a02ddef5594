import StationProcessor.Archd.Receive

/-!
# The replies on the wire

The bytes that go back to a data source should be those of the replies in the order their frames
were received. Replies are sent by the receive callback, and from the reply queue by the send
callback.
-/

namespace StationProcessor

variable {n : ℕ}

/-- A connection: its context, the replies made so far and the bytes `send` took so far. -/
structure Connection where
  server : ServerContext
  replies : List Bytes
  wire : Bytes
  status : Status

def Connection.fresh : Connection := ⟨ServerContext.connect, [], [], .running⟩

/-- The callbacks of a connection. -/
inductive SourceEvent (n : ℕ)
  | recv (visit : Visit n)
  | send (results : ℕ → SendResult)

/-- A callback, until the connection is closed. -/
def Connection.step (s : Connection) : SourceEvent n → Connection
  | .recv v =>
    if s.status = .running then
      let (out, status) := callbackServerCanRecv v.archd s.server v.env v.avail v.ending
      ⟨out.server, s.replies ++ out.replies, s.wire ++ out.wire, status⟩
    else s
  | .send results =>
    if s.status = .running then
      let (server, wire, status) := callbackServerCanSend s.server results
      ⟨server, s.replies, s.wire ++ wire, status⟩
    else s

def Connection.run (s : Connection) (events : List (SourceEvent n)) : Connection :=
  events.foldl Connection.step s

/-- What was sent and what is queued make up the replies, in their order. -/
def Intact (server : ServerContext) (replies : List Bytes) (wire : Bytes) : Prop :=
  wire ++ server.replyQueue.fifo.flatten = replies.flatten

/-! ### Sends that keep the replies in order -/

/-- A reply goes out whole when none is queued, or does not go out at all and is queued at a
later clock reading than the others. -/
def SentInTurn (env : FrameEnv) (s : RecvState n) (_ : Record n) : Prop :=
  env.send = .all ∧ s.server.replyQueue.fifo = [] ∨
    env.send = .short 0 ∧ s.server.replyQueue.BelowAll 0 env.replyNow

instance (env : FrameEnv) (s : RecvState n) (frame : Record n) :
    Decidable (SentInTurn env s frame) :=
  inferInstanceAs (Decidable (_ ∨ _))

/-- In the receive callback each reply is sent in turn; in the send callback each goes out whole
or not at all. -/
inductive SourceEvent.InTurn (s : Connection) : SourceEvent n → Prop
  | recv {v : Visit n} (each : EachFrame SentInTurn v.env (RecvState.start v.archd s.server)
      (Blocks.complete n (s.server.buffer ++ v.avail))) : InTurn s (.recv v)
  | send {results : ℕ → SendResult} (each : ∀ i, results i = .all ∨ results i = .short 0) :
      InTurn s (.send results)

/-- Every callback of a run does so. -/
def InTurnRun (s : Connection) : List (SourceEvent n) → Prop
  | [] => True
  | event :: events => event.InTurn s ∧ InTurnRun (s.step event) events

/-! ### The receive callback -/

lemma handleFrame_intact {env : FrameEnv} {s : RecvState n} {frame : Record n}
    (hcap : s.server.replyQueue.capacity < 0) (hturn : SentInTurn env s frame)
    {replies : List Bytes} {wire : Bytes}
    (h : Intact s.server (replies ++ s.replies) (wire ++ s.wire)) :
    Intact (handleFrame env s frame).server (replies ++ (handleFrame env s frame).replies)
        (wire ++ (handleFrame env s frame).wire) ∧
      (handleFrame env s frame).server.replyQueue.capacity < 0 := by
  obtain ⟨reply, hreplies, hwire, hqueue⟩ := handleFrame_reply env s frame
  unfold Intact at h ⊢
  rw [hreplies, hwire, hqueue, ← List.append_assoc replies, List.flatten_append, ← h]
  rcases hturn with ⟨hall, hempty⟩ | ⟨hnone, hbelow⟩
  · rw [hall, sentLess_all, if_neg Bool.false_ne_true]
    exact ⟨by simp [hempty, SendResult.accepted], hcap⟩
  · rw [hnone]
    have haccepted : (SendResult.short 0).accepted reply = [] := by simp [SendResult.accepted]
    cases hless : sentLess ((SendResult.short 0).bytesSent reply) reply.length with
    | true =>
      rw [if_pos rfl, capacity_prioqueueAdd, fifo_prioqueueAdd hcap hbelow, haccepted]
      exact ⟨by simp, hcap⟩
    | false =>
      rw [if_neg Bool.false_ne_true, haccepted, eq_nil_of_short hless]
      exact ⟨by simp, hcap⟩

lemma handleFrames_intact {env : ℕ → FrameEnv} {s : RecvState n} {frames : List (Record n)}
    (hcap : s.server.replyQueue.capacity < 0) (hturn : EachFrame SentInTurn env s frames)
    {replies : List Bytes} {wire : Bytes}
    (h : Intact s.server (replies ++ s.replies) (wire ++ s.wire)) :
    Intact (handleFrames env s frames).server (replies ++ (handleFrames env s frames).replies)
        (wire ++ (handleFrames env s frames).wire) ∧
      (handleFrames env s frames).server.replyQueue.capacity < 0 := by
  induction frames generalizing env s with
  | nil => exact ⟨h, hcap⟩
  | cons frame frames ih =>
    obtain ⟨hframe, hrest⟩ := hturn
    obtain ⟨h', hcap'⟩ := handleFrame_intact hcap hframe h
    exact ih hcap' hrest h'

/-! ### The send callback -/

lemma sendLoop_intact {results : ℕ → SendResult}
    (hturn : ∀ i, results i = .all ∨ results i = .short 0) (fuel : ℕ) (server : ServerContext) :
    (sendLoop fuel results server).2.1
        ++ (sendLoop fuel results server).1.replyQueue.fifo.flatten
        = server.replyQueue.fifo.flatten ∧
      (sendLoop fuel results server).1.replyQueue.capacity = server.replyQueue.capacity ∧
      (sendLoop fuel results server).1.buffer = server.buffer := by
  induction fuel generalizing results server with
  | zero => exact ⟨rfl, rfl, rfl⟩
  | succ fuel ih =>
    unfold sendLoop
    cases hpop : prioqueuePopHigh server.replyQueue with
    | none => exact ⟨rfl, rfl, rfl⟩
    | some popped =>
      obtain ⟨reply, replyQueue⟩ := popped
      have hfifo := fifo_of_popHigh hpop
      have hcapacity := capacity_of_popHigh hpop
      obtain ⟨hwire, hcap, hbuffer⟩ := ih (fun i => hturn (i + 1))
        { server with replyQueue := replyQueue, confirmed := server.confirmed + 1 }
      dsimp only at hwire hcap hbuffer ⊢
      rcases hturn 0 with hall | hnone
      · simp only [hall, sentLess_all, Bool.false_eq_true, if_false, SendResult.accepted]
        refine ⟨?_, hcap.trans hcapacity, hbuffer⟩
        rw [List.append_assoc, hwire, hfifo, List.flatten_cons]
      · have haccepted : (SendResult.short 0).accepted reply = [] := by
          simp [SendResult.accepted]
        simp only [hnone, haccepted]
        cases hless : sentLess ((SendResult.short 0).bytesSent reply) reply.length with
        | true => exact ⟨by simp, rfl, rfl⟩
        | false =>
          simp only [Bool.false_eq_true, if_false, List.nil_append]
          refine ⟨?_, hcap.trans hcapacity, hbuffer⟩
          rw [hwire, hfifo, eq_nil_of_short hless, List.flatten_cons, List.nil_append]

/-! ### Runs -/

/-- What the runs keep. -/
structure Connection.Sound (n : ℕ) (s : Connection) : Prop where
  intact : Intact s.server s.replies s.wire
  capacity : s.server.replyQueue.capacity < 0
  buffer : s.server.buffer.length < n

lemma Connection.Sound.step {s : Connection} (h : s.Sound n) {event : SourceEvent n}
    (hturn : event.InTurn s) : (s.step event).Sound n := by
  cases hturn with
  | @recv v hturn =>
    unfold Connection.step
    split_ifs
    · obtain ⟨rest, status, -, hrest, hout⟩ :=
        callbackServerCanRecv_eq v.archd h.buffer v.env v.avail v.ending
      have hstart : Intact (RecvState.start v.archd s.server).server
          (s.replies ++ (RecvState.start v.archd s.server).replies)
          (s.wire ++ (RecvState.start v.archd s.server).wire) := by
        simpa [RecvState.start] using h.intact
      obtain ⟨hintact, hcap⟩ := handleFrames_intact h.capacity hturn hstart
      dsimp only
      rw [hout]
      exact ⟨hintact, hcap, hrest⟩
    · exact h
  | @send results hturn =>
    unfold Connection.step
    split_ifs
    · obtain ⟨hwire, hcap, hbuffer⟩ := sendLoop_intact hturn
        (s.server.replyQueue.tree.elements.length + 1) s.server
      refine ⟨?_, ?_, ?_⟩
      · show s.wire ++ _ ++ _ = s.replies.flatten
        rw [← h.intact, List.append_assoc]
        exact congrArg (s.wire ++ ·) hwire
      · exact hcap.trans_lt h.capacity
      · show (callbackServerCanSend s.server results).1.buffer.length < n
        rw [callbackServerCanSend, hbuffer]
        exact h.buffer
    · exact h

lemma Connection.Sound.run {s : Connection} (h : s.Sound n) {events : List (SourceEvent n)}
    (hturn : InTurnRun s events) : (s.run events).Sound n := by
  induction events generalizing s with
  | nil => exact h
  | cons event events ih => exact ih (h.step hturn.1) hturn.2

/-- **Acknowledgements.** In every run whose sends are in turn, the bytes sent back and the queued
replies are the replies in the order of their frames; what was sent is a prefix. -/
theorem acknowledgements_intact (hn : 0 < n) (events : List (SourceEvent n))
    (hturn : InTurnRun Connection.fresh events) :
    (Connection.fresh.run events).wire
        ++ (Connection.fresh.run events).server.replyQueue.fifo.flatten
        = (Connection.fresh.run events).replies.flatten ∧
      (Connection.fresh.run events).wire <+: (Connection.fresh.run events).replies.flatten := by
  have hfresh : Connection.fresh.Sound n := ⟨rfl, by decide, hn⟩
  have hrun := (hfresh.run hturn).intact
  exact ⟨hrun, _, hrun⟩

/-- The call `sampleVisit` with these results of `send`. -/
def sendingVisit (sends : ℕ → SendResult) (avail : Bytes) : Visit 512 :=
  { sampleVisit avail with env := fun i => { (sampleVisit avail).env i with send := sends i } }

/-- Two records, numbered 1 and 2. -/
def twoRecords : Bytes := (frameOf (ascii "000001D")).toList ++ (frameOf (ascii "000002D")).toList

/-- A call in which the reply to the second record has to wait for the send callback. -/
def inTurnVisit : Visit 512 :=
  sendingVisit (fun i => if i = 0 then .all else .short 0) twoRecords

def inTurnEvents : List (SourceEvent 512) := [.recv inTurnVisit, .send fun _ => .all]

lemma inTurnEvents_inTurn : InTurnRun Connection.fresh inTurnEvents :=
  ⟨.recv (by decide +kernel), .send fun _ => Or.inl rfl, trivial⟩

theorem acknowledgements_intact_two :
    (Connection.fresh.run inTurnEvents).wire
        ++ (Connection.fresh.run inTurnEvents).server.replyQueue.fifo.flatten
        = (Connection.fresh.run inTurnEvents).replies.flatten ∧
      (Connection.fresh.run inTurnEvents).wire
        <+: (Connection.fresh.run inTurnEvents).replies.flatten :=
  acknowledgements_intact (by decide) inTurnEvents inTurnEvents_inTurn

/-- A reply that `send` refuses is dropped; a reply overtakes one that waits in the queue; and a
reply of which a part went out is sent again from its start. -/
theorem acknowledgements_broken :
    (Connection.fresh.run [.recv (sendingVisit
        (fun i => if i = 0 then .error .eagain else .all) twoRecords)]).wire = [50] ∧
      (Connection.fresh.run [.recv (sendingVisit
        (fun i => if i = 0 then .short 0 else .all) twoRecords), .send fun _ => .all]).wire
        = [50, 49] ∧
      (Connection.fresh.run [.recv (sendingVisit (fun _ => .all) twoRecords)]).replies.flatten
        = [49, 50] ∧
      (Connection.fresh.run [.recv (sendingVisit (fun _ => .short 14)
          (frameOf (ascii "CHANNELCONTROL-7-ANMO-00-BHZ-ARCHIVE-ON")).toList),
        .send fun _ => .all]).wire = ascii "CHANNELCONTROL" ++ okayReply 7 := by
  decide +kernel

end StationProcessor
