import StationProcessor.Lib.Blocks
import StationProcessor.Archd.Context

/-!
# The callbacks of a data source

`callback_server_can_recv` and `callback_server_can_send` of `archd/archd.c`. The receive callback
cuts what it gets into frames of the record size, carries a rest over to the next call, and
answers every frame.
-/

namespace StationProcessor

open Decimal

variable {n : ℕ}

/-! ### Answers -/

def resultChanCmdOkay : ℤ := 1
def resultChanCmdFail : ℤ := 2
def resultChanCmdInvalid : ℤ := 3

/-- Whether a frame begins with the prefix of a channel control command. -/
def isControl (frame : Record n) : Bool := ascii "CHANNELCONTROL-" <+: frame.toList

def okayReply (controlId : ℤ) : Bytes :=
  ascii "CHANNELCONTROL-" ++ printInt controlId ++ ascii "-OKAY." ++ [0]

def failReply (controlId : ℤ) : Bytes :=
  ascii "CHANNELCONTROL-" ++ printInt controlId ++ ascii "-FAIL." ++ [0]

def invalidReply : Bytes := ascii "CHANNELCONTROL-INVALID." ++ [0]

/-- The least significant digit of the sequence number. -/
def recordReply (frame : Record n) : Bytes := [frame.toList.getD 5 0]

/-! ### The receive callback -/

/-- What one frame meets: the clock, and what `send` does with its reply. -/
structure FrameEnv where
  accept : AcceptEnv
  replyNow : Timeval
  send : SendResult

/-- The variables of the receive callback, with the replies it made and the bytes it sent. -/
structure RecvState (n : ℕ) where
  archd : ArchdContext n
  server : ServerContext
  result : ℤ
  controlId : ℤ
  replies : List Bytes
  wire : Bytes

/-- Handle a channel control command. -/
def runCommand (s : RecvState n) (frame : Record n) : RecvState n :=
  if isControl frame then
    let control := channelControl s.archd.bypass frame.toList s.controlId
    { s with
      archd := { s.archd with bypass := control.maps }
      result := control.result
      controlId := control.msgId }
  else s

/-- The `switch (result)`: the reply to a frame, after queueing the record by default. -/
def answer (env : AcceptEnv) (s : RecvState n) (id : ℕ) (frame : Record n) :
    RecvState n × Bytes :=
  if s.result = resultChanCmdOkay then (s, okayReply s.controlId)
  else if s.result = resultChanCmdFail then (s, failReply s.controlId)
  else if s.result = resultChanCmdInvalid then (s, invalidReply)
  else
    ({ s with
        archd := s.archd.accept env id
        server := { s.server with received := s.server.received + 1 } }, recordReply frame)

/-- Send a reply, and queue it where that came back short. -/
def sendReply (now : Timeval) (send : SendResult) (s : RecvState n) (reply : Bytes) :
    RecvState n :=
  { s with
    server :=
      if sentLess (send.bytesSent reply) reply.length then
        { s.server with replyQueue := (prioqueueAdd s.server.replyQueue now reply 0).1 }
      else s.server
    replies := s.replies ++ [reply]
    wire := s.wire ++ send.accepted reply }

/-- One round of the loop with a complete frame in the buffer. The variable `result` keeps the
value of the round before, unless a command sets it. -/
def handleFrame (env : FrameEnv) (s : RecvState n) (frame : Record n) : RecvState n :=
  let id := s.archd.allocated
  let s :=
    { s with archd := s.archd.allocate frame, server := { s.server with buffer := [] } }
  let (s, reply) := answer env.accept (runCommand s frame) id frame
  sendReply env.replyNow env.send s reply

/-- How the last `recv` of a callback ends when no byte is left. -/
inductive RecvEnd
  | error (errno : Errno)
  | disconnected

def RecvEnd.status : RecvEnd → Status
  | .error errno => errno.status
  | .disconnected => .closed

/-- The bytes received complete the buffer to one of these. -/
def RecvState.withBuffer (s : RecvState n) (buffer : Bytes) : RecvState n :=
  { s with server := { s.server with buffer := buffer } }

/-- The loop of the receive callback, where `recv` finds the bytes `avail` before it ends. Each
round takes at least one byte, or is the last. -/
def recvLoop (ending : RecvEnd) :
    ℕ → (ℕ → FrameEnv) → RecvState n → Bytes → RecvState n × Status
  | 0, _, s, _ => (s, .running)
  | fuel + 1, env, s, avail =>
    let readSize := n - s.server.buffer.length
    let chunk := avail.take readSize
    if chunk = [] then (s, ending.status)
    else
      let buffer := s.server.buffer ++ chunk
      if h : buffer.length < n then (s.withBuffer buffer, .running)
      else
        let frame : Record n := ⟨buffer.take n, by rw [List.length_take]; omega⟩
        recvLoop ending fuel (fun i => env (i + 1))
          (handleFrame (env 0) (s.withBuffer buffer) frame) (avail.drop readSize)

/-- The variables of the callback at its start. -/
def RecvState.start (archd : ArchdContext n) (server : ServerContext) : RecvState n :=
  ⟨archd, server, 0, 0, [], []⟩

/-- `callback_server_can_recv`, which gets the bytes `avail`. Every branch that reads `control_id`
comes after an assignment to it. -/
def callbackServerCanRecv (archd : ArchdContext n) (server : ServerContext) (env : ℕ → FrameEnv)
    (avail : Bytes) (ending : RecvEnd) : RecvState n × Status :=
  recvLoop ending (avail.length + 1) env (RecvState.start archd server) avail

/-! ### The send callback -/

/-- The loop of `callback_server_can_send`: send the oldest reply, and remove it unless that came
back short. -/
def sendLoop : ℕ → (ℕ → SendResult) → ServerContext → ServerContext × Bytes × Status
  | 0, _, server => (server, [], .running)
  | fuel + 1, results, server =>
    match prioqueuePopHigh server.replyQueue with
    | none => (server, [], .running)
    | some (reply, replyQueue) =>
      if sentLess ((results 0).bytesSent reply) reply.length then
        match results 0 with
        | .error errno => (server, [], errno.status)
        | r => (server, r.accepted reply, .running)
      else
        let (server', wire, status) := sendLoop fuel (fun i => results (i + 1))
          { server with replyQueue := replyQueue, confirmed := server.confirmed + 1 }
        (server', (results 0).accepted reply ++ wire, status)

/-- `callback_server_can_send`, with the bytes it sent. -/
def callbackServerCanSend (server : ServerContext) (results : ℕ → SendResult) :
    ServerContext × Bytes × Status :=
  sendLoop (server.replyQueue.tree.elements.length + 1) results server

/-! ### The loop is a fold over the frames -/

/-- Handle frames one after the other. -/
def handleFrames : (ℕ → FrameEnv) → RecvState n → List (Record n) → RecvState n
  | _, s, [] => s
  | env, s, frame :: frames =>
    handleFrames (fun i => env (i + 1)) (handleFrame (env 0) s frame) frames

/-- Each frame satisfies `P`, with what it meets and the state before it. -/
def EachFrame (P : FrameEnv → RecvState n → Record n → Prop) :
    (ℕ → FrameEnv) → RecvState n → List (Record n) → Prop
  | _, _, [] => True
  | env, s, frame :: frames =>
    P (env 0) s frame ∧
      EachFrame P (fun i => env (i + 1)) (handleFrame (env 0) s frame) frames

instance EachFrame.decidable {P : FrameEnv → RecvState n → Record n → Prop}
    [∀ env s frame, Decidable (P env s frame)] :
    ∀ env s frames, Decidable (EachFrame P env s frames)
  | _, _, [] => isTrue trivial
  | env, s, frame :: frames =>
    have := EachFrame.decidable (P := P) (fun i => env (i + 1)) (handleFrame (env 0) s frame) frames
    inferInstanceAs (Decidable (_ ∧ _))

lemma handleFrame_withBuffer (env : FrameEnv) (s : RecvState n) (buffer : Bytes)
    (frame : Record n) : handleFrame env (s.withBuffer buffer) frame = handleFrame env s frame :=
  rfl

@[simp] lemma handleFrame_buffer (env : FrameEnv) (s : RecvState n) (frame : Record n) :
    (handleFrame env s frame).server.buffer = [] := by
  unfold handleFrame sendReply answer runCommand
  dsimp only
  split_ifs <;> rfl

/-- A frame gets one reply, which is sent or queued. -/
lemma handleFrame_reply (env : FrameEnv) (s : RecvState n) (frame : Record n) :
    ∃ reply, (handleFrame env s frame).replies = s.replies ++ [reply] ∧
      (handleFrame env s frame).wire = s.wire ++ env.send.accepted reply ∧
      (handleFrame env s frame).server.replyQueue =
        if sentLess (env.send.bytesSent reply) reply.length then
          (prioqueueAdd s.server.replyQueue env.replyNow reply 0).1
        else s.server.replyQueue := by
  unfold handleFrame
  dsimp only
  generalize hs : runCommand _ frame = s'
  have hcommand : s'.server.replyQueue = s.server.replyQueue ∧ s'.replies = s.replies ∧
      s'.wire = s.wire := by
    rw [← hs]
    unfold runCommand
    split_ifs <;> exact ⟨rfl, rfl, rfl⟩
  generalize hanswer : answer env.accept s' s.archd.allocated frame = out
  have hout : out.1.server.replyQueue = s'.server.replyQueue ∧ out.1.replies = s'.replies ∧
      out.1.wire = s'.wire := by
    rw [← hanswer]
    unfold answer
    split_ifs <;> exact ⟨rfl, rfl, rfl⟩
  refine ⟨out.2, ?_, ?_, ?_⟩
  · rw [← hcommand.2.1, ← hout.2.1]
    rfl
  · rw [← hcommand.2.2, ← hout.2.2]
    rfl
  · rw [← hcommand.1, ← hout.1]
    unfold sendReply
    dsimp only
    split_ifs <;> rfl

/-- The loop handles the frames the bytes complete, and keeps the rest in the buffer. -/
lemma recvLoop_eq (ending : RecvEnd) {frames : List (Record n)} {rest : Bytes}
    (hrest : rest.length < n) {fuel : ℕ} (env : ℕ → FrameEnv) {s : RecvState n} {avail : Bytes}
    (hbuffer : s.server.buffer.length < n)
    (hcut : s.server.buffer ++ avail = Blocks.layout frames ++ rest) (hfuel : avail.length < fuel) :
    ∃ status, recvLoop ending fuel env s avail
      = ((handleFrames env s frames).withBuffer rest, status) := by
  induction frames generalizing fuel env s avail with
  | nil =>
    obtain ⟨fuel, rfl⟩ : ∃ k, fuel = k + 1 := ⟨fuel - 1, by omega⟩
    have hlen := congrArg List.length hcut
    simp only [List.length_append, Blocks.layout_nil, List.length_nil] at hlen
    have hchunk : avail.take (n - s.server.buffer.length) = avail :=
      List.take_of_length_le (by omega)
    unfold recvLoop
    simp only [hchunk]
    split_ifs with hnil hshort
    · rw [hnil, List.append_nil] at hcut
      refine ⟨ending.status, ?_⟩
      rw [handleFrames, ← hcut.trans (List.nil_append rest)]
      rfl
    · exact ⟨.running, by rw [hcut]; rfl⟩
    · rw [hcut] at hshort
      exact absurd hrest hshort
  | cons frame frames ih =>
    obtain ⟨fuel, rfl⟩ : ∃ k, fuel = k + 1 := ⟨fuel - 1, by omega⟩
    rw [Blocks.layout_cons, List.append_assoc] at hcut
    have hlen := congrArg List.length hcut
    simp only [List.length_append, List.Vector.toList_length] at hlen
    -- the first chunk completes the buffer to the frame
    have htake : s.server.buffer ++ avail.take (n - s.server.buffer.length) = frame.toList := by
      have := congrArg (List.take n) hcut
      rwa [List.take_append, List.take_of_length_le hbuffer.le,
        Blocks.take_append_of_length frame.toList_length] at this
    have hdrop : avail.drop (n - s.server.buffer.length) = Blocks.layout frames ++ rest := by
      have := congrArg (List.drop n) hcut
      rwa [List.drop_append, List.drop_eq_nil_of_le hbuffer.le, List.nil_append,
        Blocks.drop_append_of_length frame.toList_length] at this
    have hchunk : avail.take (n - s.server.buffer.length) ≠ [] := by
      rw [← List.length_pos_iff, List.length_take]
      omega
    have hfull : ¬frame.toList.length < n := by
      rw [frame.toList_length]
      exact lt_irrefl n
    have hframe : (⟨frame.toList.take n, by rw [List.length_take]; omega⟩ : Record n) = frame :=
      Subtype.ext (List.take_of_length_le frame.toList_length.le)
    unfold recvLoop
    simp only [htake, hdrop, if_neg hchunk, dif_neg hfull, hframe, handleFrame_withBuffer]
    apply ih
    · rw [handleFrame_buffer]
      exact Nat.pos_of_ne_zero (by omega)
    · rw [handleFrame_buffer, List.nil_append]
    · have hshort := congrArg List.length hdrop
      rw [List.length_drop] at hshort
      omega

/-- The callback handles the frames that the bytes received complete. -/
lemma callbackServerCanRecv_eq (archd : ArchdContext n) {server : ServerContext}
    (hbuffer : server.buffer.length < n) (env : ℕ → FrameEnv) (avail : Bytes) (ending : RecvEnd) :
    ∃ rest status,
      server.buffer ++ avail
        = Blocks.layout (Blocks.complete n (server.buffer ++ avail)) ++ rest ∧
      rest.length < n ∧
      callbackServerCanRecv archd server env avail ending
        = ((handleFrames env (RecvState.start archd server)
            (Blocks.complete n (server.buffer ++ avail))).withBuffer rest, status) := by
  obtain ⟨frames, rest, hcut, hrest⟩ :=
    Blocks.exists_layout_append (Nat.zero_lt_of_lt hbuffer) (server.buffer ++ avail)
  have hframes : Blocks.complete n (server.buffer ++ avail) = frames := by
    rw [hcut]
    exact Blocks.complete_layout_append frames hrest
  obtain ⟨status, hloop⟩ :=
    recvLoop_eq ending hrest env (s := RecvState.start archd server) hbuffer hcut
      (Nat.lt_succ_self _)
  rw [hframes]
  exact ⟨rest, status, hcut, hrest, hloop⟩

end StationProcessor
