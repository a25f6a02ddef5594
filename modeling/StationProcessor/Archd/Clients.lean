import StationProcessor.Archd.Server
import StationProcessor.Archd.Telemetry
import StationProcessor.Diskloop.CloseAll

/-!
# The daemon and its telemetry clients

The callbacks of `archd/archd.c` on the daemon with the map of its connected clients, whose keys
are the numbers of their sockets. Two of them enumerate the map and close the clients that have
not read for too long: the one that offers a new record to every client, and the one of the
timer. What a client is sent is the subject of another module.
-/

namespace StationProcessor

open Assoc Decimal Fallible

variable {n : ℕ} {plat : MapPlatform}

/-! ### The clients -/

/-- `prioqueue_add` on a queue of records with a priority of its own. -/
def queueElement (records : Memory n) (queue : Queue ℕ) (now : Timeval) (id : ℕ) (priority : ℤ) :
    Memory n × Queue ℕ :=
  let (queue', dropped) := prioqueueAdd queue now id priority
  if queue.capacity = 0 then (records, queue)
  else (recordDuplicate (dropped.foldl recordDeallocate records) id, queue')

/-- The loop of `prioqueue_clone`, over the elements of the source from the lowest on. -/
def cloneElements : List (QueueElement ℕ) → (ℕ → Timeval) → Memory n → Queue ℕ →
    Memory n × Queue ℕ
  | [], _, records, target => (records, target)
  | element :: elements, now, records, target =>
    let (records, target) := queueElement records target (now 0) element.data element.priority
    cloneElements elements (fun i => now (i + 1)) records target

/-- `prioqueue_clone`. -/
def prioqueueClone (now : ℕ → Timeval) (records : Memory n) (source : Queue ℕ) :
    Memory n × Queue ℕ :=
  cloneElements source.tree.elements now records (prioqueueInit source.capacity)

/-- `archd_context_t` with the map of the clients. -/
structure Daemon (n : ℕ) where
  archd : ArchdContext n
  clients : Map ClientContext
  clientCount : ℤ
  maxClients : ℤ
  status : Status

/-- The key of a socket, `"%d"`. -/
def socketKey (fd : ℤ) : Bytes := printInt fd

/-- One client and the daemon, as the callbacks for a client see them. -/
def Telemetry.visit (archd : ArchdContext n) (client : ClientContext) : Telemetry n :=
  ⟨archd, client, .running, [], [], []⟩

/-- `add_client_record` as the callback of `map_enum`, with the number of clients. -/
def offerRecord (env : Bytes → OfferEnv) (id : ℕ) (s : ArchdContext n × ℤ) (key : Bytes)
    (client : ClientContext) : (ArchdContext n × ℤ) × Option ClientContext :=
  let t := addClientRecord (env key) (Telemetry.visit s.1 client) id
  if t.status = .running then ((t.archd, s.2), some t.client) else ((t.archd, s.2 - 1), none)

/-- `retire_old_client` as the callback of `map_enum`. -/
def retireClient (now : Bytes → Timeval) (s : ArchdContext n × ℤ) (key : Bytes)
    (client : ClientContext) : (ArchdContext n × ℤ) × Option ClientContext :=
  if retireOldClient (now key) client then
    (((Telemetry.visit s.1 client).close.archd, s.2 - 1), none)
  else (s, some client)

/-- A pass over the clients. -/
abbrev ClientPass (n : ℕ) :=
  ArchdContext n × ℤ → Bytes → ClientContext → (ArchdContext n × ℤ) × Option ClientContext

/-- `map_enum` on the clients. -/
def Daemon.enum (plat : MapPlatform) (d : Daemon n) (visit : ClientPass n) :
    Except Violation (Daemon n) := do
  let (clients, (archd, clientCount), _) ← mapEnum plat visit d.clients (d.archd, d.clientCount)
  return { d with archd := archd, clients := clients, clientCount := clientCount }

/-! ### The callbacks -/

/-- What becomes of a connection request: a call fails after the client was made, or the client
gets a socket. -/
inductive ConnectResult
  | failed
  | connected (fd : ℤ)

/-- What a connection request meets. -/
structure ConnectEnv where
  now : Timeval
  cloneNow : ℕ → Timeval
  result : ConnectResult

/-- `callback_client_connect`. The client gets a copy of the telemetry queue before its socket. -/
def Daemon.connect (plat : MapPlatform) (d : Daemon n) (env : ConnectEnv) :
    Except Violation (Daemon n) :=
  if d.clientCount ≥ d.maxClients then .ok d
  else
    let (records, queue) := prioqueueClone env.cloneNow d.archd.records d.archd.telemetryQueue
    let d := { d with archd := { d.archd with records := records } }
    match env.result with
    | .failed => .ok d
    | .connected fd => do
      let clients ← mapPut plat d.clients (socketKey fd) ⟨env.now, none, 0, 0, queue⟩
      return { d with clients := clients, clientCount := d.clientCount + 1 }

/-- `callback_client_can_send` for a socket. The daemon stops where the socket has no client. -/
def Daemon.canSend (plat : MapPlatform) (d : Daemon n) (fd : ℤ) (env : ℕ → ClientEnv) :
    Except Violation (Daemon n) := do
  match ← mapGet plat d.clients (socketKey fd) with
  | none => return { d with status := .exited }
  | some client =>
    let t := callbackClientCanSend env (Telemetry.visit d.archd client)
    match t.status with
    | .running => do
      let clients ← mapPut plat d.clients (socketKey fd) t.client
      return { d with archd := t.archd, clients := clients }
    | .closed => do
      let (clients, _) ← mapRemove plat d.clients (socketKey fd)
      return { d with archd := t.archd, clients := clients, clientCount := d.clientCount - 1 }
    | .exited => return { d with status := .exited }

/-- What happens to the daemon: a data source completes a frame, `callback_archive` runs, the
timer expires, a client can be sent to, or one connects. The variables of the receive callback
are those of its data source. -/
inductive DaemonEvent (n : ℕ)
  | frame (s : RecvState n) (env : FrameEnv) (offer : Bytes → OfferEnv) (r : Record n)
  | archive (env : ℕ → ArchiveEnv)
  | timeout (now : Bytes → Timeval) (env : ℕ → ArchiveEnv)
  | canSend (fd : ℤ) (env : ℕ → ClientEnv)
  | connect (env : ConnectEnv)

/-- Whether the `switch` on the result of a frame queues the frame as a record. -/
def queuesFrame (s : RecvState n) (frame : Record n) : Bool :=
  let result := (runCommand s frame).result
  result ≠ resultChanCmdOkay && result ≠ resultChanCmdFail && result ≠ resultChanCmdInvalid

/-- A frame is handled, without the pass over the clients. -/
def Daemon.receive (d : Daemon n) (s : RecvState n) (env : FrameEnv) (frame : Record n) :
    Daemon n :=
  { d with archd := (handleFrame env { s with archd := d.archd } frame).archd }

/-- The pass of an event over the clients, with the daemon as it is then. -/
def DaemonEvent.pass (d : Daemon n) : DaemonEvent n → Option (Daemon n × ClientPass n)
  | .frame s env offer r =>
    if queuesFrame { s with archd := d.archd } r ∧ d.archd.telemetryDepth > 0 then
      some (d.receive s env r, offerRecord offer d.archd.allocated)
    else none
  | .timeout now _ => some (d, retireClient now)
  | .archive _ | .canSend _ _ | .connect _ => none

def Daemon.archive (d : Daemon n) (env : ℕ → ArchiveEnv) : Daemon n :=
  { d with archd := (callbackArchive env d.archd).1 }

/-- A callback. -/
def Daemon.step (plat : MapPlatform) (d : Daemon n) (event : DaemonEvent n) :
    Except Violation (Daemon n) :=
  if d.status = .running then
    match event with
    | .frame s env _ r =>
      match event.pass d with
      | none => .ok (d.receive s env r)
      | some (d, visit) => d.enum plat visit
    | .archive env => .ok (d.archive env)
    | .timeout now env => do
      let d ← d.enum plat (retireClient now)
      return d.archive env
    | .canSend fd env => d.canSend plat fd env
    | .connect env => d.connect plat env
  else .ok d

def Daemon.run (plat : MapPlatform) (d : Daemon n) : List (DaemonEvent n) →
    Except Violation (Daemon n)
  | [] => .ok d
  | event :: events => do
    let d ← d.step plat event
    d.run plat events

/-! ### Runs that keep the map -/

/-- A socket that is accepted is the socket of no client. -/
def DaemonEvent.SocketFree (plat : MapPlatform) (d : Daemon n) : DaemonEvent n → Prop
  | .connect env => ∀ fd, env.result = .connected fd →
      mapGet plat d.clients (socketKey fd) = .ok none
  | .frame .. | .archive _ | .timeout .. | .canSend .. => True

instance (plat : MapPlatform) (d : Daemon n) :
    DecidablePred (DaemonEvent.SocketFree plat d)
  | .connect env =>
    match h : env.result with
    | .failed => isTrue fun fd hfd => by
        rw [h] at hfd
        cases hfd
    | .connected fd =>
      match hget : mapGet plat d.clients (socketKey fd) with
      | .ok none => isTrue fun fd' hfd => by
          rw [h] at hfd
          cases hfd
          exact hget
      | .ok (some client) => isFalse fun hfree => by
          rw [hfree fd h] at hget
          cases hget
      | .error e => isFalse fun hfree => by
          rw [hfree fd h] at hget
          cases hget
  | .frame .. => isTrue trivial
  | .archive _ => isTrue trivial
  | .timeout .. => isTrue trivial
  | .canSend .. => isTrue trivial

/-- The clients an event retires have their buckets for themselves, and a new one has a socket of
its own. -/
structure DaemonEvent.Placed (plat : MapPlatform) (d : Daemon n) (event : DaemonEvent n) :
    Prop where
  retired : ∀ p ∈ event.pass d, RemovedAlone plat p.1.clients
    (visitAll p.2 (p.1.archd, p.1.clientCount) p.1.clients.entries).2
  socket : event.SocketFree plat d

instance (plat : MapPlatform) (d : Daemon n) : DecidablePred (DaemonEvent.Placed plat d) :=
  fun event => decidable_of_iff ((∀ p ∈ event.pass d, RemovedAlone plat p.1.clients
    (visitAll p.2 (p.1.archd, p.1.clientCount) p.1.clients.entries).2) ∧ event.SocketFree plat d)
    ⟨fun h => ⟨h.1, h.2⟩, fun h => ⟨h.retired, h.socket⟩⟩

/-- Every event of a run satisfies `P`, in the state it meets. -/
def EachEvent (plat : MapPlatform) (P : Daemon n → DaemonEvent n → Prop) (d : Daemon n) :
    List (DaemonEvent n) → Prop
  | [] => True
  | event :: events => (d.status = .running → P d event) ∧
      ∀ d', d.step plat event = .ok d' → EachEvent plat P d' events

instance EachEvent.decidable {P : Daemon n → DaemonEvent n → Prop}
    [∀ d event, Decidable (P d event)] :
    ∀ (d : Daemon n) events, Decidable (EachEvent plat P d events)
  | _, [] => isTrue trivial
  | d, event :: events =>
    match h : d.step plat event with
    | .ok d' =>
      have := EachEvent.decidable (P := P) d' events
      decidable_of_iff ((d.status = .running → P d event) ∧ EachEvent plat P d' events)
        ⟨fun hall => ⟨hall.1, fun d'' hd'' => by
            rw [h] at hd''
            cases hd''
            exact hall.2⟩,
          fun hall => ⟨hall.1, hall.2 d' h⟩⟩
    | .error e =>
      decidable_of_iff (d.status = .running → P d event)
        ⟨fun hall => ⟨hall, fun d'' hd'' => by
            rw [h] at hd''
            cases hd''⟩,
          fun hall => hall.1⟩

def PlacedRun (plat : MapPlatform) (d : Daemon n) (events : List (DaemonEvent n)) : Prop :=
  EachEvent plat (fun d event => event.Placed plat d) d events

instance (plat : MapPlatform) (d : Daemon n) (events : List (DaemonEvent n)) :
    Decidable (PlacedRun plat d events) :=
  inferInstanceAs (Decidable (EachEvent _ _ _ _))

/-- The pass begins with the clients there are. -/
lemma DaemonEvent.pass_clients {d : Daemon n} {event : DaemonEvent n}
    {p : Daemon n × ClientPass n} (h : event.pass d = some p) : p.1.clients = d.clients := by
  cases event with
  | frame s env offer r =>
    simp only [DaemonEvent.pass] at h
    split_ifs at h
    cases h
    rfl
  | timeout now env =>
    cases h
    rfl
  | archive env => cases h
  | canSend fd env => cases h
  | connect env => cases h

lemma Daemon.enum_ok {d : Daemon n} {f : Bytes → Option ClientContext}
    (h : d.clients.Stores plat f) {visit : ClientPass n}
    (halone : RemovedAlone plat d.clients
      (visitAll visit (d.archd, d.clientCount) d.clients.entries).2) :
    ∃ clients f',
      d.enum plat visit = .ok { d with
        archd := (visitAll visit (d.archd, d.clientCount) d.clients.entries).1.1
        clients := clients
        clientCount := (visitAll visit (d.archd, d.clientCount) d.clients.entries).1.2 } ∧
      clients.Stores plat f' ∧
      Represents (kept (visitAll visit (d.archd, d.clientCount) d.clients.entries).2) f' := by
  obtain ⟨map', f', hok, -, hkept, hstores⟩ := h.enum halone
  refine ⟨map', f', ?_, hstores, hkept⟩
  rw [Daemon.enum, hok]
  rfl

/-- A failing `send` does not end the callback, because its result is not less than the length. -/
lemma clientSendLoop_status (fuel : ℕ) (env : ℕ → ClientEnv) (t : Telemetry n) :
    (clientSendLoop fuel env t).status = t.status := by
  induction fuel generalizing env t with
  | zero => rfl
  | succ fuel ih =>
    rw [clientSendLoop]
    cases hnext : t.next with
    | none => rfl
    | some next =>
      obtain ⟨id, offset, t'⟩ := next
      have hstatus : t'.status = t.status := by
        unfold Telemetry.next at hnext
        split at hnext
        · cases hnext
          rfl
        · split at hnext
          · cases hnext
          · cases hnext
            rfl
      dsimp only
      split_ifs with hless
      · cases hsend : (env 0).send with
        | error errno =>
          rw [hsend, sentLess_error] at hless
          cases hless
        | all => exact hstatus
        | short k => exact hstatus
      · rw [ih]
        exact hstatus

lemma Daemon.canSend_of_none {d : Daemon n} {f : Bytes → Option ClientContext}
    (h : d.clients.Stores plat f) {fd : ℤ} (hclient : f (socketKey fd) = none)
    (env : ℕ → ClientEnv) : d.canSend plat fd env = .ok { d with status := .exited } := by
  rw [Daemon.canSend, h.mapGet, hclient, ok_bind]
  rfl

/-- The send callback for a connected client. -/
lemma Daemon.canSend_of_client {d : Daemon n} {f : Bytes → Option ClientContext}
    (h : d.clients.Stores plat f) {fd : ℤ} {client : ClientContext}
    (hclient : f (socketKey fd) = some client) (env : ℕ → ClientEnv) :
    ∃ clients, d.canSend plat fd env = .ok { d with
        archd := (callbackClientCanSend env (Telemetry.visit d.archd client)).archd
        clients := clients } ∧
      clients.Stores plat (Function.update f (socketKey fd)
        (some (callbackClientCanSend env (Telemetry.visit d.archd client)).client)) := by
  have hstatus : (callbackClientCanSend env (Telemetry.visit d.archd client)).status = .running :=
    clientSendLoop_status _ _ _
  obtain ⟨clients, hput, -, hstores⟩ := h.mapPut (socketKey fd)
    (callbackClientCanSend env (Telemetry.visit d.archd client)).client
  refine ⟨clients, ?_, hstores⟩
  rw [Daemon.canSend, h.mapGet, hclient, ok_bind]
  simp only [hstatus, hput, ok_bind]
  rfl

lemma Daemon.step_stores {d : Daemon n} {f : Bytes → Option ClientContext}
    (h : d.clients.Stores plat f) {event : DaemonEvent n}
    (hplaced : d.status = .running → event.Placed plat d) :
    ∃ d' f', d.step plat event = .ok d' ∧ d'.clients.Stores plat f' := by
  unfold Daemon.step
  split_ifs with hrunning
  · obtain ⟨hretired, hsocket⟩ := hplaced hrunning
    cases event with
    | frame s env offer r =>
      dsimp only
      cases hpass : (DaemonEvent.frame s env offer r).pass d with
      | none => exact ⟨_, f, rfl, h⟩
      | some p =>
        have hclients : p.1.clients = d.clients := DaemonEvent.pass_clients hpass
        obtain ⟨clients, f', hok, hstores, -⟩ :=
          Daemon.enum_ok (by rw [hclients]; exact h) (hretired p hpass)
        exact ⟨_, f', hok, hstores⟩
    | archive env => exact ⟨_, f, rfl, h⟩
    | timeout now env =>
      obtain ⟨clients, f', hok, hstores, -⟩ := Daemon.enum_ok h (hretired (d, retireClient now) rfl)
      dsimp only at hok ⊢
      exact ⟨_, f', by rw [hok]; rfl, hstores⟩
    | canSend fd env =>
      cases hclient : f (socketKey fd) with
      | none =>
        exact ⟨_, f, Daemon.canSend_of_none h hclient env, h⟩
      | some client =>
        obtain ⟨clients, hok, hstores⟩ := Daemon.canSend_of_client h hclient env
        exact ⟨_, _, hok, hstores⟩
    | connect env =>
      dsimp only [Daemon.connect]
      split_ifs
      · exact ⟨d, f, rfl, h⟩
      · cases hresult : env.result with
        | failed => exact ⟨_, f, rfl, h⟩
        | connected fd =>
          obtain ⟨clients, hput, -, hstores⟩ := h.mapPut (socketKey fd)
            ⟨env.now, none, 0, 0,
              (prioqueueClone env.cloneNow d.archd.records d.archd.telemetryQueue).2⟩
          exact ⟨_, _, by simp only [hput]; rfl, hstores⟩
  · exact ⟨d, f, rfl, h⟩

lemma Daemon.run_stores {d : Daemon n} {f : Bytes → Option ClientContext}
    (h : d.clients.Stores plat f) {events : List (DaemonEvent n)}
    (hplaced : PlacedRun plat d events) :
    ∃ d' f', d.run plat events = .ok d' ∧ d'.clients.Stores plat f' := by
  induction events generalizing d f with
  | nil => exact ⟨d, f, rfl, h⟩
  | cons event events ih =>
    obtain ⟨d₁, f₁, hstep, hstores⟩ := Daemon.step_stores h hplaced.1
    obtain ⟨d', f', hrun, hstores'⟩ := ih hstores (hplaced.2 d₁ hstep)
    exact ⟨d', f', by rw [Daemon.run, hstep, ok_bind, hrun], hstores'⟩

/-! ### Passes over the clients -/

/-- A daemon with telemetry of this depth that nobody has connected to. -/
def Daemon.initial (n : ℕ) (telemetryDepth : ℤ) : Daemon n where
  archd := { (ArchdContext.initial : ArchdContext n) with
    telemetryQueue := prioqueueInit telemetryDepth
    telemetryDepth := telemetryDepth }
  clients := mapNew 100 (by decide)
  clientCount := 0
  maxClients := 16
  status := .running

/-- **Enumerations.** `map_enum` calls a callback that may remove the entry it is called with once
for every entry, and keeps the others, exactly when the removed entries have their buckets for
themselves. So `adl_close_all` closes every context exactly when no two contexts share a bucket,
and in every state of the daemon a pass offers a record to every client, and keeps those that are
not retired, exactly when no client it retires shares a bucket. -/
theorem map_enum_keeps_iff (plat : MapPlatform) :
    (∀ (α σ : Type) (map : Map α) (f : Bytes → Option α),
      map.Stores plat f → ∀ (visit : σ → Bytes → α → σ × Option α) (s : σ),
        EnumKeeps plat visit map f s
          ↔ RemovedAlone plat map (visitAll visit s map.entries).2) ∧
    (∀ (n : ℕ) (loops : Map (DiskloopContext n))
        (f : Bytes → Option (DiskloopContext n)), loops.Stores plat f →
      ∀ now, ClosesAll plat now loops f ↔ ∀ key, Alone (mapIndex plat loops.count) f key) ∧
    ∀ (n : ℕ) (depth : ℤ) (events : List (DaemonEvent n)),
      PlacedRun plat (Daemon.initial n depth) events →
        ∃ d f, (Daemon.initial n depth).run plat events = .ok d ∧ d.clients.Stores plat f ∧
          ∀ event : DaemonEvent n, ∀ p ∈ event.pass d,
            EnumKeeps plat p.2 p.1.clients f (p.1.archd, p.1.clientCount)
              ↔ RemovedAlone plat p.1.clients
                (visitAll p.2 (p.1.archd, p.1.clientCount) p.1.clients.entries).2 := by
  refine ⟨fun α σ map f h visit s => h.enumKeeps_iff s,
    fun n loops f h now => closesAll_iff h now, fun n depth events hplaced => ?_⟩
  obtain ⟨d, f, hrun, hstores⟩ :=
    Daemon.run_stores (mapNew_stores plat (by decide : 0 < 100)) hplaced
  refine ⟨d, f, hrun, hstores, fun event p hp => ?_⟩
  have hclients : p.1.clients = d.clients := DaemonEvent.pass_clients hp
  rw [← hclients] at hstores
  exact hstores.enumKeeps_iff _

/-- A client connects on this socket. -/
def connectAt (sec fd : ℤ) : DaemonEvent 512 :=
  .connect ⟨⟨sec, 0⟩, fun _ => ⟨sec, 0⟩, .connected fd⟩

/-- The timer expires. -/
def timeoutAt (sec : ℤ) : DaemonEvent 512 :=
  .timeout (fun _ => ⟨sec, 0⟩) fun _ => ⟨⟨sec, 0⟩, fun _ => 0⟩

/-- Two contexts with buckets of their own are closed, and an idle client that is the only one. -/
theorem map_enum_keeps_iff_own_buckets :
    (∃ loops f, loops.Stores hostMap f ∧ f shortKey = some (sampleLoop 2 [logRecord 0 10]) ∧
      f (ascii "ANMO-00-BHZ") = some (sampleLoop 3 []) ∧
      ClosesAll hostMap (fun _ => (⟨9, 0⟩, ⟨9, 0⟩)) loops f) ∧
    ∃ d f, (Daemon.initial 512 10).run hostMap [connectAt 0 10] = .ok d ∧
      d.clients.Stores hostMap f ∧
      EnumKeeps hostMap (retireClient fun _ => ⟨300, 0⟩) d.clients f (d.archd, d.clientCount) := by
  obtain ⟨henum, hclose, hpass⟩ := map_enum_keeps_iff hostMap
  constructor
  · have hne : shortKey ≠ ascii "ANMO-00-BHZ" := by decide
    have hindex : mapIndex hostMap 256 (ascii "ANMO-00-BHZ") ≠ mapIndex hostMap 256 shortKey := by
      decide
    obtain ⟨loops₁, -, hcount₁, h₁⟩ := (mapNew_stores hostMap (by decide : 0 < 256)).mapPut
      shortKey (sampleLoop 2 [logRecord 0 10])
    obtain ⟨loops, -, hcount, h⟩ := h₁.mapPut (ascii "ANMO-00-BHZ") (sampleLoop 3 [])
    refine ⟨loops, _, h, by simp [Function.update_of_ne hne], by simp, (hclose _ _ _ h _).mpr ?_⟩
    rw [hcount, hcount₁]
    intro key hkey key' hother hkey'
    have hkeys : ∀ k, Function.update (Function.update (fun _ => none) shortKey
        (some (sampleLoop 2 [logRecord 0 10]))) (ascii "ANMO-00-BHZ") (some (sampleLoop 3 [])) k
        ≠ none → k = shortKey ∨ k = ascii "ANMO-00-BHZ" := by
      intro k hk
      by_contra hnot
      rw [not_or] at hnot
      exact hk (by rw [Function.update_of_ne hnot.2, Function.update_of_ne hnot.1])
    rcases hkeys key hkey with rfl | rfl
    · rcases hkeys key' hkey' with rfl | rfl
      · exact absurd rfl hother
      · exact hindex
    · rcases hkeys key' hkey' with rfl | rfl
      · exact hindex.symm
      · exact absurd rfl hother
  · obtain ⟨d, f, hrun, hstores, hkeeps⟩ := hpass 512 10 [connectAt 0 10]
      (by decide +kernel)
    refine ⟨d, f, hrun, hstores, (hkeeps (timeoutAt 300) _ rfl).mpr fun x hx _ => ?_⟩
    -- the client that connected is the only one
    have hcount : ((Daemon.initial 512 10).run hostMap [connectAt 0 10]).toOption.map
        (fun d => mapGetCount d.clients) = some 1 := by decide +kernel
    rw [hrun] at hcount
    have hlength : d.clients.entries.length = 1 := by
      rw [← hstores.count]
      exact Option.some.inj hcount
    obtain ⟨q, hq⟩ := List.length_eq_one_iff.mp hlength
    have honly : ∀ key, f key ≠ none → key = q.1 := by
      intro key hkey
      have hmem := hstores.entries.mem_keys_iff.mpr hkey
      rw [hq] at hmem
      exact List.mem_singleton.mp hmem
    refine (hstores.length_live_iff (hstores.entries.eq_some (mem_of_mem_visitAll hx))).mpr ?_
    intro hkey key' hother hkey'
    exact absurd ((honly key' hkey').trans (honly x.1 hkey).symm) hother

/-- Two contexts that share a bucket are not closed, and neither are two idle clients on sockets
that do. -/
theorem map_enum_outside :
    (do
      let loops ← mapPut hostMap (mapNew 256 (by decide)) shortKey (sampleLoop 2 [logRecord 0 10])
      let loops ← mapPut hostMap loops logKey (sampleLoop 3 [])
      adlCloseAll hostMap (fun _ => (⟨9, 0⟩, ⟨9, 0⟩)) loops).isOk = false ∧
    ((Daemon.initial 512 10).run hostMap
      [connectAt 0 10, connectAt 0 41, timeoutAt 300]).isOk = false := by
  decide +kernel

end StationProcessor
