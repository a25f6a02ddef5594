import StationProcessor.Lib.BitMaps

/-!
# The sliding window of data packets

A digitizer sends data packets with a sequence of 16 bits. `processData` stores a packet that is in
the window in one of 256 buffers; `sendDack` processes the packets that have come in sequence and
acknowledges what it has, at once or after a delay that the timer counts down.
-/

namespace StationProcessor

namespace Lib330

/-- `LIBSTATE_...` -/
inductive LibState
  | idle | term | ping | conn | annc | reg | readcfg | readtok | dectok | runwait | run | dealloc
  | dereg | wait
  deriving DecidableEq, Repr

/-- The map of an acknowledgement has four words. -/
scoped instance neZero_acks : NeZero 4 := ⟨by norm_num⟩

/-- `WINBUFS` -/
def winBufs : ℕ := 128

/-- `WINWRAP` -/
def winWrap : UInt16 := 127

/-- A data packet: the sequence of its header and the rest of it. -/
structure DataPacket (β : Type*) where
  sequence : UInt16
  qdp : β

/-- A packet buffer. -/
structure PktBuf (β : Type*) where
  valid : Bool
  buf : DataPacket β

/-- What is sent on the data port: `DT_OPEN`, or `DT_DACK` with the packet acknowledged and the map
of those received from there on. -/
inductive Dataout
  | dopen
  | dack (acknowledge : UInt16) (acks : Fin 4 → BitVec 32)

/-- The parts of the logical parameters that the data port uses. -/
structure Tlog where
  dataseq : UInt16
  ackCnt : UInt16
  ackTo : UInt16

/-- Sliding window status. -/
structure Slidestat where
  lowSeq : UInt16
  latest : UInt16
  validmap : Fin 8 → BitVec 32

/-- The state of the data port of a station thread. `processed` are the packets that went through
`proc_insequence` since the link was reset. -/
structure Slider (β : Type*) where
  libstate : LibState
  freezeTimer : ℤ
  registered : Bool
  linkRecv : Bool
  log : Tlog
  lastPacket : UInt16
  pktBufs : Fin 256 → PktBuf β
  ackCounter : UInt16
  ackDelay : ℕ
  dataout : Option Dataout
  slidestat : Slidestat
  acPackets : ℕ
  acSeqerr : ℕ
  processed : List (DataPacket β)

variable {β : Type*}

/-- The buffer of a sequence, `and 255`. -/
def pktidx (sequence : UInt16) : Fin 256 := Fin.ofNat 256 sequence.toNat

/-- Open the window at the sequence that the digitizer will send next. -/
def resetLink (q330 : Slider β) : Slider β :=
  { q330 with
    lastPacket := q330.log.dataseq
    pktBufs := fun i => { q330.pktBufs i with valid := false }
    linkRecv := true
    ackCounter := 0
    ackDelay := 0
    processed := [] }

/-- Send what is in `dataout`. -/
def dackOut (q330 : Slider β) : Slider β × List Dataout :=
  ({ q330 with ackDelay := 0 }, q330.dataout.toList)

/-- Ask the digitizer to start sending. -/
def sendDopen (q330 : Slider β) : Slider β × List Dataout :=
  let q330 := { q330 with ackCounter := 0 }
  if q330.registered then ({ q330 with dataout := some .dopen }, [.dopen]) else (q330, [])

/-- Is the buffer of a sequence filled? -/
def Slider.valid (q330 : Slider β) (sequence : UInt16) : Bool :=
  (q330.pktBufs (pktidx sequence)).valid

/-- Process the packet in the buffer of `last_packet` and empty the buffer. `after` is the state the
thread is in when the packets of a list have been processed. -/
def procInsequence (after : List (DataPacket β) → LibState) (q330 : Slider β) : Slider β :=
  let idx := pktidx q330.lastPacket
  let processed := q330.processed ++ [(q330.pktBufs idx).buf]
  { q330 with
    processed := processed
    libstate := after processed
    pktBufs := Function.update q330.pktBufs idx { q330.pktBufs idx with valid := false }
    lastPacket := q330.lastPacket + 1 }

/-- The loop of `send_dack`. Each round empties one of the 256 buffers. -/
def insequenceLoop (after : List (DataPacket β) → LibState) : ℕ → Slider β → Slider β
  | 0, q330 => q330
  | rounds + 1, q330 =>
    if q330.valid q330.lastPacket then
      let q330 := procInsequence after q330
      if q330.libstate = .run then insequenceLoop after rounds q330 else q330
    else
      q330

/-- The map of the packets that are in the buffers: bit 0 is the packet before `last_packet`. -/
def ackMap (q330 : Slider β) : Fin 4 → BitVec 32 :=
  BitMap.markAll (fun i => q330.valid (q330.lastPacket + UInt16.ofNat (i - 1)))
    (List.range' 1 (winBufs - 1)) (Function.update (fun _ => 0#32) 0 1#32)

/-- Process what is in sequence and acknowledge it, or have it acknowledged later. -/
def sendDack (after : List (DataPacket β) → LibState) (q330 : Slider β) :
    Slider β × List Dataout :=
  let q330 := insequenceLoop after 256 q330
  let q330 := { q330 with
    dataout := some (.dack (q330.lastPacket - 1) (ackMap q330))
    ackCounter := q330.ackCounter + 1 }
  if q330.ackCounter < q330.log.ackCnt then
    (if q330.ackDelay = 0 then { q330 with ackDelay := q330.log.ackTo.toNat } else q330, [])
  else
    dackOut { q330 with ackCounter := 0 }

/-- Is a sequence inside the window? The upper end `hw` may have wrapped. -/
def insideWindow (lastPacket sequence : UInt16) : Bool :=
  let hw := lastPacket + winWrap
  if lastPacket < hw then decide (lastPacket ≤ sequence) && decide (sequence ≤ hw)
  else decide (lastPacket ≤ sequence) || decide (sequence ≤ hw)

/-- Store a packet in its buffer and note the state of the window. -/
def storePacket (q330 : Slider β) (packet : DataPacket β) : Slider β :=
  let pktBufs := Function.update q330.pktBufs (pktidx packet.sequence) ⟨true, packet⟩
  { q330 with
    pktBufs := pktBufs
    slidestat :=
      { lowSeq := q330.lastPacket - 1
        latest := packet.sequence
        validmap := BitMap.markAll (fun i => (pktBufs (Fin.ofNat 256 i)).valid)
          (List.range 256) fun _ => 0#32 } }

/-- Count a packet, and store it when it is inside the window. -/
def takePacket (q330 : Slider β) (packet : DataPacket β) : Slider β :=
  let q330 := { q330 with acPackets := q330.acPackets + 1 }
  if insideWindow q330.lastPacket packet.sequence then storePacket q330 packet
  else { q330 with acSeqerr := q330.acSeqerr + 1 }

/-- Is the thread taking data? -/
def Slider.Taking (q330 : Slider β) : Prop :=
  q330.linkRecv = true ∧ q330.libstate = .run ∧ q330.freezeTimer ≤ 0

instance (q330 : Slider β) : Decidable q330.Taking := inferInstanceAs (Decidable (_ ∧ _ ∧ _))

/-- A packet came in on the data port. -/
def processData (after : List (DataPacket β) → LibState) (q330 : Slider β)
    (packet : DataPacket β) : Slider β × List Dataout :=
  if q330.Taking then sendDack after (takePacket q330 packet) else (q330, [])

/-- The part of `lib_timer` that sends an acknowledgement whose delay has run out. -/
def ackTimer (q330 : Slider β) : Slider β × List Dataout :=
  if q330.ackDelay = 0 then (q330, [])
  else
    let q330 := { q330 with ackDelay := q330.ackDelay - 1 }
    if q330.ackDelay = 0 ∧ q330.linkRecv = true then dackOut q330 else (q330, [])

/-- What happens to the data port: a packet, a tick of the timer, a new open, a state change, a
freeze and new logical parameters. -/
inductive SliderEvent (α : Type*)
  | data (packet : α)
  | timer
  | dopen
  | state (libstate : LibState)
  | freeze (freezeTimer : ℤ)
  | slog (log : Tlog)

/-- One event and what is sent. -/
def sliderStep (after : List (DataPacket β) → LibState) (q330 : Slider β) :
    SliderEvent (DataPacket β) → Slider β × List Dataout
  | .data packet => processData after q330 packet
  | .timer => ackTimer q330
  | .dopen => sendDopen q330
  | .state libstate => ({ q330 with libstate := libstate }, [])
  | .freeze freezeTimer => ({ q330 with freezeTimer := freezeTimer }, [])
  | .slog log => ({ q330 with log := log }, [])

/-- Events one after another, and all that is sent. -/
def sliderRun (after : List (DataPacket β) → LibState) :
    Slider β → List (SliderEvent (DataPacket β)) → Slider β × List Dataout
  | q330, [] => (q330, [])
  | q330, event :: events =>
    let one := sliderStep after q330 event
    let rest := sliderRun after one.1 events
    (rest.1, one.2 ++ rest.2)

end Lib330

end StationProcessor
