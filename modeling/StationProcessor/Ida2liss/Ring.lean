import Mathlib.Data.List.Basic
import StationProcessor.Lib.SpareRing

/-!
# The ring of ida2liss

`raw()` reads records from the IDA disk loop and stores them in a ring; `ListenThread` sends them
to its client. The two threads share the ring and its two positions and take turns at every
access to them.
-/

namespace StationProcessor

/-- `SEED_RECLEN`. -/
def seedRecLen : ℕ := 512

/-- The memory of a record. -/
abbrev Payload := ℕ → UInt8

/-- The bytes of a record. -/
def Payload.bytes (p : Payload) : List UInt8 := (List.range seedRecLen).map p

/-- Where `raw()` is: reading a packet, at the test for a full ring, pausing, removing the oldest
record, in `memcpy` with some bytes copied, or about to set `iNext`. -/
inductive RawPc
  | read
  | check (p : Payload)
  | pause (p : Payload)
  | overwrite (p : Payload)
  | copy (p : Payload) (k : ℕ)
  | publish (p : Payload)

/-- Where `ListenThread` is: in `accept_client`, at the test of the wait loop, in `send_record`
with a keepalive packet or with a record, or about to set `iOldest`. -/
inductive ListenPc
  | accept
  | wait (iReturn : ℤ)
  | sendAlive (iSent sendAttempts : ℕ)
  | sendRecord (iSend iSent sendAttempts : ℕ) (sent : List UInt8)
  | release
  | stopped

/-- The shared memory, the connection and the two threads; and which records were read and which
were sent to the last byte. -/
structure LissState where
  depth : ℤ
  iRecords : ℕ
  iOldest : ℕ
  iNext : ℕ
  seedrec : ℕ → Payload
  clientConnected : Bool
  raw : RawPc
  listen : ListenPc
  produced : List (List UInt8)
  delivered : List (List UInt8)

/-- `main` up to the start of the threads. -/
def initLiss (depth : ℤ) : LissState where
  depth := depth
  iRecords := if depth < 4 then 4 else (depth + 1).toNat
  iOldest := 0
  iNext := 0
  seedrec := fun _ _ => 0
  clientConnected := false
  raw := .read
  listen := .accept
  produced := []
  delivered := []

/-! ### The producer -/

/-- `((iNext+1) % iRecords) == iOldest`. -/
def LissState.Full (s : LissState) : Prop := (s.iNext + 1) % s.iRecords = s.iOldest

instance (s : LissState) : Decidable s.Full :=
  inferInstanceAs (Decidable ((s.iNext + 1) % s.iRecords = s.iOldest))

/-- Write a byte of a slot. -/
def LissState.store (s : LissState) (i k : ℕ) (byte : UInt8) : LissState :=
  { s with seedrec := Function.update s.seedrec i (Function.update (s.seedrec i) k byte) }

/-- A step of `raw()`; in `ReadRawPacket` a packet may arrive. -/
def rawStep (packet : Option Payload) (s : LissState) : LissState :=
  match s.raw with
  | .read =>
    match packet with
    | none => s
    | some p => { s with raw := .check p, produced := s.produced ++ [p.bytes] }
  | .check p =>
    if s.Full then
      if s.depth < 0 then { s with raw := .pause p } else { s with raw := .overwrite p }
    else { s with raw := .copy p 0 }
  | .pause p => if s.Full then s else { s with raw := .copy p 0 }
  | .overwrite p => { s with iOldest := (s.iOldest + 1) % s.iRecords, raw := .copy p 0 }
  | .copy p k =>
    if k < seedRecLen then { s.store s.iNext k (p k) with raw := .copy p (k + 1) }
    else { s with raw := .publish p }
  | .publish _ => { s with iNext := (s.iNext + 1) % s.iRecords, raw := .read }

/-! ### The listener -/

/-- What `accept_client` returns. -/
inductive AcceptResult
  | client
  | notOnWhitelist
  | failure
deriving DecidableEq

/-- What `send()` returns: `EAGAIN`, another error, or a count of at most the bytes it was given. -/
inductive LissSend
  | again
  | failed
  | wrote (i : ℕ)
deriving DecidableEq

/-- The environment of a step: a connection, whether the time for a keepalive packet has come, and
the result of `send()`. -/
structure ListenEnv where
  accept : AcceptResult
  due : Bool
  send : LissSend

/-- A round of the loop in `send_record`: the number of bytes `send()` takes, and the result once
the loop is left. -/
def sendRound (iSent sendAttempts : ℕ) (r : LissSend) : ℕ × Option ℤ :=
  match r with
  | .failed => (0, some (-1))
  | .again =>
    if sendAttempts + 1 ≥ 120 then (0, some (-1))
    else (0, none)
  | .wrote i =>
    let i := min i (seedRecLen - iSent)
    if sendAttempts + 1 < 200 ∧ iSent + i < seedRecLen then (i, none)
    else if iSent + i < seedRecLen then (i, some (-1))
    else (i, some 1)

/-- A step of `ListenThread`. A `send_record` without a connection returns 0 at once, and one that
fails closes the connection. -/
def listenStep (env : ListenEnv) (s : LissState) : LissState :=
  match s.listen with
  | .accept =>
    match env.accept with
    | .client => { s with clientConnected := true, listen := .wait 1 }
    | .notOnWhitelist => { s with clientConnected := false }
    | .failure => { s with listen := .stopped }
  | .wait iReturn =>
    if s.iNext = s.iOldest ∧ iReturn > 0 then
      if env.due then
        if s.clientConnected then { s with listen := .sendAlive 0 0 }
        else { s with listen := .wait 0 }
      else s
    else if s.clientConnected then { s with listen := .sendRecord s.iOldest 0 0 [] }
    else { s with listen := .accept }
  | .sendAlive iSent sendAttempts =>
    match sendRound iSent sendAttempts env.send with
    | (i, none) => { s with listen := .sendAlive (iSent + i) (sendAttempts + 1) }
    | (_, some iReturn) =>
      { s with
        clientConnected := if iReturn < 0 then false else s.clientConnected
        listen := .wait iReturn }
  | .sendRecord iSend iSent sendAttempts sent =>
    let (i, result) := sendRound iSent sendAttempts env.send
    let sent := sent ++ (((s.seedrec iSend).bytes.drop iSent).take i)
    match result with
    | none => { s with listen := .sendRecord iSend (iSent + i) (sendAttempts + 1) sent }
    | some iReturn =>
      if iReturn > 0 then { s with listen := .release, delivered := s.delivered ++ [sent] }
      else
        { s with
          clientConnected := if iReturn < 0 then false else s.clientConnected
          listen := .accept }
  | .release => { s with iOldest := (s.iOldest + 1) % s.iRecords, listen := .wait 1 }
  | .stopped => s

/-! ### Runs -/

/-- A step of one of the two threads. -/
inductive LissEvent
  | raw (packet : Option Payload)
  | listen (env : ListenEnv)

def LissEvent.step (s : LissState) : LissEvent → LissState
  | .raw packet => rawStep packet s
  | .listen env => listenStep env s

def lissRun (events : List LissEvent) (s : LissState) : LissState :=
  events.foldl LissEvent.step s

end StationProcessor
