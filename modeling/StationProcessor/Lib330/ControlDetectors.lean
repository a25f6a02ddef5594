import Mathlib.Data.List.Basic
import Mathlib.Logic.Function.Basic
import Mathlib.Tactic

/-!
# Control detectors

A control detector is a boolean equation over detectors, calibrations and comm events. It arrives as
a list of tokens; `expand_control_detectors` turns the tokens into operations on numbered
temporaries, and `evaluate_detector_stack` runs these whenever the compressor has filled a frame.
-/

namespace StationProcessor

namespace Lib330

/-! ### Tokens -/

/-- What an equation reads: `detection_declared` of a detector, `cal_on` of a channel, or `ison` of
a comm event. -/
inductive DetectorFlag
  | detector (num : ℕ)
  | cal (num : ℕ)
  | comm (num : ℕ)
deriving DecidableEq

/-- The numbers of the detectors and the channels of the configuration. -/
structure DetectorConfig where
  detectors : List ℕ
  lcqs : List ℕ

def deoLpar : ℕ := 0
def deoRpar : ℕ := 1
def deoNot : ℕ := 2
def deoAnd : ℕ := 3
def deoOr : ℕ := 4
def deoEor : ℕ := 5
def deoDone : ℕ := 63

/-- A `pboolean`: the address of a flag, the number of a temporary, or an address at which there is
no flag. -/
inductive DetectorOperand
  | flag (f : DetectorFlag)
  | temp (n : ℕ)
  | stray
deriving DecidableEq

/-- `ret`. -/
inductive Ret
  | detp (dx : DetectorOperand)
  | op (o : ℕ)
deriving DecidableEq

/-- `ret_dx`, which shares its place with `ret_o`. -/
def Ret.dx : Ret → DetectorOperand
  | .detp dx => dx
  | .op _ => .stray

/-- Assign a temporary to `ret_dx`; the type stays. -/
def Ret.setTemp (n : ℕ) : Ret → Ret
  | .detp _ => .detp (.temp n)
  | .op _ => .op (n % 256)

/-- What a token stands for. A detector that is not in the configuration is a null pointer that is
read at once, a channel that is not is read when the equation is evaluated. -/
def readTok (config : DetectorConfig) (tok : UInt8) : Option Ret :=
  let low := tok.toNat % 64
  match tok.toNat / 64 with
  | 1 => if low ∈ config.detectors then some (.detp (.flag (.detector low))) else none
  | 2 => some (.detp (if low ∈ config.lcqs then .flag (.cal low) else .stray))
  | 3 => some (.op low)
  | _ => some (.detp (.flag (.comm (low % 32))))

/-- The next token of a list, `DEO_DONE` behind the last. -/
def look (config : DetectorConfig) : List UInt8 → Option Ret
  | [] => some (.op deoDone)
  | tok :: _ => readTok config tok

/-! ### The parser -/

inductive DetectorOp
  | done
  | and
  | or
  | eor
  | not
deriving DecidableEq

/-- `tdetector_operation`; a null second operand is `none`. -/
structure DetectorOperation where
  op : DetectorOp
  tempNum : ℕ
  tospt : DetectorOperand
  nospt : Option DetectorOperand

/-- `texpand`; `pop` is the rest of the token list from the current token on. -/
structure Expand where
  tokenList : List UInt8
  pop : List UInt8
  nextoke : Ret
  pdetop : List DetectorOperation
  tempcnt : ℕ

/-- `stackdetop`. -/
def stackdetop (s : Expand) (tosdetpt : DetectorOperand) (nosdetpt : Option DetectorOperand)
    (detop : DetectorOp) : Expand :=
  { s with
    pdetop := s.pdetop ++ [⟨detop, s.tempcnt + 1, tosdetpt, nosdetpt⟩]
    tempcnt := s.tempcnt + 1 }

/-- `token`; it would start again behind the end. -/
def token (config : DetectorConfig) (s : Expand) : Option Expand :=
  let pop := if s.pop = [] then s.tokenList else s.pop.tail
  (look config pop).map fun nextoke => { s with pop := pop, nextoke := nextoke }

/-- Both operands of `mulop` must be flags or temporaries. -/
def stackBinary (s : Expand) (x y : Ret) (op : DetectorOp) : Ret × Expand :=
  match x, y with
  | .detp a, .detp b =>
    let s := stackdetop s a (some b) op
    (.detp (.temp s.tempcnt), s)
  | _, _ => (.op deoDone, s)

mutual

/-- `unary`. -/
def unary (config : DetectorConfig) : ℕ → Bool → Expand → Option (Ret × Expand)
  | 0, _, _ => none
  | fuel + 1, forcex, s =>
    if s.nextoke = .op deoDone then some (s.nextoke, s)
    else if s.nextoke = .op deoNot then do
      let s ← token config s
      let (uno, s) ← if forcex then express config fuel s else factor config fuel s
      if uno = .op deoDone then some (uno, s)
      else
        let s := stackdetop s uno.dx none .not
        some (uno.setTemp s.tempcnt, s)
    else if forcex then express config fuel s
    else do
      let s' ← token config s
      some (s.nextoke, s')

/-- `factor`. -/
def factor (config : DetectorConfig) : ℕ → Expand → Option (Ret × Expand)
  | 0, _ => none
  | fuel + 1, s =>
    if s.nextoke = .op deoDone then some (s.nextoke, s)
    else if s.nextoke = .op deoLpar then do
      let s ← token config s
      let (fac, s) ← unary config fuel true s
      if fac = .op deoDone then some (fac, s)
      else if s.nextoke = .op deoRpar then do
        let s ← token config s
        some (fac, s)
      else some (.op deoDone, s)
    else unary config fuel false s

/-- The loop of `term`. -/
def termLoop (config : DetectorConfig) : ℕ → Ret → Expand → Option (Ret × Expand)
  | 0, _, _ => none
  | fuel + 1, ter, s =>
    if s.nextoke = .op deoAnd ∨ s.nextoke = .op deoEor then do
      let mulop := if s.nextoke = .op deoAnd then DetectorOp.and else DetectorOp.eor
      let s ← token config s
      let (nfac, s) ← factor config fuel s
      if nfac = .op deoDone then termLoop config fuel ter s
      else
        let (ter, s) := stackBinary s ter nfac mulop
        termLoop config fuel ter s
    else some (ter, s)

/-- `term`. -/
def term (config : DetectorConfig) : ℕ → Expand → Option (Ret × Expand)
  | 0, _ => none
  | fuel + 1, s => do
    let (ter, s) ← factor config fuel s
    if ter = .op deoDone then some (ter, s) else termLoop config fuel ter s

/-- The loop of `express`, which is entered with a flag or a temporary. -/
def expressLoop (config : DetectorConfig) : ℕ → DetectorOperand → Expand → Option (Ret × Expand)
  | 0, _, _ => none
  | fuel + 1, expr, s =>
    if s.nextoke = .op deoOr then do
      let s ← token config s
      let (nter, s) ← term config fuel s
      match nter with
      | .detp dx =>
        let s := stackdetop s expr (some dx) .or
        expressLoop config fuel (.temp s.tempcnt) s
      | .op _ => expressLoop config fuel expr s
    else some (.detp expr, s)

/-- `express`. -/
def express (config : DetectorConfig) : ℕ → Expand → Option (Ret × Expand)
  | 0, _ => none
  | fuel + 1, s => do
    let (expr, s) ← term config fuel s
    match expr with
    | .detp dx => expressLoop config fuel dx s
    | .op _ => some (expr, s)

end

def evaluationStackDepth : ℕ := 50

/-- What stands at an operand: small addresses are the numbers of temporaries. -/
def readOperand (flags : DetectorFlag → Bool) (temps : ℕ → Bool) : DetectorOperand → Option Bool
  | .flag f => some (flags f)
  | .temp n => if n < evaluationStackDepth then some (temps n) else none
  | .stray => none

def DetectorOp.apply (b1 b2 : Bool) : DetectorOp → Bool
  | .done => b1
  | .and => b1 && b2
  | .or => b1 || b2
  | .eor => b1 != b2
  | .not => !b1

/-- An operation; the null operand is temporary 0. -/
def DetectorOperation.run (flags : DetectorFlag → Bool) (temps : ℕ → Bool)
    (pop : DetectorOperation) : Option Bool := do
  let b1 ← readOperand flags temps pop.tospt
  let b2 ← readOperand flags temps (pop.nospt.getD (.temp 0))
  some (pop.op.apply b1 b2)

/-- The loop of `evaluate_detector_stack`: the last operation sets `ison`. -/
def runDetops (flags : DetectorFlag → Bool) : (ℕ → Bool) → List DetectorOperation → Option Bool
  | _, [] => some false
  | temps, pop :: rest => do
    let b3 ← pop.run flags temps
    if rest = [] then some b3
    else if pop.tempNum < evaluationStackDepth then
      runDetops flags (Function.update temps pop.tempNum b3) rest
    else none

end Lib330

end StationProcessor
