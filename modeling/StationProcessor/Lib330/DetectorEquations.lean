import StationProcessor.Lib330.ControlDetectors

/-!
# What the operations of a control detector mean

The equations of control detectors as trees, the token lists that stand for them, and the operations
these are expanded to. Behind an opening parenthesis `not` takes in everything up to the closing
one; elsewhere it takes in one factor.
-/

namespace StationProcessor

namespace Lib330

/-! ### Equations -/

inductive BinaryOp
  | and
  | eor
  | or

/-- The code of the operator in a token. -/
def BinaryOp.deo : BinaryOp → ℕ
  | .and => deoAnd
  | .eor => deoEor
  | .or => deoOr

def BinaryOp.detop : BinaryOp → DetectorOp
  | .and => .and
  | .eor => .eor
  | .or => .or

def BinaryOp.eval (a b : Bool) : BinaryOp → Bool
  | .and => a && b
  | .eor => a != b
  | .or => a || b

inductive Equation
  | flag (f : DetectorFlag)
  | not (x : Equation)
  | binary (op : BinaryOp) (x y : Equation)
  | group (x : Equation)
  | notGroup (x : Equation)

def DetectorFlag.tok : DetectorFlag → UInt8
  | .detector num => .ofNat (64 + num)
  | .cal num => .ofNat (128 + num)
  | .comm num => .ofNat num

/-- The token of an operator. -/
def opTok (o : ℕ) : UInt8 := .ofNat (192 + o)

/-- The flag has a token and is in the configuration. -/
def DetectorFlag.Known (config : DetectorConfig) : DetectorFlag → Prop
  | .detector num => num < 64 ∧ num ∈ config.detectors
  | .cal num => num < 64 ∧ num ∈ config.lcqs
  | .comm num => num < 32

namespace Equation

def tokens : Equation → List UInt8
  | flag f => [f.tok]
  | not x => opTok deoNot :: x.tokens
  | binary op x y => x.tokens ++ opTok op.deo :: y.tokens
  | group x => opTok deoLpar :: (x.tokens ++ [opTok deoRpar])
  | notGroup x => opTok deoLpar :: opTok deoNot :: (x.tokens ++ [opTok deoRpar])

def eval (flags : DetectorFlag → Bool) : Equation → Bool
  | flag f => flags f
  | not x => !x.eval flags
  | binary op x y => op.eval (x.eval flags) (y.eval flags)
  | group x => x.eval flags
  | notGroup x => !x.eval flags

/-- 0 for a factor, 1 for a term, 2 for an expression. -/
def level : Equation → ℕ
  | binary .or _ _ => 2
  | binary _ _ _ => 1
  | _ => 0

def startsWithNot : Equation → Bool
  | not _ => true
  | binary _ x _ => x.startsWithNot
  | _ => false

/-- The tokens of the equation can be read back: the operands of an operator are of its level, and
no group starts with `not`. -/
def WellFormed (config : DetectorConfig) : Equation → Prop
  | flag f => f.Known config
  | not x => x.WellFormed config ∧ x.level = 0
  | binary .or x y => x.WellFormed config ∧ y.WellFormed config ∧ y.level ≤ 1
  | binary _ x y => x.WellFormed config ∧ y.WellFormed config ∧ x.level ≤ 1 ∧ y.level = 0
  | group x => x.WellFormed config ∧ x.startsWithNot = false
  | notGroup x => x.WellFormed config

/-! ### Operations -/

/-- The number of operators. -/
def ops : Equation → ℕ
  | flag _ => 0
  | group x => x.ops
  | not x | notGroup x => x.ops + 1
  | binary _ x y => x.ops + y.ops + 1

/-- Where the value of the equation stands after its operations, when `n` temporaries are in use
before. -/
def operand (n : ℕ) : Equation → DetectorOperand
  | flag f => .flag f
  | group x => x.operand n
  | x => .temp (n + x.ops)

/-- The operations of the equation. -/
def code (n : ℕ) : Equation → List DetectorOperation
  | flag _ => []
  | group x => x.code n
  | not x | notGroup x => x.code n ++ [⟨.not, n + x.ops + 1, x.operand n, none⟩]
  | binary op x y => x.code n ++ y.code (n + x.ops) ++
    [⟨op.detop, n + x.ops + y.ops + 1, x.operand n, some (y.operand (n + x.ops))⟩]

end Equation

/-! ### Reading tokens -/

section Tokens

variable {config : DetectorConfig}

lemma readTok_opTok {o : ℕ} (h : o < 64) : readTok config (opTok o) = some (.op o) := by
  have hval : (opTok o).toNat = 192 + o := by
    simp [opTok]
    omega
  have hclass : (192 + o) / 64 = 3 := by omega
  have hlow : (192 + o) % 64 = o := by omega
  simp [readTok, hval, hclass, hlow]

lemma readTok_flag {f : DetectorFlag} (h : f.Known config) :
    readTok config f.tok = some (.detp (.flag f)) := by
  cases f with
  | detector num =>
    obtain ⟨hnum, hmem⟩ := h
    have hval : (DetectorFlag.detector num).tok.toNat = 64 + num := by
      simp [DetectorFlag.tok]
      omega
    have hclass : (64 + num) / 64 = 1 := by omega
    have hlow : (64 + num) % 64 = num := by omega
    simp [readTok, hval, hclass, hlow, hmem]
  | cal num =>
    obtain ⟨hnum, hmem⟩ := h
    have hval : (DetectorFlag.cal num).tok.toNat = 128 + num := by
      simp [DetectorFlag.tok]
      omega
    have hclass : (128 + num) / 64 = 2 := by omega
    have hlow : (128 + num) % 64 = num := by omega
    simp [readTok, hval, hclass, hlow, hmem]
  | comm num =>
    have hnum : num < 32 := h
    have hval : (DetectorFlag.comm num).tok.toNat = num := by
      simp [DetectorFlag.tok]
      omega
    have hclass : num / 64 = 0 := by omega
    have hlow : num % 64 % 32 = num := by omega
    simp [readTok, hval, hclass, hlow]

lemma BinaryOp.deo_lt (op : BinaryOp) : op.deo < 64 := by
  cases op <;> decide

lemma Equation.WellFormed.left {op : BinaryOp} {x y : Equation}
    (h : (Equation.binary op x y).WellFormed config) : x.WellFormed config := by
  cases op <;> exact h.1

lemma Equation.WellFormed.right {op : BinaryOp} {x y : Equation}
    (h : (Equation.binary op x y).WellFormed config) : y.WellFormed config := by
  cases op <;> exact h.2.1

/-- The token an equation starts with. -/
def Equation.first : Equation → Ret
  | .flag f => .detp (.flag f)
  | .not _ => .op deoNot
  | .binary _ x _ => x.first
  | .group _ | .notGroup _ => .op deoLpar

lemma look_opTok {o : ℕ} (h : o < 64) (more : List UInt8) :
    look config (opTok o :: more) = some (.op o) := readTok_opTok h

lemma Equation.look_tokens {e : Equation} (h : e.WellFormed config) (more : List UInt8) :
    look config (e.tokens ++ more) = some e.first := by
  induction e generalizing more with
  | flag f => exact readTok_flag h
  | not x => exact look_opTok (o := deoNot) (by decide) _
  | binary op x y ihx ihy => simpa [tokens, first] using ihx h.left _
  | group x | notGroup x => exact look_opTok (o := deoLpar) (by decide) _

lemma Equation.first_ne_done (e : Equation) : e.first ≠ .op deoDone := by
  induction e <;> simp_all [first, deoNot, deoLpar, deoDone]

lemma Equation.first_eq_not_iff (e : Equation) : e.first = .op deoNot ↔ e.startsWithNot = true := by
  induction e <;> simp_all [first, startsWithNot, deoNot, deoLpar]

end Tokens

/-! ### The parser -/

section Parser

variable {config : DetectorConfig} {s : Expand} {more : List UInt8} {r : Ret} {fuel : ℕ}
  {e x y : Equation}

/-- The parser stands in front of these tokens. -/
structure Expand.At (config : DetectorConfig) (s : Expand) (toks : List UInt8) : Prop where
  pop : s.pop = toks
  nextoke : look config toks = some s.nextoke

/-- Go to these tokens, of which `r` is the first. -/
def Expand.goto (s : Expand) (toks : List UInt8) (r : Ret) : Expand :=
  { s with pop := toks, nextoke := r }

/-- The operations of an equation were added, and the parser stands in front of these tokens, of
which `r` is the first. -/
def Expand.emit (s : Expand) (e : Equation) (toks : List UInt8) (r : Ret) : Expand :=
  { s with
    pop := toks
    nextoke := r
    pdetop := s.pdetop ++ e.code s.tempcnt
    tempcnt := s.tempcnt + e.ops }

@[simp] lemma nextoke_goto (toks : List UInt8) : (s.goto toks r).nextoke = r := rfl

@[simp] lemma tempcnt_goto (toks : List UInt8) : (s.goto toks r).tempcnt = s.tempcnt := rfl

@[simp] lemma nextoke_emit (toks : List UInt8) : (s.emit e toks r).nextoke = r := rfl

@[simp] lemma tempcnt_emit (toks : List UInt8) :
    (s.emit e toks r).tempcnt = s.tempcnt + e.ops := rfl

@[simp] lemma emit_goto (toks toks' : List UInt8) (r' : Ret) :
    (s.goto toks r).emit e toks' r' = s.emit e toks' r' := rfl

@[simp] lemma goto_emit (toks toks' : List UInt8) (r' : Ret) :
    (s.emit e toks r).goto toks' r' = s.emit e toks' r' := rfl

lemma Expand.at_goto {toks : List UInt8} (h : look config toks = some r) :
    (s.goto toks r).At config toks := ⟨rfl, h⟩

lemma Expand.at_emit {toks : List UInt8} (h : look config toks = some r) :
    (s.emit e toks r).At config toks := ⟨rfl, h⟩

lemma Expand.At.token {tok : UInt8} {toks : List UInt8} (h : s.At config (tok :: toks))
    (hr : look config toks = some r) : token config s = some (s.goto toks r) := by
  simp [Lib330.token, h.pop, hr, Expand.goto]

lemma Expand.At.op {o : ℕ} {toks : List UInt8} (h : s.At config (opTok o :: toks)) (ho : o < 64) :
    s.nextoke = .op o :=
  Option.some_inj.mp (h.nextoke.symm.trans (look_opTok ho toks))

/-- The number of turns the loop of `term` takes. -/
def Equation.termTurns : Equation → ℕ
  | .binary .or _ _ => 0
  | .binary _ x _ => x.termTurns + 1
  | _ => 0

/-- The number of turns the loop of `express` takes. -/
def Equation.expressTurns : Equation → ℕ
  | .binary .or x _ => x.expressTurns + 1
  | _ => 0

lemma Equation.termTurns_lt (e : Equation) : e.termTurns < e.tokens.length := by
  induction e with
  | binary op x y ihx ihy =>
    simp [tokens]
    cases op <;> simp [termTurns] <;> omega
  | _ => simp [termTurns, tokens]

lemma Equation.expressTurns_lt (e : Equation) : e.expressTurns < e.tokens.length := by
  induction e with
  | binary op x y ihx ihy =>
    simp [tokens]
    cases op <;> simp [expressTurns]
    omega
  | _ => simp [expressTurns, tokens]

lemma Equation.termTurns_of_level (h : e.level = 0) : e.termTurns = 0 := by
  cases e with
  | binary op x y => cases op <;> simp [level] at h
  | _ => rfl

lemma Equation.expressTurns_of_level (h : e.level ≤ 1) : e.expressTurns = 0 := by
  cases e with
  | binary op x y => cases op <;> simp [level, expressTurns] at h ⊢
  | _ => rfl

/-- `factor` reads the equation. -/
def ReadsFactor (config : DetectorConfig) (e : Equation) : Prop :=
  ∀ (s : Expand) (more : List UInt8) (r : Ret) (fuel : ℕ), s.At config (e.tokens ++ more) →
    look config more = some r → 6 * e.tokens.length ≤ fuel →
    factor config fuel s = some (.detp (e.operand s.tempcnt), s.emit e more r)

/-- `term` reads the equation and goes on with its loop. -/
def ReadsTerm (config : DetectorConfig) (e : Equation) : Prop :=
  ∀ (s : Expand) (more : List UInt8) (r : Ret) (fuel : ℕ), s.At config (e.tokens ++ more) →
    look config more = some r → 6 * e.tokens.length ≤ fuel + e.termTurns →
    term config (fuel + e.termTurns + 1) s
      = termLoop config fuel (.detp (e.operand s.tempcnt)) (s.emit e more r)

/-- `express` reads the equation and goes on with its loop. -/
def ReadsExpress (config : DetectorConfig) (e : Equation) : Prop :=
  ∀ (s : Expand) (more : List UInt8) (r : Ret) (fuel : ℕ), s.At config (e.tokens ++ more) →
    look config more = some r → r ≠ .op deoAnd → r ≠ .op deoEor →
    6 * e.tokens.length + 1 ≤ fuel + e.expressTurns →
    express config (fuel + e.expressTurns + 1) s
      = expressLoop config fuel (e.operand s.tempcnt) (s.emit e more r)

lemma termLoop_end {ter : Ret} (hand : s.nextoke ≠ .op deoAnd) (heor : s.nextoke ≠ .op deoEor)
    (fuel : ℕ) : termLoop config (fuel + 1) ter s = some (ter, s) := by
  simp [termLoop, hand, heor]

lemma expressLoop_end {dx : DetectorOperand} (h : s.nextoke ≠ .op deoOr) (fuel : ℕ) :
    expressLoop config (fuel + 1) dx s = some (.detp dx, s) := by
  simp [expressLoop, h]

lemma ReadsFactor.term (h : ReadsFactor config e) (hlevel : e.level = 0) :
    ReadsTerm config e := by
  intro s more r fuel hat hmore hfuel
  have hturns := e.termTurns_of_level hlevel
  have hread := h s more r fuel hat hmore (by omega)
  simp [Lib330.term, hturns, hread]

lemma ReadsTerm.express (h : ReadsTerm config e) (hlevel : e.level ≤ 1) :
    ReadsExpress config e := by
  intro s more r fuel hat hmore hand heor hfuel
  have hturns := e.expressTurns_of_level hlevel
  have hlt := e.termTurns_lt
  obtain ⟨rest, rfl⟩ : ∃ rest, fuel = rest + 1 + e.termTurns + 1 :=
    ⟨fuel - e.termTurns - 2, by omega⟩
  have hterm := h s more r (rest + 1) hat hmore (by omega)
  rw [termLoop_end hand heor] at hterm
  simp [Lib330.express, hturns, hterm]

lemma ReadsFactor.flag {f : DetectorFlag} (hf : f.Known config) :
    ReadsFactor config (.flag f) := by
  intro s more r fuel hat hmore hfuel
  obtain ⟨rest, rfl⟩ : ∃ rest, fuel = rest + 2 := by
    refine ⟨fuel - 2, ?_⟩
    simp [Equation.tokens] at hfuel
    omega
  have hnext : s.nextoke = .detp (.flag f) :=
    Option.some_inj.mp (hat.nextoke.symm.trans (readTok_flag hf))
  have htoken := hat.token hmore
  simp [factor, unary, hnext, htoken, Equation.operand, Expand.goto, Expand.emit, Equation.code,
    Equation.ops]

/-! The operation of an operator follows those of its operands. -/

lemma stackdetop_not (toks : List UInt8) :
    stackdetop (s.emit x toks r) (x.operand s.tempcnt) none .not = s.emit (.not x) toks r := by
  simp [stackdetop, Expand.emit, Equation.code, Equation.ops, add_assoc]

lemma stackdetop_binary (op : BinaryOp) (toks toks' : List UInt8) (r' : Ret) :
    stackdetop ((s.emit x toks r).emit y toks' r') (x.operand s.tempcnt)
      (some (y.operand (s.tempcnt + x.ops))) op.detop = s.emit (.binary op x y) toks' r' := by
  simp [stackdetop, Expand.emit, Equation.code, Equation.ops, add_assoc]

/-- `not` in front of a factor or, behind a parenthesis, of an expression. -/
lemma unary_not (forcex : Bool) {s₁ s₂ : Expand} {dx : DetectorOperand}
    (hnext : s.nextoke = .op deoNot) (htoken : token config s = some s₁)
    (hread : (if forcex then express config fuel s₁ else factor config fuel s₁)
      = some (.detp dx, s₂)) :
    unary config (fuel + 1) forcex s
      = some (.detp (.temp (s₂.tempcnt + 1)), stackdetop s₂ dx none .not) := by
  have hdone : Ret.op deoNot ≠ .op deoDone := by decide
  cases forcex <;>
  · simp only [if_true, Bool.false_eq_true, if_false] at hread
    simp [unary, hnext, hdone, htoken, hread, stackdetop, Ret.dx, Ret.setTemp]

/-- A parenthesis is closed behind what `unary` has read. -/
lemma factor_lpar {s₁ s₂ s₃ : Expand} {dx : DetectorOperand} (hnext : s.nextoke = .op deoLpar)
    (hopen : token config s = some s₁) (hread : unary config fuel true s₁ = some (.detp dx, s₂))
    (hrpar : s₂.nextoke = .op deoRpar) (hclose : token config s₂ = some s₃) :
    factor config (fuel + 1) s = some (.detp dx, s₃) := by
  have hdone : Ret.op deoLpar ≠ .op deoDone := by decide
  simp [factor, hnext, hdone, hopen, hread, hrpar, hclose]

lemma ReadsFactor.not (hx : x.WellFormed config) (h : ReadsFactor config x) :
    ReadsFactor config (.not x) := by
  intro s more r fuel hat hmore hfuel
  obtain ⟨rest, rfl⟩ : ∃ rest, fuel = rest + 2 := by
    refine ⟨fuel - 2, ?_⟩
    simp [Equation.tokens] at hfuel
    omega
  have hlook := x.look_tokens hx more
  have hnext : s.nextoke = .op deoNot := hat.op (by decide)
  have hread := h _ more r rest (Expand.at_goto (s := s) hlook) hmore
    (by simp [Equation.tokens] at hfuel; omega)
  have hunary := unary_not false hnext (hat.token hlook) hread
  have hdone : Ret.op deoNot ≠ .op deoDone := by decide
  have hlpar : Ret.op deoNot ≠ .op deoLpar := by decide
  simp only [emit_goto, tempcnt_goto, stackdetop_not] at hunary
  simp [factor, hnext, hdone, hlpar, hunary, Equation.operand, Equation.ops, add_assoc]

/-- Reading up to the closing parenthesis. -/
lemma ReadsExpress.closed (h : ReadsExpress config x)
    (hat : s.At config (x.tokens ++ (opTok deoRpar :: more))) (fuel : ℕ)
    (hfuel : 6 * x.tokens.length + 2 ≤ fuel) :
    express config fuel s = some (.detp (x.operand s.tempcnt),
      s.emit x (opTok deoRpar :: more) (.op deoRpar)) := by
  have hlt := x.expressTurns_lt
  obtain ⟨rest, rfl⟩ : ∃ rest, fuel = rest + 1 + x.expressTurns + 1 :=
    ⟨fuel - x.expressTurns - 2, by omega⟩
  rw [h s _ (.op deoRpar) (rest + 1) hat (look_opTok (by decide) more) (by decide) (by decide)
    (by omega)]
  apply expressLoop_end
  simp [deoRpar, deoOr]

lemma ReadsFactor.group (hx : x.WellFormed config) (h : ReadsExpress config x)
    (hnot : x.startsWithNot = false) : ReadsFactor config (.group x) := by
  intro s more r fuel hat hmore hfuel
  obtain ⟨rest, rfl⟩ : ∃ rest, fuel = rest + 2 := by
    refine ⟨fuel - 2, ?_⟩
    simp [Equation.tokens] at hfuel
    omega
  have hat : s.At config (opTok deoLpar :: (x.tokens ++ (opTok deoRpar :: more))) := by
    simpa [Equation.tokens] using hat
  have hlook := x.look_tokens hx (opTok deoRpar :: more)
  have hrpar : look config (opTok deoRpar :: more) = some (.op deoRpar) :=
    look_opTok (by decide) more
  have hinner := h.closed (Expand.at_goto (s := s) hlook) rest
    (by simp [Equation.tokens] at hfuel; omega)
  have hfirst : x.first ≠ .op deoNot := by simp [x.first_eq_not_iff, hnot]
  have hunary : unary config (rest + 1) true (s.goto (x.tokens ++ (opTok deoRpar :: more)) x.first)
      = some (.detp (x.operand s.tempcnt), s.emit x (opTok deoRpar :: more) (.op deoRpar)) := by
    simp [unary, x.first_ne_done, hfirst, hinner]
  exact factor_lpar (hat.op (by decide)) (hat.token hlook) hunary rfl
    ((Expand.at_emit hrpar).token hmore)

lemma ReadsFactor.notGroup (hx : x.WellFormed config) (h : ReadsExpress config x) :
    ReadsFactor config (.notGroup x) := by
  intro s more r fuel hat hmore hfuel
  obtain ⟨rest, rfl⟩ : ∃ rest, fuel = rest + 2 := by
    refine ⟨fuel - 2, ?_⟩
    simp [Equation.tokens] at hfuel
    omega
  have hat : s.At config
      (opTok deoLpar :: opTok deoNot :: (x.tokens ++ (opTok deoRpar :: more))) := by
    simpa [Equation.tokens] using hat
  have hlook := x.look_tokens hx (opTok deoRpar :: more)
  have hrpar : look config (opTok deoRpar :: more) = some (.op deoRpar) :=
    look_opTok (by decide) more
  have hnot : look config (opTok deoNot :: (x.tokens ++ (opTok deoRpar :: more)))
      = some (.op deoNot) := look_opTok (by decide) _
  have hinner := h.closed (Expand.at_goto (s := s) hlook) rest
    (by simp [Equation.tokens] at hfuel; omega)
  have hunary := unary_not true rfl ((Expand.at_goto (s := s) hnot).token hlook)
    hinner
  simp only [emit_goto, tempcnt_goto, stackdetop_not] at hunary
  exact factor_lpar (hat.op (by decide)) (hat.token hnot) hunary rfl
    ((Expand.at_emit hrpar).token hmore)

/-- An operator behind a term takes in one factor. -/
lemma termLoop_turn {op : BinaryOp} {a b : DetectorOperand} {s₁ s₂ : Expand}
    (hop : op ≠ .or) (hnext : s.nextoke = .op op.deo) (htoken : token config s = some s₁)
    (hread : factor config fuel s₁ = some (.detp b, s₂)) :
    termLoop config (fuel + 1) (.detp a) s = termLoop config fuel (.detp (.temp (s₂.tempcnt + 1)))
      (stackdetop s₂ a (some b) op.detop) := by
  have hne : Ret.op deoEor ≠ .op deoAnd := by decide
  cases op with
  | and =>
    simp [termLoop, hnext, htoken, hread, stackBinary, stackdetop, BinaryOp.deo, BinaryOp.detop]
  | eor =>
    simp [termLoop, hnext, hne, htoken, hread, stackBinary, stackdetop, BinaryOp.deo,
      BinaryOp.detop]
  | or => exact absurd rfl hop

lemma ReadsTerm.binary (op : BinaryOp) (hop : op ≠ .or) (hy : y.WellFormed config)
    (h : ReadsTerm config x) (h' : ReadsFactor config y) :
    ReadsTerm config (.binary op x y) := by
  intro s more r fuel hat hmore hfuel
  have hturns : (Equation.binary op x y).termTurns = x.termTurns + 1 := by
    cases op <;> first | rfl | exact absurd rfl hop
  have hlt := x.termTurns_lt
  have hat : s.At config (x.tokens ++ (opTok op.deo :: (y.tokens ++ more))) := by
    simpa [Equation.tokens] using hat
  simp [Equation.tokens, hturns] at hfuel
  have hopTok : look config (opTok op.deo :: (y.tokens ++ more)) = some (.op op.deo) :=
    look_opTok op.deo_lt _
  have hlook := y.look_tokens hy more
  have hleft := h s _ (.op op.deo) (fuel + 1) hat hopTok (by omega)
  have hright := h' ((s.emit x [] r).goto _ y.first) more r fuel (Expand.at_goto hlook) hmore
    (by omega)
  have htoken := (Expand.at_emit (s := s) (e := x) hopTok).token hlook
  rw [hturns, show fuel + (x.termTurns + 1) + 1 = fuel + 1 + x.termTurns + 1 by omega, hleft,
    termLoop_turn hop rfl htoken hright]
  simp [stackdetop_binary, Equation.operand, Equation.ops, add_assoc]

/-- An `or` behind an expression takes in one term. -/
lemma expressLoop_turn {a b : DetectorOperand} {s₁ s₂ : Expand}
    (hnext : s.nextoke = .op deoOr) (htoken : token config s = some s₁)
    (hread : term config fuel s₁ = some (.detp b, s₂)) :
    expressLoop config (fuel + 1) a s = expressLoop config fuel (.temp (s₂.tempcnt + 1))
      (stackdetop s₂ a (some b) BinaryOp.or.detop) := by
  simp [expressLoop, hnext, htoken, hread, stackdetop, BinaryOp.detop]

lemma ReadsExpress.or (hy : y.WellFormed config) (h : ReadsExpress config x)
    (h' : ReadsTerm config y) : ReadsExpress config (.binary .or x y) := by
  intro s more r fuel hat hmore hand heor hfuel
  have hlt := x.expressTurns_lt
  have hlt' := y.termTurns_lt
  have hat : s.At config (x.tokens ++ (opTok deoOr :: (y.tokens ++ more))) := by
    simpa [Equation.tokens, BinaryOp.deo] using hat
  simp [Equation.tokens, Equation.expressTurns] at hfuel
  have hopTok : look config (opTok deoOr :: (y.tokens ++ more)) = some (.op deoOr) :=
    look_opTok (by decide) _
  have hlook := y.look_tokens hy more
  have hleft := h s _ (.op deoOr) (fuel + 1) hat hopTok (by decide) (by decide) (by omega)
  obtain ⟨rest, rfl⟩ : ∃ rest, fuel = rest + 1 + y.termTurns + 1 :=
    ⟨fuel - y.termTurns - 2, by omega⟩
  have hright := h' ((s.emit x [] r).goto _ y.first) more r (rest + 1) (Expand.at_goto hlook) hmore
    (by omega)
  rw [termLoop_end hand heor] at hright
  have htoken := (Expand.at_emit (s := s) (e := x) hopTok).token hlook
  have hsplit : rest + 1 + y.termTurns + 1 + (Equation.binary .or x y).expressTurns + 1
      = rest + 1 + y.termTurns + 1 + 1 + x.expressTurns + 1 := by
    simp [Equation.expressTurns]
    omega
  rw [hsplit, hleft, expressLoop_turn rfl htoken hright]
  simp [stackdetop_binary, Equation.operand, Equation.ops, add_assoc]

end Parser

end Lib330

end StationProcessor
