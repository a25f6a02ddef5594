import StationProcessor.Lib330.DetectorEquations
import Mathlib.Data.List.Destutter

/-!
# Running control detectors

The operations an equation is expanded to compute its value, as long as they need no temporary
beyond the fifty there are; and what a control detector reports over many evaluations.
-/

namespace StationProcessor

namespace Lib330

/-! ### Operations -/

section Operations

variable {flags : DetectorFlag → Bool} {temps : ℕ → Bool} {n : ℕ}

end Operations

/-! ### Equations -/

section Equations

variable {config : DetectorConfig} {flags : DetectorFlag → Bool} {e : Equation}

end Equations

/-! ### Many evaluations -/

/-- The state of a control detector and of the channels that refer to it, with the texts it has
sent. -/
structure DetectorStatus where
  ison : Bool
  wason : Bool
  genOn : ℕ → Bool
  messages : List String

def DetectorStatus.init : DetectorStatus := ⟨false, false, fun _ => false, []⟩

/-- The text about a change. -/
def changeText (cdname : String) (ison : Bool) : String := cdname ++ if ison then " On" else " Off"

/-- What happens to a control detector: it is evaluated for a channel, with what the temporaries
hold before, or `finish_record` unlatches a channel. -/
inductive DetectorEvent
  | evaluate (q : ℕ) (flags : DetectorFlag → Bool) (temps : ℕ → Bool)
  | unlatch (q : ℕ)

/-- A control detector. -/
structure ControlDetector where
  pdetop : List DetectorOperation
  logmsg : Bool
  cdname : String

/-- `evaluate_detector_stack` for a channel with a control detector. -/
def evaluateDetectorStack (ctrl : ControlDetector) (q : ℕ) (flags : DetectorFlag → Bool)
    (temps : ℕ → Bool) (s : DetectorStatus) : Option DetectorStatus := do
  let ison ← runDetops flags temps ctrl.pdetop
  some {
    ison := ison
    wason := ison
    genOn := Function.update s.genOn q (s.genOn q || ison)
    messages := if ison ≠ s.wason ∧ ctrl.logmsg then s.messages ++ [changeText ctrl.cdname ison]
      else s.messages }

def DetectorEvent.step (ctrl : ControlDetector) (s : DetectorStatus) :
    DetectorEvent → Option DetectorStatus
  | evaluate q flags temps => evaluateDetectorStack ctrl q flags temps s
  | unlatch q => some { s with genOn := Function.update s.genOn q false }

/-- A run of a control detector. -/
def detectorRun (ctrl : ControlDetector) : DetectorStatus → List DetectorEvent →
    Option DetectorStatus
  | s, [] => some s
  | s, event :: events => do
    let s ← event.step ctrl s
    detectorRun ctrl s events

/-- The values of the equation at the evaluations of a run. -/
def values (e : Equation) : List DetectorEvent → List Bool
  | [] => []
  | .evaluate _ flags _ :: events => e.eval flags :: values e events
  | .unlatch _ :: events => values e events

/-- The equation was on at an evaluation for the channel, which was not unlatched since. -/
def Latched (e : Equation) (q : ℕ) (events : List DetectorEvent) : Prop :=
  ∃ before flags temps after, events = before ++ .evaluate q flags temps :: after ∧
    e.eval flags = true ∧ .unlatch q ∉ after

/-- The control detector shows its equation: every change of the value is reported once, in order,
and the flag of a channel tells whether the equation was on since the channel was unlatched. -/
structure ShowsEquation (e : Equation) (ctrl : ControlDetector) (events : List DetectorEvent)
    (s : DetectorStatus) : Prop where
  messages : s.messages = if ctrl.logmsg then
    ((false :: values e events).destutter (· ≠ ·)).tail.map
      (changeText ctrl.cdname) else []
  ison : s.ison = (false :: values e events).getLast (by simp)
  genOn : ∀ q, s.genOn q = true ↔ Latched e q events

section Runs

variable {config : DetectorConfig} {e : Equation} {ctrl : ControlDetector}

/-- A value behind a list is kept if it differs from the last. -/
lemma destutter_concat {α : Type*} [DecidableEq α] (a : α) (l : List α) (b : α) :
    (a :: (l ++ [b])).destutter (· ≠ ·) = (a :: l).destutter (· ≠ ·) ++
      if b ≠ (a :: l).getLast (by simp) then [b] else [] := by
  simp only [List.destutter_cons']
  induction l generalizing a with
  | nil =>
    by_cases h : b = a
    · simp [h]
    · simp [h, Ne.symm h]
  | cons c l ih =>
    simp only [List.cons_append, List.destutter'_cons]
    by_cases h : a = c
    · subst h
      simpa using ih a
    · simpa [h] using ih c

@[simp] lemma values_evaluate (events : List DetectorEvent) (q : ℕ) (flags : DetectorFlag → Bool)
    (temps : ℕ → Bool) :
    values e (events ++ [.evaluate q flags temps]) = values e events ++ [e.eval flags] := by
  induction events with
  | nil => rfl
  | cons event events ih => cases event <;> simp [values, ih]

@[simp] lemma values_unlatch (events : List DetectorEvent) (q : ℕ) :
    values e (events ++ [.unlatch q]) = values e events := by
  induction events with
  | nil => rfl
  | cons event events ih => cases event <;> simp [values, ih]

lemma latched_evaluate_iff {q q' : ℕ} {events : List DetectorEvent} {flags : DetectorFlag → Bool}
    {temps : ℕ → Bool} : Latched e q (events ++ [.evaluate q' flags temps]) ↔
      Latched e q events ∨ q' = q ∧ e.eval flags = true := by
  constructor
  · rintro ⟨before, flags', temps', after, heq, hon, hafter⟩
    rcases List.eq_nil_or_concat' after with rfl | ⟨after, event, rfl⟩
    · obtain ⟨-, hlast⟩ := List.append_inj' heq rfl
      simp at hlast
      obtain ⟨rfl, rfl, rfl⟩ := hlast
      exact .inr ⟨rfl, hon⟩
    · rw [← List.cons_append, ← List.append_assoc] at heq
      obtain ⟨rfl, -⟩ := List.append_inj' heq rfl
      exact .inl ⟨before, flags', temps', after, rfl, hon, fun h => hafter (by simp [h])⟩
  · rintro (⟨before, flags', temps', after, rfl, hon, hafter⟩ | ⟨rfl, hon⟩)
    · exact ⟨before, flags', temps', after ++ [.evaluate q' flags temps], by simp, hon,
        by simpa using hafter⟩
    · exact ⟨events, flags, temps, [], rfl, hon, by simp⟩

lemma latched_unlatch_iff {q q' : ℕ} {events : List DetectorEvent} :
    Latched e q (events ++ [.unlatch q']) ↔ q' ≠ q ∧ Latched e q events := by
  constructor
  · rintro ⟨before, flags, temps, after, heq, hon, hafter⟩
    rcases List.eq_nil_or_concat' after with rfl | ⟨after, event, rfl⟩
    · obtain ⟨-, hlast⟩ := List.append_inj' heq rfl
      simp at hlast
    · rw [← List.cons_append, ← List.append_assoc] at heq
      obtain ⟨rfl, hlast⟩ := List.append_inj' heq rfl
      simp at hlast hafter
      subst hlast
      refine ⟨?_, before, flags, temps, after, rfl, hon, hafter.1⟩
      rintro rfl
      exact hafter.2 rfl
  · rintro ⟨hq, before, flags, temps, after, rfl, hon, hafter⟩
    refine ⟨before, flags, temps, after ++ [.unlatch q'], by simp, hon, ?_⟩
    simpa [hafter] using Ne.symm hq

/-- What a run keeps; `wason` is `ison` again behind every event. -/
structure Settled (e : Equation) (ctrl : ControlDetector) (events : List DetectorEvent)
    (s : DetectorStatus) : Prop extends ShowsEquation e ctrl events s where
  wason : s.wason = s.ison

lemma Settled.evaluate {events : List DetectorEvent} {s : DetectorStatus}
    (h : Settled e ctrl events s) (q : ℕ) {flags : DetectorFlag → Bool} {temps : ℕ → Bool}
    (hruns : runDetops flags temps ctrl.pdetop = some (e.eval flags)) :
    ∃ s', evaluateDetectorStack ctrl q flags temps s = some s' ∧
      Settled e ctrl (events ++ [.evaluate q flags temps]) s' := by
  have hlast : s.wason = (false :: values e events).getLast (by simp) := h.wason.trans h.ison
  have hstep : evaluateDetectorStack ctrl q flags temps s = (some (e.eval flags)).bind _ :=
    congrArg (Option.bind · _) hruns
  refine ⟨_, hstep, ⟨?_, ?_, fun q' => ?_⟩, rfl⟩
  · have hne : (false :: values e events).destutter (· ≠ ·) ≠ [] := by simp
    simp only [values_evaluate, destutter_concat, ← hlast, h.messages]
    by_cases hlog : ctrl.logmsg = true
    · by_cases hchange : e.eval flags = s.wason
      · simp [hlog, hchange]
      · simp [hlog, hchange, List.tail_append_of_ne_nil hne]
    · simp [hlog]
  · simp
  · rw [latched_evaluate_iff, ← h.genOn]
    by_cases hq : q' = q
    · subst hq
      simp
    · simp [hq, Ne.symm hq]

lemma Settled.unlatch {events : List DetectorEvent} {s : DetectorStatus}
    (h : Settled e ctrl events s) (q : ℕ) :
    Settled e ctrl (events ++ [.unlatch q])
      { s with genOn := Function.update s.genOn q false } where
  messages := by simpa using h.messages
  ison := by simpa using h.ison
  genOn q' := by
    rw [latched_unlatch_iff, ← h.genOn]
    by_cases hq : q' = q
    · subst hq
      simp
    · simp [hq, Ne.symm hq]
  wason := h.wason

/-- A run from a point on. -/
lemma Settled.run {before : List DetectorEvent} {s : DetectorStatus}
    (h : Settled e ctrl before s)
    (hruns : ∀ flags temps, runDetops flags temps ctrl.pdetop = some (e.eval flags))
    (events : List DetectorEvent) :
    ∃ s', detectorRun ctrl s events = some s' ∧ Settled e ctrl (before ++ events) s' := by
  induction events generalizing before s with
  | nil => exact ⟨s, rfl, by simpa using h⟩
  | cons event events ih =>
    obtain ⟨s₁, hstep, h₁⟩ : ∃ s₁, event.step ctrl s = some s₁ ∧
        Settled e ctrl (before ++ [event]) s₁ := by
      cases event with
      | evaluate q flags temps => exact h.evaluate q (hruns flags temps)
      | unlatch q => exact ⟨_, rfl, h.unlatch q⟩
    obtain ⟨s', hrun, hs'⟩ := ih h₁
    exact ⟨s', by simp [detectorRun, hstep, hrun], by simpa using hs'⟩

end Runs

end Lib330

end StationProcessor
