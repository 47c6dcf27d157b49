import Mathlib.Data.List.Basic
import TestBench.Case.Run

/-! What steps, cleanups and lists of them add to the state of a case. It is known from the steps
alone: how they end, what they record, what they register and which cleanups they show. -/
namespace TestBench.Case

namespace Step

def errors : Step → List String
  | .error message => [message]
  | _ => []

def logs : Step → List String
  | .log message => [message]
  | _ => []

/-- A component is registered to be stopped once it has started. -/
def registered : Step → List Cleanup
  | .register c => [c]
  | .startStop id none stop => [.stop id stop]
  | .startStop id (some .ok) stop => [.stop id stop]
  | _ => []

def exit? : Step → Option Exit
  | .abort a => some (.abort a)
  | .panic payload => some (.panic payload)
  | .startStop _ (some (.error chain)) _ =>
    some (.abort (.fatal ("Start() error:\n" ++ chain.text)))
  | .startStop _ (some (.panic payload)) _ => some (.panic payload)
  | _ => none

def exits (step : Step) : Bool := step.exit?.isSome

def panic? (step : Step) : Option Payload :=
  match step.exit? with
  | some (.panic payload) => some payload
  | _ => none

def panics (step : Step) : Bool := step.panic?.isSome

end Step

/-- Whether an event tells that a cleanup runs. -/
def Event.ofCleanup : Event → Bool
  | .cleanup _ => true
  | .stop _ => true
  | _ => false

/-- The cleanups that were seen to run. -/
def State.runs (s : State) : List Event := s.events.filter Event.ofCleanup

section Step

variable (s : State) (step : Step)

theorem runStep_exit : (runStep s step).2 = step.exit? := by
  cases step with
  | startStop id start stop => rcases start with _ | _ | _ | _ <;> rfl
  | _ => rfl

theorem runStep_failures : (runStep s step).1.failures = s.failures ++ step.errors := by
  cases step with
  | startStop id start stop =>
    rcases start with _ | _ | _ | _ <;> exact (List.append_nil _).symm
  | error message => rfl
  | _ => exact (List.append_nil _).symm

theorem runStep_logs : (runStep s step).1.logs = s.logs ++ step.logs := by
  cases step with
  | startStop id start stop =>
    rcases start with _ | _ | _ | _ <;> exact (List.append_nil _).symm
  | log message => rfl
  | _ => exact (List.append_nil _).symm

/-- No step changes the name of its case, nor skips it. -/
theorem runStep_keeps :
    ((runStep s step).1.name, (runStep s step).1.skip) = (s.name, s.skip) := by
  cases step with
  | startStop id start stop => rcases start with _ | _ | _ | _ <;> rfl
  | _ => rfl

theorem runStep_pending : (runStep s step).1.pending = step.registered.reverse ++ s.pending := by
  cases step with
  | startStop id start stop => rcases start with _ | _ | _ | _ <;> rfl
  | _ => rfl

theorem runStep_runs : (runStep s step).1.runs = s.runs := by
  cases step with
  | startStop id start stop =>
    rcases start with _ | _ | _ | _ <;>
      simp [runStep, startStop, State.runs, State.see, State.register, Event.ofCleanup]
  | _ => simp [runStep, State.runs, State.log, State.fail, State.see, State.register,
      Event.ofCleanup]

end Step

/-- What a list of actions adds is what each of them adds, if that depends on the action alone. -/
theorem foldl_adds {σ α β : Type} {f : σ → α → σ} (field : σ → List β) {added : α → List β}
    (h : ∀ s a, field (f s a) = field s ++ added a) (s : σ) (actions : List α) :
    field (actions.foldl f s) = field s ++ actions.flatMap added := by
  induction actions generalizing s with
  | nil => simp
  | cons a rest ih => rw [List.foldl_cons, ih, h, List.flatMap_cons, List.append_assoc]

/-- The same where the last is added in front. -/
theorem foldl_stacks {σ α β : Type} {f : σ → α → σ} (field : σ → List β) {added : α → List β}
    (h : ∀ s a, field (f s a) = (added a).reverse ++ field s) (s : σ) (actions : List α) :
    field (actions.foldl f s) = (actions.flatMap added).reverse ++ field s := by
  induction actions generalizing s with
  | nil => simp
  | cons a rest ih =>
    rw [List.foldl_cons, ih, h, List.flatMap_cons, List.reverse_append, List.append_assoc]

theorem foldl_keeps {σ α β : Type} {f : σ → α → σ} (field : σ → β)
    (h : ∀ s a, field (f s a) = field s) (s : σ) (actions : List α) :
    field (actions.foldl f s) = field s := by
  induction actions generalizing s with
  | nil => rfl
  | cons a rest ih => exact (ih (f s a)).trans (h s a)

/-- The state after steps that are all made. -/
def carry (s : State) (steps : List Step) : State :=
  steps.foldl (fun s step => (runStep s step).1) s

theorem carry_failures (s : State) (steps : List Step) :
    (carry s steps).failures = s.failures ++ steps.flatMap Step.errors :=
  foldl_adds State.failures runStep_failures s steps

theorem carry_logs (s : State) (steps : List Step) :
    (carry s steps).logs = s.logs ++ steps.flatMap Step.logs :=
  foldl_adds State.logs runStep_logs s steps

theorem carry_keeps (s : State) (steps : List Step) :
    ((carry s steps).name, (carry s steps).skip) = (s.name, s.skip) :=
  foldl_keeps (fun s => (s.name, s.skip)) runStep_keeps s steps

theorem carry_pending (s : State) (steps : List Step) :
    (carry s steps).pending = (steps.flatMap Step.registered).reverse ++ s.pending :=
  foldl_stacks State.pending runStep_pending s steps

theorem carry_runs (s : State) (steps : List Step) : (carry s steps).runs = s.runs :=
  foldl_keeps State.runs runStep_runs s steps

/-- The steps that are made when some of them stop all others. -/
def executed (stops : Step → Bool) : List Step → List Step
  | [] => []
  | step :: rest => if stops step then [step] else step :: executed stops rest

theorem runBody_eq_carry (s : State) (steps : List Step) :
    (runBody s steps).1 = carry s (executed Step.exits steps) := by
  induction steps generalizing s with
  | nil => rfl
  | cons step rest ih =>
    have hexit := runStep_exit s step
    rw [runBody, executed, Step.exits, ← hexit]
    rcases hstep : runStep s step with ⟨t, _ | exit⟩
    · simp [ih, carry, hstep]
    · simp [carry, hstep]

theorem runInside_eq_carry (s : State) (steps : List Step) :
    (runInside s steps).1 = carry s (executed Step.panics steps) := by
  induction steps generalizing s with
  | nil => rfl
  | cons step rest ih =>
    have hexit := runStep_exit s step
    rw [runInside, executed, Step.panics, Step.panic?, ← hexit]
    rcases hstep : runStep s step with ⟨t, _ | _ | payload⟩
    · simp [ih, carry, hstep]
    · simp [ih, carry, hstep]
    · simp [carry, hstep]

theorem runInside_panic (s : State) (steps : List Step) :
    (runInside s steps).2 = steps.findSome? Step.panic? := by
  induction steps generalizing s with
  | nil => rfl
  | cons step rest ih =>
    have hexit := runStep_exit s step
    rw [runInside, List.findSome?_cons, Step.panic?, ← hexit]
    rcases hstep : runStep s step with ⟨t, _ | _ | payload⟩ <;> simp [ih]

namespace Cleanup

/-- The steps a cleanup makes on its case. -/
def steps : Cleanup → List Step
  | .holding _ steps _ => executed Step.panics steps
  | _ => []

def registers (c : Cleanup) : List Cleanup := c.steps.flatMap Step.registered

def ending : Cleanup → Ending
  | .plain _ ending => ending
  | .stop _ none => .ok
  | .stop _ (some (.error chain)) => .error (chain.within "Stop() error")
  | .stop _ (some ending) => ending
  | .holding _ steps ending =>
    match steps.findSome? Step.panic? with
    | some payload => .panic payload
    | none => ending

/-- What is seen of a cleanup that runs. A component that need not be stopped shows nothing. -/
def shown : Cleanup → List Event
  | .plain id _ => [.cleanup id]
  | .stop _ none => []
  | .stop id (some _) => [.stop id]
  | .holding id _ _ => [.cleanup id]

def logs (c : Cleanup) : List String := c.steps.flatMap Step.logs

/-- The failures a cleanup gives rise to: those it records, then its own. -/
def failures (c : Cleanup) : List String :=
  c.steps.flatMap Step.errors ++ c.ending.failure?.toList

end Cleanup

section Cleanup

variable (s : State) (c : Cleanup)

theorem runCleanup_ending : (runCleanup s c).2 = c.ending := by
  cases c with
  | plain id ending => rfl
  | stop id ending => rcases ending with _ | _ | _ | _ <;> rfl
  | holding id steps ending =>
    have h := runInside_panic (s.see (.cleanup id)) steps
    rw [runCleanup, Cleanup.ending, ← h]
    rcases runInside (s.see (.cleanup id)) steps with ⟨t, _ | payload⟩ <;> rfl

/-- A cleanup shows itself and then makes its steps. -/
theorem runCleanup_eq_carry :
    (runCleanup s c).1 = carry { s with events := s.events ++ c.shown } c.steps := by
  cases c with
  | plain id ending => rfl
  | stop id ending =>
    cases ending with
    | none => simp [runCleanup, Cleanup.shown, Cleanup.steps, carry]
    | some ending => rfl
  | holding id steps ending =>
    have h := runInside_eq_carry (s.see (.cleanup id)) steps
    have hfst : (runCleanup s (.holding id steps ending)).1 =
        (runInside (s.see (.cleanup id)) steps).1 := by
      rw [runCleanup]
      rcases runInside (s.see (.cleanup id)) steps with ⟨t, _ | payload⟩ <;> rfl
    exact hfst.trans h

theorem shown_filter : c.shown.filter Event.ofCleanup = c.shown := by
  cases c with
  | stop id ending => cases ending <;> rfl
  | _ => rfl

theorem settle_eq : settle s c =
    { (runCleanup s c).1 with
      failures := (runCleanup s c).1.failures ++ c.ending.failure?.toList } := by
  rw [settle, ← runCleanup_ending s c]
  rcases runCleanup s c with ⟨t, ending⟩
  rcases hf : ending.failure? with _ | message
  · simp [hf]
  · simp [hf, State.fail]

theorem settle_failures : (settle s c).failures = s.failures ++ c.failures := by
  rw [settle_eq, runCleanup_eq_carry, Cleanup.failures, ← List.append_assoc]
  simp [carry_failures]

theorem settle_logs : (settle s c).logs = s.logs ++ c.logs := by
  rw [settle_eq, runCleanup_eq_carry]
  exact carry_logs _ _

theorem settle_keeps : ((settle s c).name, (settle s c).skip) = (s.name, s.skip) := by
  rw [settle_eq, runCleanup_eq_carry]
  exact carry_keeps _ _

theorem settle_pending : (settle s c).pending = c.registers.reverse ++ s.pending := by
  rw [settle_eq, runCleanup_eq_carry]
  exact carry_pending _ _

theorem settle_runs : (settle s c).runs = s.runs ++ c.shown := by
  rw [settle_eq, runCleanup_eq_carry]
  refine (carry_runs _ _).trans ?_
  simp [State.runs, shown_filter]

end Cleanup

theorem settleAll_failures (s : State) (cs : List Cleanup) :
    (settleAll s cs).failures = s.failures ++ cs.flatMap Cleanup.failures :=
  foldl_adds State.failures settle_failures s cs

theorem settleAll_logs (s : State) (cs : List Cleanup) :
    (settleAll s cs).logs = s.logs ++ cs.flatMap Cleanup.logs :=
  foldl_adds State.logs settle_logs s cs

theorem settleAll_keeps (s : State) (cs : List Cleanup) :
    ((settleAll s cs).name, (settleAll s cs).skip) = (s.name, s.skip) :=
  foldl_keeps (fun s => (s.name, s.skip)) settle_keeps s cs

theorem settleAll_pending (s : State) (cs : List Cleanup) :
    (settleAll s cs).pending = (cs.flatMap Cleanup.registers).reverse ++ s.pending :=
  foldl_stacks State.pending settle_pending s cs

theorem settleAll_runs (s : State) (cs : List Cleanup) :
    (settleAll s cs).runs = s.runs ++ cs.flatMap Cleanup.shown :=
  foldl_adds State.runs settle_runs s cs

end TestBench.Case
