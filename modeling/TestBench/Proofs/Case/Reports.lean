import TestBench.Case.Session
import TestBench.Proofs.Case.Cleanups

/-! What a session keeps of a case. The report is known from the steps that were made and from the
cleanups they registered; the trace shows the steps first, then those cleanups. -/
namespace TestBench.Case

/-- Whether a step only records: it shows nothing and registers nothing. -/
def Step.records : Step → Bool
  | .log _ => true
  | .error _ => true
  | .abort _ => true
  | .panic _ => true
  | _ => false

/-- A cleanup that registers no other one. It may hold the case, to record something on it. -/
def Cleanup.ordinary : Cleanup → Bool
  | .plain .. => true
  | .stop .. => false
  | .holding _ steps _ => steps.all Step.records

/-- The reason with which the end of a body skips its case. -/
def Exit.reason? : Exit → Option String
  | .abort (.skip reason) => some reason
  | _ => none

theorem runStep_events {s : State} {step : Step} (h : step.records = true) :
    (runStep s step).1.events = s.events := by
  cases step with
  | log message => rfl
  | error message => rfl
  | abort a => rfl
  | panic payload => rfl
  | _ => cases h

theorem registered_eq_nil {step : Step} (h : step.records = true) : step.registered = [] := by
  cases step with
  | log message => rfl
  | error message => rfl
  | abort a => rfl
  | panic payload => rfl
  | _ => cases h

theorem carry_events {s : State} {steps : List Step}
    (h : ∀ step ∈ steps, step.records = true) : (carry s steps).events = s.events := by
  induction steps generalizing s with
  | nil => rfl
  | cons step rest ih =>
    rw [List.forall_mem_cons] at h
    have hrest : (carry (runStep s step).1 rest).events = _ := ih h.2
    exact hrest.trans (runStep_events h.1)

theorem mem_of_mem_executed {stops : Step → Bool} {steps : List Step} {step : Step}
    (h : step ∈ executed stops steps) : step ∈ steps := by
  induction steps with
  | nil => cases h
  | cons first rest ih =>
    rw [executed] at h
    split at h
    · exact List.mem_cons.mpr (.inl (List.mem_singleton.mp h))
    · rcases List.mem_cons.mp h with rfl | h
      · exact List.mem_cons_self
      · exact List.mem_cons_of_mem _ (ih h)

/-- The cleanups of a body that registers ordinary ones only record; some stop components. -/
theorem steps_record {body : List Step} (h : ∀ c, Step.register c ∈ body → c.ordinary = true)
    {c : Cleanup} (hc : c ∈ bodyCleanups body) : ∀ step ∈ c.steps, step.records = true := by
  rw [bodyCleanups, List.mem_reverse, List.mem_flatMap] at hc
  obtain ⟨step, hstep, hc⟩ := hc
  have hmem := mem_of_mem_executed hstep
  cases step with
  | register d =>
    obtain rfl := List.mem_singleton.mp hc
    cases c with
    | holding id steps ending =>
      have hall := List.all_eq_true.mp (h _ hmem)
      exact fun step hstep => hall step (mem_of_mem_executed hstep)
    | plain id ending => simp [Cleanup.steps]
    | stop id ending => simp [Cleanup.steps]
  | startStop id start stop =>
    rcases start with _ | _ | _ | _ <;> simp only [Step.registered, List.mem_singleton,
      List.not_mem_nil] at hc <;> subst hc <;> simp [Cleanup.steps]
  | _ => cases hc

theorem settle_events {s : State} {c : Cleanup} (h : ∀ step ∈ c.steps, step.records = true) :
    (settle s c).events = s.events ++ c.shown := by
  rw [settle_eq, runCleanup_eq_carry]
  exact carry_events h

theorem settleAll_events {s : State} {cs : List Cleanup}
    (h : ∀ c ∈ cs, ∀ step ∈ c.steps, step.records = true) :
    (settleAll s cs).events = s.events ++ cs.flatMap Cleanup.shown := by
  induction cs generalizing s with
  | nil => simp [settleAll]
  | cons c rest ih =>
    rw [List.forall_mem_cons] at h
    have hrest : (settleAll (settle s c) rest).events = _ := ih h.2
    rw [List.flatMap_cons, ← List.append_assoc, ← settle_events h.1]
    exact hrest

theorem registers_eq_nil {c : Cleanup} (h : ∀ step ∈ c.steps, step.records = true) :
    c.registers = [] :=
  List.flatMap_eq_nil_iff.mpr fun step hstep => registered_eq_nil (h step hstep)

theorem record_skip (s : State) (exit : Option Exit) (h : s.skip = none) :
    (record s exit).skip = exit.bind Exit.reason? := by
  rcases exit with _ | (_ | _) | _ <;> simp [record, State.fail, Exit.reason?, h]

theorem record_keeps (s : State) (exit : Option Exit) :
    (record s exit).name = s.name ∧ (record s exit).logs = s.logs ∧
      (record s exit).events = s.events := by
  rcases exit with _ | (_ | _) | _ <;> exact ⟨rfl, rfl, rfl⟩

section Case

variable (settings : Settings) (name : String) (body : List Step)

/-- The messages that come with a case: those of the steps made, then those of its cleanups. -/
def bodyLogs : List String :=
  (executed Step.exits body).flatMap Step.logs ++ (bodyCleanups body).flatMap Cleanup.logs

theorem settled_logs : (settled settings name body).logs = bodyLogs body := by
  rw [settled, settleAll_logs, record_pending_body]
  simp [record_keeps, runBody_eq_carry, carry_logs, State.start, bodyLogs]

theorem settled_name : (settled settings name body).name = name := by
  rw [settled, (Prod.mk.inj (settleAll_keeps _ _)).1]
  simp only [record_keeps, runBody_eq_carry]
  exact (Prod.mk.inj (carry_keeps _ _)).1

theorem settled_skip :
    (settled settings name body).skip = (body.findSome? Step.exit?).bind Exit.reason? := by
  rw [settled, (Prod.mk.inj (settleAll_keeps _ _)).2]
  refine record_skip _ _ ?_
  rw [runBody_eq_carry]
  exact (Prod.mk.inj (carry_keeps _ _)).2

theorem runCase_report : (runCase settings name body).1 =
    ⟨name, Outcome.of (recorded body) ((body.findSome? Step.exit?).bind Exit.reason?),
      bodyLogs body⟩ := by
  rw [runCase_eq, State.report, settled_failures, settled_logs, settled_name, settled_skip]

/-- Where only ordinary cleanups are registered nothing is left for the time after the report. -/
theorem runCase_events (h : ∀ c, Step.register c ∈ body → c.ordinary = true) :
    (runCase settings name body).2 =
      (runBody (.start settings name) body).1.events ++
        (bodyCleanups body).flatMap Cleanup.shown := by
  have hlate : lateCleanups body = [] :=
    List.flatMap_eq_nil_iff.mpr fun c hc => registers_eq_nil (steps_record h hc)
  have hpending := settled_pending settings name body
  rw [hlate, List.reverse_nil] at hpending
  have hsettled : (settled settings name body).events = _ ++ _ :=
    settleAll_events fun c hc => steps_record h (record_pending_body settings name body ▸ hc)
  rw [record_pending_body, (record_keeps _ _).2.2] at hsettled
  rw [runCase_eq, ← hsettled]
  simp [release, hpending, settleAll]

/-- A body runs no cleanup. -/
theorem runBody_events {e : Event} (he : e ∈ (runBody (.start settings name) body).1.events) :
    e.ofCleanup = false := by
  have hruns : (runBody (.start settings name) body).1.runs = [] := by
    rw [runBody_eq_carry, carry_runs]
    rfl
  exact Bool.eq_false_iff.mpr (List.filter_eq_nil_iff.mp hruns e he)

end Case

section Session

variable (s : Session) (name : String) {body : List Step}

theorem run_reports : (s.run name body).reports =
    s.reports ++ [⟨name, Outcome.of (recorded body)
      ((body.findSome? Step.exit?).bind Exit.reason?), bodyLogs body⟩] := by
  rw [← runCase_report s.settings name body]
  rfl

theorem run_events (h : ∀ c, Step.register c ∈ body → c.ordinary = true) :
    (s.run name body).events = s.events ++ Event.opened name ::
      ((runBody (.start s.settings name) body).1.events ++
        (bodyCleanups body).flatMap Cleanup.shown) := by
  rw [← runCase_events s.settings name body h]
  rfl

/-- A session keeps one report of a case, and it tells what happened: the steps were made in order
up to the first that ends the body, then the cleanups they registered ran, the last one first and
each once. The failures are those of the steps, then the one the body ended with, then for each
cleanup those it recorded and its own; any of them makes the case failed, and only without them a
skip counts. -/
theorem run_tells_what_happened (h : ∀ c, Step.register c ∈ body → c.ordinary = true) :
    let made := executed Step.exits body
    let exit := body.findSome? Step.exit?
    let cleanups := (made.flatMap Step.registered).reverse
    let failures := made.flatMap Step.errors ++ (exit.bind Exit.failure?).toList ++
      cleanups.flatMap Cleanup.failures
    let outcome := if failures ≠ [] then .failed failures else
      match exit with
      | some (.abort (.skip reason)) => .skipped reason
      | _ => .passed
    let before := (runBody (.start s.settings name) body).1.events
    (s.run name body).reports =
        s.reports ++ [⟨name, outcome, made.flatMap Step.logs ++ cleanups.flatMap Cleanup.logs⟩] ∧
      (s.run name body).events = s.events ++ Event.opened name ::
        (before ++ cleanups.flatMap Cleanup.shown) ∧
      ∀ e ∈ before, e.ofCleanup = false := by
  intro made exit cleanups failures outcome before
  have houtcome : Outcome.of (recorded body) (exit.bind Exit.reason?) = outcome := by
    show Outcome.of failures _ = if failures ≠ [] then _ else _
    rcases failures with _ | ⟨message, rest⟩
    · rcases exit with _ | (_ | _) | _ <;> rfl
    · rfl
  refine ⟨?_, run_events s name h, fun e he => runBody_events _ _ _ he⟩
  rw [run_reports, houtcome]
  rfl

/-- A failure wins over the skip that ended the body, and a panic in a cleanup keeps no other one
from running. -/
theorem run_tells_what_happened_shutdown :
    let outer : Cleanup :=
      .holding "outer" [.log "closing", .error "late"] (.error ⟨["cannot stop", "busy"]⟩)
    let inner : Cleanup := .plain "inner" (.panic (.text "boom"))
    let body : List Step := [.log "up", .register outer, .register inner, .error "broken",
      .abort (.skip "enough"), .log "never"]
    let s : Session := .start (.ofEnvironment [])
    (∀ c, Step.register c ∈ body → c.ordinary = true) ∧
      (s.run "shutdown" body).reports = [⟨"shutdown",
        .failed ["broken", "cleanup panicked: boom", "late", "cannot stop: busy"],
        ["up", "closing"]⟩] ∧
      (s.run "shutdown" body).events =
        [.opened "shutdown", .cleanup "inner", .cleanup "outer"] := by
  intro outer inner body s
  have hbody : ∀ c, Step.register c ∈ body → c.ordinary = true := by
    intro c hc
    simp only [body, List.mem_cons, Step.register.injEq, reduceCtorEq, List.not_mem_nil, or_false,
      false_or] at hc
    rcases hc with rfl | rfl <;> rfl
  obtain ⟨hreports, hevents, -⟩ := run_tells_what_happened s "shutdown" hbody
  exact ⟨hbody, hreports, hevents⟩

end Session

/-- A body of which nothing is reported but these failures: it neither skips nor logs. -/
structure Told (body : List Step) (failures : List String) : Prop where
  recorded : recorded body = failures
  unskipped : (body.findSome? Step.exit?).bind Exit.reason? = none
  silent : bodyLogs body = []

namespace Told

theorem nil : Told [] [] := ⟨rfl, rfl, rfl⟩

theorem fatal (message : String) : Told [.abort (.fatal message)] [message] := ⟨rfl, rfl, rfl⟩

theorem panic (payload : Payload) : Told [.panic payload] ["panicked: " ++ payload.message] :=
  ⟨rfl, rfl, rfl⟩

variable {body : List Step} {failures : List String}

/-- An error is recorded and the body goes on. -/
theorem error (message : String) (h : Told body failures) :
    Told (.error message :: body) (message :: failures) where
  recorded := congrArg (message :: ·) h.recorded
  unskipped := h.unskipped
  silent := h.silent

theorem errors (messages : List String) (h : Told body failures) :
    Told (messages.map .error ++ body) (messages ++ failures) := by
  induction messages with
  | nil => exact h
  | cons message rest ih => exact ih.error message

theorem run (h : Told body failures) (s : Session) (name : String) :
    (s.run name body).reports = s.reports ++ [⟨name, Outcome.of failures none, []⟩] := by
  rw [run_reports, h.recorded, h.unskipped, h.silent]

end Told

theorem outcome_passed_iff {failures : List String} :
    Outcome.of failures none = .passed ↔ failures = [] := by
  cases failures <;> simp [Outcome.of]

theorem outcome_of_ne_nil {failures : List String} (h : failures ≠ []) :
    Outcome.of failures none = .failed failures := by
  simp [Outcome.of, h]

end TestBench.Case
