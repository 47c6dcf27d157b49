import TestBench.Proofs.Case.Reports

/-! Components that are started for the duration of a case. Whatever ends the body, those that it
started are stopped after it, in the reverse of the order in which they were started. -/
namespace TestBench.Case

/-- The component that a step leaves to be stopped, and how stopping it ends: it has been started or
need not be, and it can be stopped. -/
def Step.guarded : Step → List (String × Ending)
  | .startStop id none (some ending) => [(id, ending)]
  | .startStop id (some .ok) (some ending) => [(id, ending)]
  | _ => []

/-- The component a cleanup stops. -/
def Cleanup.stops : Cleanup → List (String × Ending)
  | .stop id (some ending) => [(id, ending)]
  | _ => []

def Event.ofStop : Event → Bool
  | .stop _ => true
  | _ => false

/-- What is recorded when stopping a component fails. -/
def stopFailure? : Ending → Option String
  | .ok => none
  | .error chain => some (chain.within "Stop() error").text
  | .panic payload => some ("cleanup panicked: " ++ payload.message)

theorem shown_ofStop (c : Cleanup) :
    c.shown.filter Event.ofStop = c.stops.map fun component => .stop component.1 := by
  cases c with
  | stop id ending => cases ending <;> rfl
  | _ => rfl

theorem shown_flatMap_ofStop (cs : List Cleanup) :
    (cs.flatMap Cleanup.shown).filter Event.ofStop =
      (cs.flatMap Cleanup.stops).map fun component => .stop component.1 := by
  rw [List.filter_flatMap, List.map_flatMap]
  exact congrArg (fun f => cs.flatMap f) (funext shown_ofStop)

/-- A cleanup that stops a component records the failure of that and nothing else. -/
theorem failures_of_stops {c : Cleanup} (h : c.stops ≠ []) :
    c.failures = c.stops.flatMap fun component => (stopFailure? component.2).toList := by
  cases c with
  | stop id ending =>
    rcases ending with _ | _ | _ | _
    · contradiction
    all_goals rfl
  | _ => contradiction

theorem stops_flatMap_failures (cs : List Cleanup) :
    (cs.filter fun c => c.stops ≠ []).flatMap Cleanup.failures =
      (cs.flatMap Cleanup.stops).flatMap fun component => (stopFailure? component.2).toList := by
  induction cs with
  | nil => rfl
  | cons c rest ih =>
    rw [List.flatMap_cons, List.flatMap_append, ← ih]
    by_cases hstops : c.stops = []
    · simp [hstops]
    · simp [hstops, failures_of_stops hstops]

/-- Where no other cleanup stops anything, the components to stop are those that steps left. -/
theorem stops_eq_guarded {body : List Step}
    (h : ∀ c, Step.register c ∈ body → c.ordinary = true) :
    (bodyCleanups body).flatMap Cleanup.stops =
      ((executed Step.exits body).flatMap Step.guarded).reverse := by
  have hone (c : Cleanup) : c.stops.reverse = c.stops := by
    cases c with
    | stop id ending => cases ending <;> rfl
    | _ => rfl
  have hstep : ∀ step ∈ executed Step.exits body,
      step.registered.flatMap Cleanup.stops = step.guarded := by
    intro step hstep
    cases step with
    | register c =>
      have hordinary := h c (mem_of_mem_executed hstep)
      cases c with
      | stop id ending => cases hordinary
      | _ => rfl
    | startStop id start stop => rcases start with _ | _ | _ | _ <;> cases stop <;> rfl
    | _ => rfl
  rw [bodyCleanups, List.flatMap_reverse, List.flatMap_assoc]
  simp only [Function.comp_def, hone]
  rw [List.flatMap_congr hstep]

theorem executed_append {stops : Step → Bool} {earlier later : List Step} {step : Step}
    (hearlier : ∀ s ∈ earlier, stops s = false) (hstep : stops step = true) :
    executed stops (earlier ++ step :: later) = earlier ++ [step] := by
  induction earlier with
  | nil => simp [executed, hstep]
  | cons first rest ih =>
    rw [List.forall_mem_cons] at hearlier
    rw [List.cons_append, executed, hearlier.1, ih hearlier.2]
    rfl

theorem findSome?_exit_append {earlier later : List Step} {step : Step} {exit : Exit}
    (hearlier : ∀ s ∈ earlier, s.exits = false) (hstep : step.exit? = some exit) :
    (earlier ++ step :: later).findSome? Step.exit? = some exit := by
  have hnone : earlier.findSome? Step.exit? = none :=
    List.findSome?_eq_none_iff.mpr fun s hs => by simpa [Step.exits] using hearlier s hs
  rw [List.findSome?_append, hnone, List.findSome?_cons, hstep]
  rfl

/-- A start that fails is an exit with a failure. -/
theorem exit_of_start (id : String) {start : Ending} (stop : Option Ending) (h : start ≠ .ok) :
    ∃ exit message, (Step.startStop id (some start) stop).exit? = some exit ∧
      exit.failure? = some message := by
  cases start with
  | ok => contradiction
  | error chain => exact ⟨_, _, rfl, rfl⟩
  | panic payload => exact ⟨_, _, rfl, rfl⟩

theorem failed_of_failures {failures : List String} {skip : Option String} {name : String}
    {logs : List String} (h : failures ≠ []) :
    (Report.mk name (Outcome.of failures skip) logs).failed = true := by
  cases failures with
  | nil => contradiction
  | cons message rest => rfl

/-- What becomes of the components of a case. -/
structure ComponentsStopped (s : Session) (name : String) (body : List Step) : Prop where
  /-- every cleanup runs after the body, whatever becomes of the others -/
  trace : (s.run name body).events = s.events ++ Event.opened name ::
    ((runBody (.start s.settings name) body).1.events ++
      (bodyCleanups body).flatMap Cleanup.shown)
  /-- nothing is stopped before the body has ended -/
  after : ∀ e ∈ (runBody (.start s.settings name) body).1.events, e.ofStop = false
  /-- the components that steps left to be stopped are stopped, each once, the last one first -/
  stopped : ((bodyCleanups body).flatMap Cleanup.shown).filter Event.ofStop =
    ((executed Step.exits body).flatMap Step.guarded).reverse.map fun c => .stop c.1
  /-- the report tells the failures of all cleanups in the order in which they ran -/
  told : ∃ report, (s.run name body).reports = s.reports ++ [report] ∧
    report.failures = (executed Step.exits body).flatMap Step.errors ++
      ((body.findSome? Step.exit?).bind Exit.failure?).toList ++
      (bodyCleanups body).flatMap Cleanup.failures
  /-- among them are the failures to stop a component, each once -/
  toldOnce : ((bodyCleanups body).filter fun c => c.stops ≠ []).flatMap Cleanup.failures =
    ((executed Step.exits body).flatMap Step.guarded).reverse.flatMap fun c =>
      (stopFailure? c.2).toList
  /-- a start that fails is the last step; its component is not among those left to be stopped, and
  the case has failed -/
  failedStart : ∀ (earlier later : List Step) (id : String) (start : Ending) (stop : Option Ending),
    body = earlier ++ .startStop id (some start) stop :: later → start ≠ .ok →
    (∀ step ∈ earlier, step.exits = false) →
    executed Step.exits body = earlier ++ [.startStop id (some start) stop] ∧
      (executed Step.exits body).flatMap Step.guarded = earlier.flatMap Step.guarded ∧
      ∃ report, (s.run name body).reports = s.reports ++ [report] ∧ report.failed = true

/-- Whatever ends a body, and whatever its cleanups do: the components that it has started are
stopped, each once and in reverse; one that failed to start is not; failures to stop are told and
keep nothing else from running. -/
theorem components_stopped (s : Session) (name : String) {body : List Step}
    (h : ∀ c, Step.register c ∈ body → c.ordinary = true) : ComponentsStopped s name body where
  trace := run_events s name h
  after e he := by
    have hrun := runBody_events s.settings name body he
    cases e with
    | stop id => cases hrun
    | _ => rfl
  stopped := by rw [shown_flatMap_ofStop, stops_eq_guarded h]
  told := ⟨_, run_reports s name, outcome_failures _ _⟩
  toldOnce := by rw [stops_flatMap_failures, stops_eq_guarded h]
  failedStart earlier later id start stop hbody hstart hearlier := by
    obtain ⟨exit, message, hexit, hmessage⟩ :=
      exit_of_start id stop hstart
    have hmade : executed Step.exits body = earlier ++ [.startStop id (some start) stop] := by
      rw [hbody]
      exact executed_append hearlier (by rw [Step.exits, hexit]; rfl)
    have hguarded : (Step.startStop id (some start) stop).guarded = [] := by
      cases start with
      | ok => contradiction
      | error chain => rfl
      | panic payload => rfl
    have hends : body.findSome? Step.exit? = some exit := by
      rw [hbody]
      exact findSome?_exit_append hearlier hexit
    refine ⟨hmade, by simp [hmade, hguarded], _, run_reports s name, failed_of_failures ?_⟩
    simp [recorded, hends, hmessage]

/-- The third component fails to start; of the two before it one stops with a panic. -/
theorem components_stopped_inlet :
    let body : List Step := [.startStop "store" (some .ok) (some .ok),
      .register (.plain "plain" .ok), .startStop "cache" none (some (.panic .other)),
      .startStop "inlet" (some (.error ⟨["port in use"]⟩)) (some .ok), .log "never"]
    let s : Session := .start (.ofEnvironment [])
    (∀ c, Step.register c ∈ body → c.ordinary = true) ∧
      (s.run "inlet" body).events = [.opened "inlet", .start "store", .start "inlet",
        .stop "cache", .cleanup "plain", .stop "store"] ∧
      (s.run "inlet" body).reports.map Report.failures =
        [["Start() error:\nport in use", "cleanup panicked: non-string panic payload"]] := by
  intro body s
  have hbody : ∀ c, Step.register c ∈ body → c.ordinary = true := by
    intro c hc
    simp only [body, List.mem_cons, Step.register.injEq, reduceCtorEq, List.not_mem_nil, or_false,
      false_or] at hc
    subst hc
    rfl
  have hstopped := components_stopped s "inlet" hbody
  obtain ⟨report, hreports, hfailures⟩ := hstopped.told
  refine ⟨hbody, hstopped.trace, ?_⟩
  rw [hreports, List.map_append, List.map_singleton, hfailures]
  rfl

end TestBench.Case
