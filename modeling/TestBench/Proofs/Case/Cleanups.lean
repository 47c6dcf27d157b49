import Mathlib.Data.List.Perm.Basic
import TestBench.Proofs.Case.Steps

/-! Which cleanups of a whole case run, and which of their failures its report tells. Cleanups that
the body registers are in good hands; what these register in turn comes late. -/
namespace TestBench.Case

mutual

/-- What a step registers, with all that comes of it. -/
def Step.lineage : Step → List Cleanup
  | .register c => c.lineage
  | .startStop id start stop => (Step.startStop id start stop).registered
  | _ => []

/-- A cleanup and, at any depth, those that are registered while it runs. -/
def Cleanup.lineage : Cleanup → List Cleanup
  | .plain id ending => [.plain id ending]
  | .stop id ending => [.stop id ending]
  | .holding id steps ending => .holding id steps ending :: stepsLineage steps

def stepsLineage : List Step → List Cleanup
  | [] => []
  | step :: rest => if step.panics then step.lineage else step.lineage ++ stepsLineage rest

end

theorem Step.lineage_eq (step : Step) : step.lineage = step.registered.flatMap Cleanup.lineage := by
  cases step with
  | startStop id start stop =>
    rcases start with _ | _ | _ | _ <;> simp [Step.lineage, Step.registered, Cleanup.lineage]
  | _ => simp [Step.lineage, Step.registered]

theorem stepsLineage_eq (steps : List Step) :
    stepsLineage steps =
      ((executed Step.panics steps).flatMap Step.registered).flatMap Cleanup.lineage := by
  induction steps with
  | nil => rfl
  | cons step rest ih =>
    rw [stepsLineage, executed, Step.lineage_eq, ih]
    by_cases hstop : step.panics = true
    · simp [hstop]
    · simp [hstop]

theorem Cleanup.lineage_eq (c : Cleanup) :
    c.lineage = c :: c.registers.flatMap Cleanup.lineage := by
  cases c with
  | holding id steps ending => rw [Cleanup.lineage, stepsLineage_eq]; rfl
  | _ => rfl

/-- The generations of cleanups can be told apart: first the cleanups themselves. -/
theorem lineages_perm (cs : List Cleanup) :
    (cs.flatMap Cleanup.lineage).Perm
      (cs ++ (cs.flatMap Cleanup.registers).flatMap Cleanup.lineage) := by
  have hsplit := List.map_append_flatMap_perm cs id
    (fun c => c.registers.flatMap Cleanup.lineage)
  rw [List.map_id, ← List.flatMap_assoc] at hsplit
  refine List.Perm.trans (List.Perm.of_eq ?_) hsplit.symm
  exact congrArg (fun f => cs.flatMap f) (funext Cleanup.lineage_eq)

theorem lineages_eq_self {cs : List Cleanup} (h : ∀ c ∈ cs, c.holdsCase = false) :
    cs.flatMap Cleanup.lineage = cs := by
  induction cs with
  | nil => rfl
  | cons c rest ih =>
    have hc : c.lineage = [c] := by
      cases c with
      | holding id steps ending => simp [Cleanup.holdsCase] at h
      | _ => rfl
    rw [List.flatMap_cons, hc, ih fun d hd => h d (List.mem_cons_of_mem c hd)]
    rfl

/-- The message with which the end of a body is recorded. -/
def Exit.failure? : Exit → Option String
  | .abort (.fatal message) => some message
  | .abort (.skip _) => none
  | .panic payload => some ("panicked: " ++ payload.message)

section Body

variable (body : List Step)

/-- The cleanups a body registers, the last one first. -/
def bodyCleanups : List Cleanup := ((executed Step.exits body).flatMap Step.registered).reverse

/-- The cleanups that cleanups of the body register. -/
def lateCleanups : List Cleanup := (bodyCleanups body).flatMap Cleanup.registers

/-- All cleanups that are ever registered when a case runs this body and its cleanups. -/
def everRegistered : List Cleanup := (bodyCleanups body).flatMap Cleanup.lineage

/-- The failures of a case: those of its body, its end, and the cleanups its body registers. -/
def recorded : List String :=
  (executed Step.exits body).flatMap Step.errors ++
    ((body.findSome? Step.exit?).bind Exit.failure?).toList ++
    (bodyCleanups body).flatMap Cleanup.failures

end Body

theorem runBody_exit (s : State) (steps : List Step) :
    (runBody s steps).2 = steps.findSome? Step.exit? := by
  induction steps generalizing s with
  | nil => rfl
  | cons step rest ih =>
    have hexit := runStep_exit s step
    rw [runBody, List.findSome?_cons, ← hexit]
    rcases hstep : runStep s step with ⟨t, _ | exit⟩ <;> simp [ih]

theorem record_eq (s : State) (exit : Option Exit) :
    (record s exit).failures = s.failures ++ (exit.bind Exit.failure?).toList ∧
      (record s exit).pending = s.pending ∧ (record s exit).runs = s.runs := by
  rcases exit with _ | (_ | _) | _ <;>
    simp [record, State.fail, State.runs, Exit.failure?]

/-- The case when its report is made. -/
def settled (settings : Settings) (name : String) (body : List Step) : State :=
  let s := record (runBody (.start settings name) body).1 (body.findSome? Step.exit?)
  settleAll { s with pending := [] } s.pending

section Case

variable (settings : Settings) (name : String) (body : List Step)

theorem runCase_eq : runCase settings name body =
    ((settled settings name body).report, (release (settled settings name body)).events) := by
  rw [settled, ← runBody_exit (.start settings name) body]
  rfl

theorem record_pending_body :
    (record (runBody (.start settings name) body).1 (body.findSome? Step.exit?)).pending =
      bodyCleanups body := by
  rw [(record_eq _ _).2.1, runBody_eq_carry, carry_pending]
  simp [State.start, bodyCleanups]

theorem settled_failures : (settled settings name body).failures = recorded body := by
  rw [settled, settleAll_failures, record_pending_body]
  simp [record_eq, runBody_eq_carry, carry_failures, State.start, recorded]

theorem settled_pending : (settled settings name body).pending = (lateCleanups body).reverse := by
  rw [settled, settleAll_pending, record_pending_body]
  simp [lateCleanups]

theorem settled_runs :
    (settled settings name body).runs = (bodyCleanups body).flatMap Cleanup.shown := by
  rw [settled, settleAll_runs, record_pending_body]
  have hbody := (record_eq (runBody (.start settings name) body).1
    (body.findSome? Step.exit?)).2.2
  rw [runBody_eq_carry, carry_runs] at hbody
  simpa [State.runs, State.start, runBody_eq_carry] using hbody

theorem outcome_failures (failures : List String) (skip : Option String) :
    (Outcome.of failures skip).failures = failures := by
  cases failures with
  | nil => cases skip <;> rfl
  | cons message rest => rfl

/-- The report tells exactly what is recorded before it is made. -/
theorem runCase_failures : (runCase settings name body).1.failures = recorded body := by
  rw [runCase_eq, ← settled_failures settings name body]
  exact outcome_failures _ _

theorem release_runs (s : State) : (release s).runs =
    s.runs ++ if s.pending.any Cleanup.holdsCase then [] else s.pending.flatMap Cleanup.shown := by
  rw [release]
  by_cases hheld : s.pending.any Cleanup.holdsCase = true
  · simp [hheld]
  · rw [if_neg hheld, if_neg hheld]
    exact settleAll_runs _ _

/-- One cleanup that holds the case keeps all late ones from running. -/
theorem runCase_runs :
    (runCase settings name body).2.filter Event.ofCleanup =
      (bodyCleanups body).flatMap Cleanup.shown ++
        if (lateCleanups body).any Cleanup.holdsCase then []
        else (lateCleanups body).reverse.flatMap Cleanup.shown := by
  have h := release_runs (settled settings name body)
  rw [settled_runs, settled_pending, List.any_reverse] at h
  rw [runCase_eq]
  exact h

end Case

/-- Every cleanup ever registered has run exactly once, and when it failed the report tells it. -/
structure EveryCleanupCounts (body : List Step) (result : Report × List Event) : Prop where
  once : ∀ e, e.ofCleanup = true →
    result.2.count e = ((everRegistered body).flatMap Cleanup.shown).count e
  heard : ∀ c ∈ everRegistered body, ∀ message, c.ending.failure? = some message →
    message ∈ result.1.failures

theorem count_everRegistered (body : List Step) (e : Event) :
    ((everRegistered body).flatMap Cleanup.shown).count e =
      ((bodyCleanups body).flatMap Cleanup.shown).count e +
        (((lateCleanups body).flatMap Cleanup.lineage).flatMap Cleanup.shown).count e := by
  have hperm := ((lineages_perm (bodyCleanups body)).flatMap_right Cleanup.shown).count_eq e
  rwa [List.flatMap_append, List.count_append] at hperm

theorem mem_everRegistered {body : List Step} {c : Cleanup} :
    c ∈ everRegistered body ↔
      c ∈ bodyCleanups body ∨ c ∈ (lateCleanups body).flatMap Cleanup.lineage := by
  rw [everRegistered, (lineages_perm (bodyCleanups body)).mem_iff, List.mem_append, lateCleanups]

theorem mem_recorded_of_failure {body : List Step} {c : Cleanup} {message : String}
    (hc : c ∈ bodyCleanups body) (hfail : c.ending.failure? = some message) :
    message ∈ recorded body := by
  have hown : message ∈ c.failures := by simp [Cleanup.failures, hfail]
  exact List.mem_append_right _ (List.mem_flatMap.mpr ⟨c, hc, hown⟩)

theorem count_runs {result : Report × List Event} {e : Event} (he : e.ofCleanup = true) :
    (result.2.filter Event.ofCleanup).count e = result.2.count e :=
  List.count_filter he

/-- A late cleanup that holds the case is registered and never runs. -/
theorem not_holdsCase_of_once {settings : Settings} {name : String} {body : List Step}
    (h : EveryCleanupCounts body (runCase settings name body)) {c : Cleanup}
    (hc : c ∈ lateCleanups body) : c.holdsCase = false := by
  by_contra hholds
  rw [Bool.not_eq_false] at hholds
  cases c with
  | holding id steps ending =>
    have hheld : (lateCleanups body).any Cleanup.holdsCase = true :=
      List.any_eq_true.mpr ⟨_, hc, hholds⟩
    have honce := h.once (.cleanup id) rfl
    rw [← count_runs rfl, runCase_runs, if_pos hheld, List.append_nil,
      count_everRegistered] at honce
    have hself : Cleanup.holding id steps ending ∈ (lateCleanups body).flatMap Cleanup.lineage :=
      List.mem_flatMap.mpr ⟨_, hc, by simp [Cleanup.lineage]⟩
    have hseen : Event.cleanup id ∈
        ((lateCleanups body).flatMap Cleanup.lineage).flatMap Cleanup.shown :=
      List.mem_flatMap.mpr ⟨_, hself, by simp [Cleanup.shown]⟩
    have hpos := List.count_pos_iff.mpr hseen
    omega
  | _ => simp [Cleanup.holdsCase] at hholds

/-- Every cleanup counts just when no cleanup registers another one that holds the case, or one
whose failure is not told otherwise. -/
theorem everyCleanupCounts_iff (settings : Settings) (name : String) (body : List Step) :
    EveryCleanupCounts body (runCase settings name body) ↔
      ∀ c ∈ lateCleanups body, c.holdsCase = false ∧
        ∀ message, c.ending.failure? = some message → message ∈ recorded body := by
  constructor
  · intro h c hc
    refine ⟨not_holdsCase_of_once h hc, fun message hfail => ?_⟩
    have hever : c ∈ everRegistered body := mem_everRegistered.mpr
      (.inr (List.mem_flatMap.mpr ⟨c, hc, by rw [c.lineage_eq]; exact List.mem_cons_self⟩))
    have hheard := h.heard c hever message hfail
    rwa [runCase_failures] at hheard
  · intro h
    have hlate : (lateCleanups body).flatMap Cleanup.lineage = lateCleanups body :=
      lineages_eq_self fun c hc => (h c hc).1
    have hfree : (lateCleanups body).any Cleanup.holdsCase = false :=
      List.any_eq_false.mpr fun c hc => by simp [(h c hc).1]
    constructor
    · intro e he
      have hperm := ((List.reverse_perm (lateCleanups body)).flatMap_right Cleanup.shown).count_eq e
      rw [← count_runs he, runCase_runs, hfree, count_everRegistered, hlate, List.count_append]
      simp [hperm]
    · intro c hc message hfail
      rw [runCase_failures]
      rcases mem_everRegistered.mp hc with hbody | hc
      · exact mem_recorded_of_failure hbody hfail
      · rw [hlate] at hc
        exact (h c hc).2 message hfail

/-- A failure that comes late is not told. -/
theorem late_failure_unheard :
    ¬ EveryCleanupCounts
      [.register (.holding "outer"
        [.register (.plain "inner" (.error ⟨["inner failed"]⟩))] .ok)]
      (runCase (.ofEnvironment []) "nested"
        [.register (.holding "outer"
          [.register (.plain "inner" (.error ⟨["inner failed"]⟩))] .ok)]) := by
  intro h
  have hheard := h.heard (.plain "inner" (.error ⟨["inner failed"]⟩))
    (by simp [everRegistered, bodyCleanups, executed, Step.exits, Step.exit?, Step.registered,
      Cleanup.lineage, stepsLineage, Step.lineage, Step.panics, Step.panic?]) "inner failed" rfl
  rw [runCase_failures] at hheard
  simp [recorded, bodyCleanups, executed, Step.exits, Step.exit?, Step.errors, Step.registered,
    Cleanup.failures, Cleanup.steps, Cleanup.ending, Ending.failure?, Step.panics, Step.panic?]
    at hheard

end TestBench.Case
