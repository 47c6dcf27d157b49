import TestBench.Proofs.Case.Cleanups

/-! Cases that are given up without an end. A case lives as long as there is a handle on it; the
cleanups that hold a handle are kept in the case itself, so that it outlives its caller for good. -/
namespace TestBench.Case

/-- What a caller does with its handles on a case. -/
inductive Handling where
  /-- takes one more -/
  | take
  | giveUp
  /-- makes a step with one of them -/
  | make (step : Step)

/-- A case, and the number of handles that its caller holds. -/
structure Held where
  handles : Nat
  case : State

namespace Held

/-- All handles on a case: those of the caller, and one for each cleanup that holds the case. -/
def references (h : Held) : Nat := h.handles + h.case.pending.countP Cleanup.holdsCase

/-- The last handle takes the case with it: what is pending runs. -/
def settled (h : Held) : Held :=
  if h.references = 0 then
    { h with case := settleAll { h.case with pending := [] } h.case.pending }
  else h

/-- Without a handle nothing can be done. -/
def after (h : Held) (what : Handling) : Held :=
  match h.handles, what with
  | 0, _ => h
  | n + 1, .take => { h with handles := n + 2 }
  | n + 1, .giveUp => { h with handles := n }.settled
  | _ + 1, .make step => { h with case := (runStep h.case step).1 }

def afterAll (h : Held) (history : List Handling) : Held := history.foldl after h

end Held

/-- The cleanups a caller registers that starts with so many handles. -/
def registeredWith : Nat → List Handling → List Cleanup
  | 0, _ => []
  | _ + 1, [] => []
  | n + 1, .take :: rest => registeredWith (n + 2) rest
  | n + 1, .giveUp :: rest => registeredWith n rest
  | n + 1, .make step :: rest => step.registered ++ registeredWith (n + 1) rest

/-- A caller that gives up its last handle releases the case. -/
theorem settled_case (s : State) : (Held.mk 0 s).settled = ⟨0, release s⟩ := by
  have hcount : (Held.mk 0 s).references = 0 ↔ s.pending.any Cleanup.holdsCase = false := by
    simp [Held.references, List.countP_eq_zero]
  rw [Held.settled, release]
  by_cases hheld : s.pending.any Cleanup.holdsCase = true
  · rw [if_neg (by simp [hcount, hheld]), if_pos hheld]
  · rw [Bool.not_eq_true] at hheld
    rw [if_pos (hcount.mpr hheld), if_neg (by simp [hheld])]

theorem settled_of_handles (n : Nat) (s : State) :
    (Held.mk (n + 1) s).settled = ⟨n + 1, s⟩ :=
  if_neg (by simp [Held.references])

theorem afterAll_zero (s : State) (history : List Handling) :
    (Held.mk 0 s).afterAll history = ⟨0, s⟩ := by
  induction history with
  | nil => rfl
  | cons what rest ih => exact ih

/-- Nothing runs while the caller holds a handle. Then all that it registered runs, unless one of
them holds the case. -/
theorem afterAll_runs (n : Nat) (s : State) (history : List Handling) :
    let h := (Held.mk (n + 1) s).afterAll history
    let cleanups := (registeredWith (n + 1) history).reverse ++ s.pending
    h.case.runs = s.runs ++
      if h.handles = 0 ∧ cleanups.any Cleanup.holdsCase = false then
        cleanups.flatMap Cleanup.shown
      else [] := by
  induction history generalizing n s with
  | nil => simp [Held.afterAll]
  | cons what rest ih =>
    cases what with
    | take => exact ih (n + 1) s
    | make step =>
      have h := ih n (runStep s step).1
      rw [runStep_runs, runStep_pending] at h
      simpa [registeredWith, Held.afterAll, Held.after] using h
    | giveUp =>
      cases n with
      | succ n =>
        have h := ih n s
        rw [← settled_of_handles] at h
        exact h
      | zero =>
        have hgone : (Held.mk 1 s).afterAll (.giveUp :: rest) = ⟨0, release s⟩ := by
          show ((Held.mk 0 s).settled).afterAll rest = _
          rw [settled_case, afterAll_zero]
        rw [hgone]
        simp only [registeredWith, List.reverse_nil, List.nil_append, true_and]
        rw [release_runs]
        by_cases hheld : s.pending.any Cleanup.holdsCase = true
        · simp [hheld]
        · simp [hheld]

theorem afterAll_make (s : State) (steps : List Step) :
    (Held.mk 1 s).afterAll (steps.map .make) = ⟨1, carry s steps⟩ := by
  induction steps generalizing s with
  | nil => rfl
  | cons step rest ih => exact ih (runStep s step).1

/-- The steps of a body, and then the only handle is given up. -/
def bodyHistory (body : List Step) : List Handling :=
  (executed Step.exits body).map .make ++ [.giveUp]

theorem registeredWith_bodyHistory (body : List Step) :
    registeredWith 1 (bodyHistory body) = (bodyCleanups body).reverse := by
  rw [bodyHistory, bodyCleanups, List.reverse_reverse]
  induction executed Step.exits body with
  | nil => rfl
  | cons step rest ih =>
    rw [List.map_cons, List.cons_append, registeredWith, ih, List.flatMap_cons]

/-- A case abandoned after its body is one whose caller does that. -/
theorem abandonCase_runs (settings : Settings) (name : String) (body : List Step) :
    let h := (Held.mk 1 (.start settings name)).afterAll (bodyHistory body)
    h.handles = 0 ∧ (abandonCase settings name body).filter Event.ofCleanup = h.case.runs := by
  have hgone : (Held.mk 1 (.start settings name)).afterAll (bodyHistory body) =
      ⟨0, release (carry (.start settings name) (executed Step.exits body))⟩ := by
    rw [bodyHistory, Held.afterAll, List.foldl_append]
    show (((Held.mk 1 _).afterAll _).afterAll _) = _
    rw [afterAll_make]
    exact settled_case _
  have hdropping (s : State) : (s.see (.dropping name)).runs = s.runs := by
    simp [State.runs, State.see, Event.ofCleanup]
  rw [hgone]
  refine ⟨rfl, ?_⟩
  have habandoned := release_runs ((runBody (.start settings name) body).1.see (.dropping name))
  rw [hdropping, runBody_eq_carry] at habandoned
  rw [release_runs, abandonCase, runBody_eq_carry]
  exact habandoned

theorem shown_ne_nil {c : Cleanup} (h : c.holdsCase = true) : c.shown ≠ [] := by
  cases c with
  | holding id steps ending => simp [Cleanup.shown]
  | _ => cases h

/-- Once the caller of a case has given up all its handles, the cleanups it has registered have all
run, each once and the last one first, just when none of them holds a handle itself; if one does,
none of them ever runs. Until then none has run. -/
theorem given_up_cleans_up_iff (settings : Settings) (name : String) (history : List Handling) :
    let h := (Held.mk 1 (.start settings name)).afterAll history
    let cleanups := registeredWith 1 history
    (h.handles ≠ 0 → h.case.runs = []) ∧
      (h.handles = 0 → (h.case.runs = cleanups.reverse.flatMap Cleanup.shown ↔
        ∀ c ∈ cleanups, c.holdsCase = false)) ∧
      (h.handles = 0 → ∀ c ∈ cleanups, c.holdsCase = true → h.case.runs = []) ∧
      ∀ body, history = bodyHistory body → h.handles = 0 ∧ cleanups.reverse = bodyCleanups body ∧
        (abandonCase settings name body).filter Event.ofCleanup = h.case.runs := by
  intro h cleanups
  have hruns : h.case.runs = if h.handles = 0 ∧ cleanups.any Cleanup.holdsCase = false then
      cleanups.reverse.flatMap Cleanup.shown else [] := by
    have hempty : (State.start settings name).pending = [] := rfl
    have hall := afterAll_runs 0 (.start settings name) history
    simp only [hempty, List.append_nil, List.any_reverse] at hall
    exact hall.trans (List.nil_append _)
  have hheld {c : Cleanup} (hc : c ∈ cleanups) (hholds : c.holdsCase = true) :
      h.case.runs = [] := by
    rw [hruns, if_neg]
    rintro ⟨-, hnone⟩
    exact absurd hholds (by simpa using List.any_eq_false.mp hnone c hc)
  refine ⟨fun hsome => ?_, fun hgone => ⟨fun hall c hc => ?_, fun hfree => ?_⟩,
    fun _ c hc => hheld hc, ?_⟩
  · rw [hruns, if_neg fun hboth => hsome hboth.1]
  · by_contra hholds
    rw [Bool.not_eq_false] at hholds
    rw [hheld hc hholds] at hall
    have hnone := List.flatMap_eq_nil_iff.mp hall.symm c (List.mem_reverse.mpr hc)
    exact shown_ne_nil hholds hnone
  · rw [hruns, if_pos ⟨hgone, List.any_eq_false.mpr fun c hc => by simp [hfree c hc]⟩]
  · rintro body rfl
    obtain ⟨hgone, hsame⟩ := abandonCase_runs settings name body
    refine ⟨hgone, ?_, hsame⟩
    show (registeredWith 1 (bodyHistory body)).reverse = _
    rw [registeredWith_bodyHistory, List.reverse_reverse]

/-- A cleanup that logs to its case never runs when the case is dropped. -/
theorem holding_cleanup_never_runs :
    (abandonCase (.ofEnvironment []) "leaky"
        [.register (.holding "outer" [.log "closing"] .ok)]).filter Event.ofCleanup ≠
      (bodyCleanups [.register (.holding "outer" [.log "closing"] .ok)]).flatMap
        Cleanup.shown := by
  simp [abandonCase, runBody, runStep, State.register, State.see, release, State.start,
    Cleanup.holdsCase, Event.ofCleanup, bodyCleanups, executed, Step.exits, Step.exit?,
    Step.registered, Cleanup.shown]

end TestBench.Case
