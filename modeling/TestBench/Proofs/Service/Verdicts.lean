import Mathlib.Algebra.Order.BigOperators.Group.Finset
import TestBench.Case.Run
import TestBench.Service.Readiness
import TestBench.Proofs.Service.Retrying

/-! What a check for a service says: which candidate it settles on, which server it dials and until
when, and what becomes of the case that depends on it. -/
namespace TestBench.Service.Target

open Case (Abort Settings)

variable (settings : Settings) (net : Network) (t : Target)

/-- Whether the candidate in that place resolves in time. -/
def Resolves (i : Nat) : Prop :=
  ∃ host address more, t.candidates[i]? = some host ∧
    (net.lookup host i).outcome = .ok (address :: more) ∧
    (net.lookup host i).delay.nanos ≤ settings.resolveTimeout.nanos

/-- Whether that candidate is the first that resolves in time. -/
def First (i : Nat) : Prop :=
  t.Resolves settings net i ∧ ∀ j < i, ¬ t.Resolves settings net j

section Lookups

variable {settings net t}

theorem resolution_inTime_iff {started : Nat} {a : Attempt String String} :
    (resolution settings t).InTime started a ↔ a.delay.nanos ≤ settings.resolveTimeout.nanos := by
  simp [Retry.InTime, Retry.Limit, resolution]

theorem lookupAttempt_eq_ok_iff {i : Nat} {host : String} :
    (t.lookupAttempt net i).outcome = .ok host ↔ host = t.candidates.getD i "" ∧
      ∃ address more, (net.lookup (t.candidates.getD i "") i).outcome = .ok (address :: more) := by
  rw [lookupAttempt]
  rcases (net.lookup (t.candidates.getD i "") i).outcome with e | addresses
  · simp [Except.bind]
  · cases addresses <;> simp [Except.bind, resolve, eq_comm]

/-- A look-up gives a host just when this is the candidate in that place and resolves in time. -/
theorem lookup_result_ok_iff {c : Call String String}
    (h : (resolution settings t).Tells (t.lookupAttempt net c.number) c)
    (hin : c.number < t.candidates.length) {host : String} :
    c.result = .ok host ↔
      t.candidates[c.number]? = some host ∧ t.Resolves settings net c.number := by
  have hhost : t.candidates[c.number]? = some (t.candidates.getD c.number "") := by
    simp [List.getD_eq_getElem?_getD, hin]
  rw [h.result_ok_iff, resolution_inTime_iff, lookupAttempt_eq_ok_iff, Resolves, hhost]
  simp only [Option.some.injEq]
  constructor
  · rintro ⟨hle, rfl, address, more, hfound⟩
    exact ⟨rfl, _, address, more, rfl, hfound, hle⟩
  · rintro ⟨rfl, _, address, more, rfl, hfound, hle⟩
    exact ⟨hle, rfl, address, more, hfound⟩

theorem lt_of_resolves {i : Nat} (h : t.Resolves settings net i) : i < t.candidates.length := by
  obtain ⟨host, -, -, hhost, -⟩ := h
  exact (List.getElem?_eq_some_iff.mp hhost).1

theorem not_resolves_of_error {c : Call String String}
    (h : (resolution settings t).Tells (t.lookupAttempt net c.number) c)
    {err : AttemptError String} (hfailed : c.result = .error err) :
    ¬ t.Resolves settings net c.number := by
  intro hresolves
  obtain ⟨host, -, -, hhost, -⟩ := id hresolves
  have hok := (lookup_result_ok_iff h (lt_of_resolves hresolves)).mpr ⟨hhost, hresolves⟩
  cases hfailed.symm.trans hok

/-- The look-ups end. -/
theorem resolution_ends (settings : Settings) (net : Network) (t : Target) :
    ∃ e, (resolution settings t).run (t.lookupAttempt net) (t.candidates.length + 1) = some e :=
  ((resolution settings t).run_within_bounds (t.lookupAttempt net)).endsByNumber _ rfl _
    (Nat.lt_succ_self _)

section Resolution

variable {rounds : Nat} {e : Ended String String}

/-- Look-ups that come to nothing have tried all candidates. -/
theorem resolution_of_error
    (h : (resolution settings t).run (t.lookupAttempt net) rounds = some e)
    {x : Exhausted String} (hresult : e.result = .error x) :
    (∀ i, ¬ t.Resolves settings net i) ∧ e.calls.length = t.candidates.length := by
  obtain ⟨horderly, htruthful⟩ :=
    ((resolution settings t).run_within_bounds (t.lookupAttempt net)).atEnd rounds e h
  have hlength : e.calls.length = t.candidates.length := by
    rcases htruthful.bounded x hresult with ⟨m, hm, hle⟩ | ⟨d, hd, -⟩
    · cases hm
      exact Nat.le_antisymm (horderly.few _ rfl) hle
    · cases hd
  refine ⟨fun i hresolves => ?_, hlength⟩
  obtain ⟨c, hc, rfl⟩ := horderly.exists_number (hlength ▸ lt_of_resolves hresolves)
  obtain ⟨err, hfailed⟩ := htruthful.failed x hresult c hc
  exact not_resolves_of_error (horderly.tells c hc) hfailed hresolves

/-- Look-ups that come to a host end with the first candidate that resolves in time. -/
theorem resolution_of_ok
    (h : (resolution settings t).run (t.lookupAttempt net) rounds = some e)
    {host : String} (hresult : e.result = .ok host) :
    ∃ i, t.First settings net i ∧ t.candidates[i]? = some host ∧ e.calls.length = i + 1 := by
  obtain ⟨horderly, htruthful⟩ :=
    ((resolution settings t).run_within_bounds (t.lookupAttempt net)).atEnd rounds e h
  obtain ⟨earlier, last, hcalls, hin, hok, -⟩ := htruthful.value host hresult
  have hfew := horderly.few _ rfl
  rw [hcalls] at horderly hfew ⊢
  rw [List.length_append, List.length_singleton] at hfew ⊢
  have hlast := horderly.last_number
  have htells := horderly.tells last (List.mem_append_right _ List.mem_cons_self)
  obtain ⟨hhost, hresolves⟩ := (lookup_result_ok_iff htells (by omega)).mp
    (htells.result_ok_iff.mpr ⟨hin, hok⟩)
  refine ⟨last.number, ⟨hresolves, fun j hj => ?_⟩, hhost, by rw [hlast]⟩
  obtain ⟨c, hc, rfl⟩ := horderly.exists_number (i := j) (by simp; omega)
  -- a call with a smaller number is not the last one, so that it has failed
  have hearlier : c ∈ (earlier ++ [last]).dropLast := by
    rw [List.dropLast_concat]
    refine (List.mem_append.mp hc).resolve_right fun hmem => ?_
    rw [List.mem_singleton.mp hmem] at hj
    omega
  obtain ⟨err, hfailed⟩ := horderly.failed c hearlier
  exact not_resolves_of_error (horderly.tells c hc) hfailed

end Resolution

theorem First.unique {i j : Nat} (hi : t.First settings net i) (hj : t.First settings net j) :
    i = j := by
  rcases Nat.lt_trichotomy i j with hlt | heq | hlt
  · exact absurd hi.1 (hj.2 i hlt)
  · exact heq
  · exact absurd hj.1 (hi.2 j hlt)

end Lookups

/-- The error with which an attempt failed of itself, if it was not cut off. -/
def ownError? (c : Call String Unit) : Option String :=
  match c.result with
  | .error (.failed e) => some e
  | _ => none

theorem connectLogs_eq (calls : List (Call String Unit)) :
    calls.filterMap (connectLog settings) =
      if settings.mandatory then (calls.filterMap ownError?).map ("connect() error:\n" ++ ·)
      else [] := by
  have hlog (c : Call String Unit) : connectLog settings c =
      if settings.mandatory then (ownError? c).map ("connect() error:\n" ++ ·) else none := by
    rcases c with ⟨number, started, ended, (e | after) | value⟩ <;>
      simp [connectLog, Call.error?, ownError?]
  by_cases hmandatory : settings.mandatory = true
  · simp only [hlog, hmandatory, if_true, List.map_filterMap]
  · simp [hlog, hmandatory]

/-- What a check says of a service, unless it is cut short. -/
structure Judged (v : Verdict) : Prop where
  /-- candidates are looked up in order and each once -/
  lookups : (resolution settings t).Orderly (t.lookupAttempt net) v.lookups
  /-- none after the first that resolves in time -/
  upTo : ∀ i, t.First settings net i → v.lookups.length = i + 1
  all : (∀ i, ¬ t.Resolves settings net i) → v.lookups.length = t.candidates.length
  /-- the server to dial is that candidate with the port; IPv6 literals stand in brackets -/
  dialled : ∀ server, v.dialled = some server ↔ ∃ i host, t.First settings net i ∧
    t.candidates[i]? = some host ∧
    server = (if (Net.V6.parse? host).isSome then "[" ++ host ++ "]" else host) ++ ":" ++
      toString t.port
  /-- no other one is dialled -/
  dials : ∀ server, v.dialled = some server →
    (connection settings).Orderly (net.dial server) v.dials
  undialled : v.dialled = none → v.dials = []
  /-- it is ready when an attempt that starts before the deadline succeeds by it -/
  ready : ∀ server, v.server = .ok server ↔ v.dialled = some server ∧
    ∃ c ∈ v.dials, c.started < settings.connectDeadline.nanos ∧
      c.started + (net.dial server c.number).delay.nanos ≤ settings.connectDeadline.nanos ∧
      (net.dial server c.number).outcome = .ok ()
  /-- otherwise attempts go on until the deadline -/
  persistent : ∀ server, v.dialled = some server → (∃ a, v.server = .error a) →
    settings.connectDeadline.nanos ≤
      ((v.dials.getLast?.map fun c => c.ended + settings.retryInterval.nanos).getD 0)
  /-- a service that is not ready fails a mandatory run and skips any other -/
  unmet : ∀ a, v.server = .error a → ∃ message,
    a = if settings.mandatory then .fatal message else .skip message
  /-- mandatory runs log each attempt that failed of itself -/
  logs : v.logs =
    if settings.mandatory then (v.dials.filterMap ownError?).map ("connect() error:\n" ++ ·)
    else []
  /-- all this comes to the case that asked -/
  told : ∀ s, Case.runBody s v.steps = ({ s with logs := s.logs ++ v.logs },
    match v.server with
    | .ok _ => none
    | .error a => some (.abort a))

section Judged

variable {settings net t}

theorem unmet_eq (message : String) : ∃ full, unmet settings message =
    if settings.mandatory then .fatal full else .skip full := by
  unfold unmet
  cases settings.mandatory <;> exact ⟨_, rfl⟩

theorem runBody_logs (s : Case.State) (logs : List String) (rest : List Case.Step) :
    Case.runBody s (logs.map .log ++ rest) =
      Case.runBody { s with logs := s.logs ++ logs } rest := by
  induction logs generalizing s with
  | nil => simp
  | cons message logs ih =>
    have h := ih (s.log message)
    simp only [Case.State.log, List.append_assoc, List.singleton_append] at h
    exact h

theorem runBody_steps (s : Case.State) (v : Verdict) :
    Case.runBody s v.steps = ({ s with logs := s.logs ++ v.logs },
      match v.server with
      | .ok _ => none
      | .error a => some (.abort a)) := by
  rw [Verdict.steps, runBody_logs]
  cases v.server <;> rfl

/-- The verdict when no candidate resolves in time. -/
theorem judged_undialled {rounds : Nat} {e : Ended String String}
    (h : (resolution settings t).run (t.lookupAttempt net) rounds = some e)
    (hnone : ∀ i, ¬ t.Resolves settings net i) (hlength : e.calls.length = t.candidates.length)
    (message : String) : t.Judged settings net (.undialled e.calls (unmet settings message)) where
  lookups :=
    (((resolution settings t).run_within_bounds (t.lookupAttempt net)).atEnd rounds e h).1
  upTo i hi := absurd hi.1 (hnone i)
  all _ := hlength
  dialled server := by
    constructor
    · intro h
      cases h
    · rintro ⟨i, host, hfirst, -⟩
      exact absurd hfirst.1 (hnone i)
  dials := nofun
  undialled _ := rfl
  ready server := by
    constructor
    · intro h
      cases h
    · rintro ⟨h, -⟩
      cases h
  persistent := nofun
  unmet a ha := by
    cases ha
    exact unmet_eq message
  logs := by simp [Verdict.undialled]
  told s := runBody_steps s _

theorem connection_inTime_iff {started : Nat} {a : Attempt String Unit} :
    (connection settings).InTime started a ↔
      started + a.delay.nanos ≤ settings.connectDeadline.nanos := by
  simp [Retry.InTime, Retry.Limit, connection]

/-- Dialling ends well just when an attempt succeeds before the deadline. -/
theorem connection_ok_iff {server : String} {rounds : Nat} {e : Ended String Unit}
    (h : (connection settings).run (net.dial server) rounds = some e) :
    e.result = .ok () ↔ ∃ c ∈ e.calls, c.started < settings.connectDeadline.nanos ∧
      c.started + (net.dial server c.number).delay.nanos ≤ settings.connectDeadline.nanos ∧
      (net.dial server c.number).outcome = .ok () := by
  obtain ⟨horderly, htruthful⟩ :=
    ((connection settings).run_within_bounds (net.dial server)).atEnd rounds e h
  constructor
  · intro hok
    obtain ⟨earlier, last, hcalls, hin, hsuccess, -⟩ := htruthful.value () hok
    have hlast : last ∈ e.calls := hcalls ▸ List.mem_append_right _ List.mem_cons_self
    exact ⟨last, hlast, horderly.early last hlast _ rfl, connection_inTime_iff.mp hin, hsuccess⟩
  · rintro ⟨c, hc, -, hin, hsuccess⟩
    have hok := (horderly.tells c hc).result_ok_iff.mpr ⟨connection_inTime_iff.mpr hin, hsuccess⟩
    rcases hresult : e.result with x | value
    · obtain ⟨err, hfailed⟩ := htruthful.failed x hresult c hc
      cases hok.symm.trans hfailed
    · rfl

/-- A server that is given up has been dialled until the deadline. -/
theorem connection_persistent {server : String} {rounds : Nat} {e : Ended String Unit}
    (h : (connection settings).run (net.dial server) rounds = some e)
    {x : Exhausted String} (hresult : e.result = .error x) :
    settings.connectDeadline.nanos ≤
      ((e.calls.getLast?.map fun c => c.ended + settings.retryInterval.nanos).getD 0) := by
  have htruthful := (((connection settings).run_within_bounds (net.dial server)).atEnd rounds e h).2
  rcases htruthful.bounded x hresult with ⟨m, hm, -⟩ | ⟨d, hd, hle⟩
  · cases hm
  · cases hd
    rw [htruthful.elapsed x hresult] at hle
    exact hle

/-- The verdict once a candidate has resolved and its server was dialled. -/
theorem judged_connected {rounds more : Nat} {e : Ended String String}
    (h : (resolution settings t).run (t.lookupAttempt net) rounds = some e) {i : Nat}
    {host : String} (hfirst : t.First settings net i) (hhost : t.candidates[i]? = some host)
    (hlength : e.calls.length = i + 1) {ended : Ended String Unit}
    (hrun : (connection settings).run (net.dial (joinHostPort host t.port)) more = some ended) :
    t.Judged settings net (t.connected settings e.calls (joinHostPort host t.port) ended) where
  lookups :=
    (((resolution settings t).run_within_bounds (t.lookupAttempt net)).atEnd rounds e h).1
  upTo j hj := hfirst.unique hj ▸ hlength
  all hnone := absurd hfirst.1 (hnone i)
  dialled server := by
    constructor
    · intro h
      cases h
      exact ⟨i, host, hfirst, hhost, rfl⟩
    · rintro ⟨j, other, hj, hother, hserver⟩
      cases hfirst.unique hj
      cases hhost.symm.trans hother
      exact congrArg some hserver.symm
  dials server h := by
    cases h
    exact (((connection settings).run_within_bounds _).atEnd more ended hrun).1
  undialled := nofun
  ready server := by
    have hok := connection_ok_iff hrun
    rcases hresult : ended.result with x | value
    · simp only [hresult, reduceCtorEq, false_iff] at hok
      simp only [connected, hresult, reduceCtorEq, false_iff]
      rintro ⟨hserver, hsuccess⟩
      cases hserver
      exact hok hsuccess
    · simp only [hresult, true_iff] at hok
      simp only [connected, hresult]
      constructor
      · intro h
        cases h
        exact ⟨rfl, hok⟩
      · rintro ⟨h, -⟩
        cases h
        rfl
  persistent server _ herror := by
    rcases hresult : ended.result with x | value
    · exact connection_persistent hrun hresult
    · obtain ⟨a, ha⟩ := herror
      simp only [connected, hresult, reduceCtorEq] at ha
  unmet a ha := by
    rcases hresult : ended.result with x | value
    · simp only [connected, hresult, Except.error.injEq] at ha
      exact ha ▸ unmet_eq _
    · simp only [connected, hresult, reduceCtorEq] at ha
  logs := connectLogs_eq settings ended.calls
  told s := runBody_steps s _

end Judged

/-- Time passes when attempts to reach a server go on: with the pauses after them they last past any
instant. -/
def TimePasses (server : String) : Prop :=
  ∀ instant, ∃ n, instant ≤ (connection settings).span (net.dial server) n

/-- What a check does, whatever the network does. -/
structure Checked : Prop where
  /-- in short mode it looks nothing up and skips -/
  short : settings.short = true → ∀ rounds, ∃ v reason, t.check settings net rounds = some v ∧
    v.lookups = [] ∧ v.dialled = none ∧ v.dials = [] ∧ v.logs = [] ∧
    v.server = .error (.skip reason)
  judged : settings.short = false → ∀ rounds v, t.check settings net rounds = some v →
    t.Judged settings net v
  /-- the verdict does not depend on the rounds it takes to reach it -/
  once : ∀ few many v, t.check settings net few = some v → few ≤ many →
    t.check settings net many = some v
  /-- and there is one, as time passes -/
  ends : (∀ host ∈ t.candidates, TimePasses settings net (joinHostPort host t.port)) →
    ∃ rounds v, t.check settings net rounds = some v
  /-- a pause between attempts is enough for that -/
  paused : 0 < settings.retryInterval.nanos → ∃ rounds v, t.check settings net rounds = some v

theorem timePasses_of_pause (h : 0 < settings.retryInterval.nanos) (server : String) :
    TimePasses settings net server := by
  intro instant
  refine ⟨instant, ?_⟩
  calc instant ≤ ∑ _k ∈ Finset.range instant, 1 := by simp
    _ ≤ (connection settings).span (net.dial server) instant :=
      Finset.sum_le_sum fun k _ => Nat.le_add_left_of_le h

section Check

variable {settings net t}

/-- Without short mode the verdict is found after the look-ups, and these end. -/
theorem check_eq_resolved (net : Network) (t : Target) (h : settings.short = false) :
    ∃ e, (resolution settings t).run (t.lookupAttempt net) (t.candidates.length + 1) = some e ∧
      ∀ rounds, t.check settings net rounds = t.resolved settings net rounds e := by
  obtain ⟨e, he⟩ := t.resolution_ends settings net
  exact ⟨e, he, fun rounds => by simp [check, h, he]⟩

theorem resolved_of_ok {e : Ended String String} {host : String} (h : e.result = .ok host)
    (rounds : Nat) : t.resolved settings net rounds e =
      ((connection settings).run (net.dial (joinHostPort host t.port)) rounds).map
        (t.connected settings e.calls (joinHostPort host t.port)) := by
  simp [resolved, h]

theorem resolved_of_error {e : Ended String String} {x : Exhausted String}
    (h : e.result = .error x) (rounds : Nat) : t.resolved settings net rounds e =
      some (.undialled e.calls (unmet settings (t.name ++ " cannot be resolved"))) := by
  simp [resolved, h]

/-- There is a verdict as soon as time passes. -/
theorem exists_verdict
    (h : ∀ host ∈ t.candidates, TimePasses settings net (joinHostPort host t.port)) :
    ∃ rounds v, t.check settings net rounds = some v := by
  rcases hshort : settings.short with _ | _
  · obtain ⟨e, he, hcheck⟩ := t.check_eq_resolved net hshort
    rcases hresult : e.result with x | host
    · exact ⟨0, _, by rw [hcheck, resolved_of_error hresult]⟩
    · obtain ⟨i, -, hhost, -⟩ := resolution_of_ok he hresult
      obtain ⟨n, hn⟩ := h host (List.mem_of_getElem? hhost) settings.connectDeadline.nanos
      obtain ⟨ended, hrun⟩ := Retry.exists_run_of_span rfl rfl rfl hn
      exact ⟨n + 1, _, by rw [hcheck, resolved_of_ok hresult, hrun]; rfl⟩
  · exact ⟨0, .undialled [] t.shortSkip, by simp [check, hshort]⟩

end Check

/-- A check looks candidates up in order until one resolves in time, dials the server of that one
alone until it answers or the deadline is past, and tells its case what came of it. -/
theorem check_judges : t.Checked settings net where
  short hshort rounds :=
    ⟨.undialled [] t.shortSkip, _, by simp [check, hshort], rfl, rfl, rfl, rfl, rfl⟩
  judged hshort rounds v hv := by
    obtain ⟨e, he, hcheck⟩ := t.check_eq_resolved net hshort
    rw [hcheck] at hv
    rcases hresult : e.result with x | host
    · obtain ⟨hnone, hlength⟩ := resolution_of_error he hresult
      rw [resolved_of_error hresult] at hv
      cases hv
      exact judged_undialled he hnone hlength _
    · obtain ⟨i, hfirst, hhost, hlength⟩ := resolution_of_ok he hresult
      rw [resolved_of_ok hresult, Option.map_eq_some_iff] at hv
      obtain ⟨ended, hrun, rfl⟩ := hv
      exact judged_connected he hfirst hhost hlength hrun
  once few many v hv hle := by
    rcases hshort : settings.short with _ | _
    · obtain ⟨e, he, hcheck⟩ := t.check_eq_resolved net hshort
      rw [hcheck] at hv ⊢
      rcases hresult : e.result with x | host
      · rw [resolved_of_error hresult] at hv ⊢
        exact hv
      · rw [resolved_of_ok hresult, Option.map_eq_some_iff] at hv ⊢
        obtain ⟨ended, hrun, rfl⟩ := hv
        exact ⟨ended, Retry.run_mono _ _ hrun hle, rfl⟩
    · simpa [check, hshort] using hv
  ends := exists_verdict
  paused hpause := exists_verdict fun _ _ => timePasses_of_pause settings net hpause _

end TestBench.Service.Target
