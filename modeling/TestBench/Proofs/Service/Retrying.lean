import Mathlib.Algebra.BigOperators.Group.Finset.Basic
import TestBench.Proofs.Service.Schedule

/-! The bounds of a loop of attempts, and its report: numbers and times of all calls that it makes,
how many these can be, and that it ends with the first success or with the last error. -/
namespace TestBench.Service.Retry

variable {ε α : Type}

theorem outOfAttempts_iff {r : Retry} {made : Nat} :
    r.outOfAttempts made = true ↔ ∃ m, r.maxAttempts = some m ∧ m ≤ made := by
  cases h : r.maxAttempts <;> simp [outOfAttempts, h]

theorem outOfTime_iff {r : Retry} {now : Nat} :
    r.outOfTime now = true ↔ ∃ d, r.deadline = some d ∧ d.nanos ≤ now := by
  cases h : r.deadline <;> simp [outOfTime, h]

theorem Open.length_lt {r : Retry} {p : Progress ε α} (h : r.Open p) {m : Nat}
    (hm : r.maxAttempts = some m) : p.calls.length < m := by
  by_contra hle
  exact Bool.eq_false_iff.mp h.1 (outOfAttempts_iff.mpr ⟨m, hm, not_lt.mp hle⟩)

theorem Open.now_lt {r : Retry} {p : Progress ε α} (h : r.Open p) {d : Span}
    (hd : r.deadline = some d) : p.now < d.nanos := by
  by_contra hle
  exact Bool.eq_false_iff.mp h.2 (outOfTime_iff.mpr ⟨d, hd, not_lt.mp hle⟩)

/-- A call has a value just when its attempt came to that value in time. -/
theorem Tells.result_ok_iff {r : Retry} {a : Attempt ε α} {c : Call ε α} (h : r.Tells a c)
    {value : α} : c.result = .ok value ↔ r.InTime c.started a ∧ a.outcome = .ok value := by
  by_cases hin : r.InTime c.started a
  · rw [(h.whole hin).2]
    cases a.outcome <;> simp [Except.mapError, hin]
  · obtain ⟨b, -, -, hresult⟩ := h.cut hin
    simp [hresult, hin]

/-- Calls that keep a pause between them, the first one first. -/
abbrev Apart (r : Retry) (calls : List (Call ε α)) : Prop :=
  calls.Pairwise fun earlier later => earlier.ended + r.interval.nanos ≤ later.started

/-- The last of some calls has all pauses before it. -/
theorem pauses_le_started {r : Retry} {calls : List (Call ε α)} {last : Call ε α}
    (h : r.Apart (calls ++ [last])) (hforward : ∀ c ∈ calls, c.started ≤ c.ended) :
    r.interval.nanos * calls.length ≤ last.started := by
  induction calls using List.reverseRecOn generalizing last with
  | nil => simp
  | append_singleton calls c ih =>
    have hparts := List.pairwise_append.mp h
    have hbefore := ih hparts.1 fun a ha => hforward a (List.mem_append_left _ ha)
    have hmem : c ∈ calls ++ [c] := List.mem_append_right _ List.mem_cons_self
    have hpause := hparts.2.2 c hmem last List.mem_cons_self
    have hc := hforward c hmem
    rw [List.length_append, List.length_singleton, Nat.mul_add]
    omega

/-- Calls that all start before an instant are no more than the pauses that begin before it. -/
theorem length_le_ceilDiv {r : Retry} {calls : List (Call ε α)} {last : Call ε α} {instant : Nat}
    (h : r.Apart (calls ++ [last])) (hforward : ∀ c ∈ calls, c.started ≤ c.ended)
    (hpositive : 0 < r.interval.nanos) (hlast : last.started < instant) :
    (calls ++ [last]).length ≤ instant ⌈/⌉ r.interval.nanos := by
  rw [List.length_append, List.length_singleton, Nat.succ_le_iff]
  by_contra hle
  have hceil := (ceilDiv_le_iff_le_smul hpositive).mp (not_lt.mp hle)
  have hpauses := pauses_le_started h hforward
  rw [smul_eq_mul] at hceil
  omega

/-- What holds of the calls that a loop makes, the first one first. -/
structure Orderly (r : Retry) (script : Nat → Attempt ε α) (calls : List (Call ε α)) :
    Prop where
  /-- they are numbered from zero, without gaps -/
  numbered : calls.map Call.number = List.range calls.length
  tells : ∀ c ∈ calls, r.Tells (script c.number) c
  early : ∀ c ∈ calls, ∀ d, r.deadline = some d → c.started < d.nanos
  /-- none starts before a pause after all earlier ones is over -/
  apart : r.Apart calls
  /-- only the last can have succeeded -/
  failed : ∀ c ∈ calls.dropLast, ∃ e, c.result = .error e
  few : ∀ m, r.maxAttempts = some m → calls.length ≤ m
  spread : ∀ d, r.deadline = some d → 0 < r.interval.nanos →
    calls.length ≤ d.nanos ⌈/⌉ r.interval.nanos

theorem Orderly.exists_number {r : Retry} {script : Nat → Attempt ε α} {calls : List (Call ε α)}
    (h : r.Orderly script calls) {i : Nat} (hi : i < calls.length) : ∃ c ∈ calls, c.number = i := by
  rw [← List.mem_range, ← h.numbered] at hi
  exact List.mem_map.mp hi

theorem Orderly.last_number {r : Retry} {script : Nat → Attempt ε α} {earlier : List (Call ε α)}
    {last : Call ε α} (h : r.Orderly script (earlier ++ [last])) :
    last.number = earlier.length := by
  have hnumbered := h.numbered
  rw [List.map_append, List.length_append, List.length_singleton, List.range_succ] at hnumbered
  simpa using (List.append_inj hnumbered (by simp)).2

/-- What holds between two rounds of a loop. -/
structure Sound (r : Retry) (script : Nat → Attempt ε α) (p : Progress ε α) : Prop where
  orderly : r.Orderly script p.calls.reverse
  failed : ∀ c ∈ p.calls, ∃ e, c.result = .error e
  waited : r.outOfAttempts p.calls.length = false →
    ∀ c ∈ p.calls, c.ended + r.interval.nanos ≤ p.now
  clock : p.now = ((p.calls.head?.map fun c => c.ended + r.pause p.calls.length).getD 0)

section Round

variable {r : Retry} {script : Nat → Attempt ε α} {p : Progress ε α}

theorem sound_start : r.Sound script ⟨0, []⟩ where
  orderly :=
    ⟨rfl, by simp, by simp, List.Pairwise.nil, by simp, by simp, by simp⟩
  failed := by simp
  waited := by simp
  clock := rfl

/-- One more call keeps the order. -/
theorem Sound.orderly_next (h : r.Sound script p) (hopen : r.Open p) :
    r.Orderly script (p.calls.reverse ++ [r.nextCall script p]) := by
  obtain ⟨hnumber, hstarted⟩ :=
    r.call_numbered p.calls.length p.now (script p.calls.length)
  have htells : ∀ c ∈ p.calls.reverse ++ [r.nextCall script p], r.Tells (script c.number) c := by
    rw [List.forall_mem_append, List.forall_mem_singleton, nextCall, hnumber]
    exact ⟨h.orderly.tells, call_tells hopen.2 _ _⟩
  have hearly : ∀ c ∈ p.calls.reverse ++ [r.nextCall script p],
      ∀ d, r.deadline = some d → c.started < d.nanos := by
    rw [List.forall_mem_append, List.forall_mem_singleton, nextCall, hstarted]
    exact ⟨h.orderly.early, fun d hd => hopen.now_lt hd⟩
  have hapart : r.Apart (p.calls.reverse ++ [r.nextCall script p]) := by
    refine List.pairwise_append.mpr ⟨h.orderly.apart, List.pairwise_singleton _ _, fun a ha => ?_⟩
    rw [List.forall_mem_singleton, nextCall, hstarted]
    exact h.waited hopen.1 a (List.mem_reverse.mp ha)
  refine ⟨?_, htells, hearly, hapart, ?_, ?_, ?_⟩
  · rw [List.map_append, h.orderly.numbered, List.length_append, List.length_singleton,
      List.range_succ, List.map_singleton, nextCall, hnumber, List.length_reverse]
  · rw [List.dropLast_concat]
    exact fun c hc => h.failed c (List.mem_reverse.mp hc)
  · intro m hm
    rw [List.length_append, List.length_reverse, List.length_singleton]
    exact hopen.length_lt hm
  · intro d hd hpositive
    refine length_le_ceilDiv hapart (fun c hc => ?_) hpositive ?_
    · exact (htells c (List.mem_append_left _ hc)).forward
    · exact hearly _ (List.mem_append_right _ List.mem_cons_self) d hd

theorem Sound.round (h : r.Sound script p) {q : Progress ε α}
    (hstep : r.step script p = .inr q) : r.Sound script q := by
  obtain ⟨hopen, ⟨e, hresult⟩, rfl⟩ := r.of_step_inr script hstep
  have horderly := h.orderly_next hopen
  refine ⟨by simpa using horderly, ?_, ?_, by simp⟩
  · rw [List.forall_mem_cons]
    exact ⟨⟨e, hresult⟩, h.failed⟩
  · intro hout
    have hpause : r.pause (p.calls.length + 1) = r.interval.nanos := by
      rw [List.length_cons] at hout
      rw [pause, hout]
      rfl
    rw [List.forall_mem_cons, hpause]
    refine ⟨le_rfl, fun c hc => ?_⟩
    have hlast : r.nextCall script p ∈ p.calls.reverse ++ [r.nextCall script p] :=
      List.mem_append_right _ List.mem_cons_self
    have hbefore : c.ended + r.interval.nanos ≤ (r.nextCall script p).started :=
      (List.pairwise_append.mp horderly.apart).2.2 c (List.mem_reverse.mpr hc) _
        List.mem_cons_self
    have hforward := (horderly.tells _ hlast).forward
    show c.ended + r.interval.nanos ≤ (r.nextCall script p).ended + r.interval.nanos
    omega

theorem Reached.sound (h : r.Reached script p) : r.Sound script p := by
  induction h with
  | start => exact sound_start
  | round _ hstep ih => exact ih.round hstep

end Round

/-- How a loop ends. -/
structure Truthful (r : Retry) (script : Nat → Attempt ε α) (e : Ended ε α) : Prop where
  /-- with the value of its last call, the only one to succeed in time -/
  value : ∀ v, e.result = .ok v → ∃ earlier last, e.calls = earlier ++ [last] ∧
    r.InTime last.started (script last.number) ∧ (script last.number).outcome = .ok v ∧
    e.elapsed = last.ended
  /-- or without one, when no call has succeeded -/
  failed : ∀ x, e.result = .error x → ∀ c ∈ e.calls, ∃ err, c.result = .error err
  /-- then it tells how many calls there were and the error of the last one -/
  counted : ∀ x, e.result = .error x → x.attempts = e.calls.length ∧
    x.lastError = e.calls.getLast?.bind Call.error? ∧ (x.lastError = none ↔ e.calls = [])
  /-- and it had come to one of its bounds -/
  bounded : ∀ x, e.result = .error x →
    (∃ m, r.maxAttempts = some m ∧ m ≤ e.calls.length) ∨
      ∃ d, r.deadline = some d ∧ d.nanos ≤ e.elapsed
  elapsed : ∀ x, e.result = .error x →
    e.elapsed = (e.calls.getLast?.map fun c => c.ended + r.pause e.calls.length).getD 0

section End

variable {r : Retry} {script : Nat → Attempt ε α} {p : Progress ε α}

theorem exhausted_lastError (h : r.Sound script p) :
    (exhausted p).lastError = none ↔ p.calls.reverse = [] := by
  rcases hcalls : p.calls with _ | ⟨c, rest⟩
  · simp [exhausted, hcalls]
  · obtain ⟨err, herr⟩ := h.failed c (by simp [hcalls])
    simp [exhausted, hcalls, Call.error?, herr]

theorem Sound.ended (h : r.Sound script p) {e : Ended ε α} (hstep : r.step script p = .inl e) :
    r.Orderly script e.calls ∧ r.Truthful script e := by
  rcases r.step_cases script p with ⟨hclosed, hs⟩ | ⟨hopen, value, hresult, hs⟩ | ⟨-, e, -, hs⟩ <;>
    cases hstep.symm.trans hs
  · refine ⟨h.orderly, by simp, ?_, ?_, ?_, ?_⟩
    · exact fun _ _ c hc => h.failed c (List.mem_reverse.mp hc)
    · rintro x hx
      cases hx
      refine ⟨by simp [exhausted], by simp [exhausted], exhausted_lastError h⟩
    · rintro x -
      rw [Open, not_and_or, Bool.not_eq_false, Bool.not_eq_false, outOfAttempts_iff,
        outOfTime_iff] at hclosed
      simpa using hclosed
    · rintro x -
      simpa using h.clock
  · have horderly := h.orderly_next hopen
    have htells := horderly.tells _ (List.mem_append_right _ List.mem_cons_self)
    refine ⟨horderly, ?_, by simp, by simp, by simp, by simp⟩
    rintro v hv
    cases hv
    obtain ⟨hin, hok⟩ := htells.result_ok_iff.mp hresult
    exact ⟨_, _, rfl, hin, hok, rfl⟩

end End

/-- What a loop promises, whatever its bounds are and however its attempts go. -/
structure WithinBounds (r : Retry) (script : Nat → Attempt ε α) : Prop where
  /-- its calls are in order at all times, also if it never ends -/
  always : ∀ p, r.Reached script p → r.Orderly script p.calls.reverse
  atEnd : ∀ rounds e, r.run script rounds = some e →
    r.Orderly script e.calls ∧ r.Truthful script e
  /-- how it ends does not depend on the rounds it is given -/
  once : ∀ few many e, r.run script few = some e → few ≤ many → r.run script many = some e
  /-- with a number of attempts it ends -/
  endsByNumber : ∀ m, r.maxAttempts = some m → ∀ rounds, m < rounds →
    ∃ e, r.run script rounds = some e
  /-- with a deadline and pauses it ends -/
  endsByTime : ∀ d, r.deadline = some d → 0 < r.interval.nanos →
    ∀ rounds, d.nanos ⌈/⌉ r.interval.nanos < rounds → ∃ e, r.run script rounds = some e

/-- A loop that makes fewer calls than it is given rounds ends. -/
theorem exists_run_eq_some {r : Retry} {script : Nat → Attempt ε α} {most rounds : Nat}
    (h : ∀ p, r.Reached script p → p.calls.length ≤ most) (hlt : most < rounds) :
    ∃ e, r.run script rounds = some e := by
  rcases r.run_cases script rounds with ⟨p, e, -, -, hrun⟩ | ⟨p, hp, hlength, -⟩
  · exact ⟨e, hrun⟩
  · have hle := h p hp
    omega

/-- Every loop keeps its bounds and tells truly how its attempts went. -/
theorem run_within_bounds (r : Retry) (script : Nat → Attempt ε α) : r.WithinBounds script where
  always p hp := hp.sound.orderly
  atEnd rounds e hrun := by
    rcases r.run_cases script rounds with ⟨p, e', hp, hstep, hsome⟩ | ⟨p, -, -, hnone⟩
    · cases hrun.symm.trans hsome
      exact hp.sound.ended hstep
    · cases hrun.symm.trans hnone
  once few many e hrun hle := r.run_mono script hrun hle
  endsByNumber m hm rounds hlt := by
    refine exists_run_eq_some (fun p hp => ?_) hlt
    simpa using hp.sound.orderly.few m hm
  endsByTime d hd hpositive rounds hlt := by
    refine exists_run_eq_some (fun p hp => ?_) hlt
    simpa using hp.sound.orderly.spread d hd hpositive

/-- The second attempt is cut off at its own limit and the third one at the deadline; the pause
after that is still made. -/
example :
    let script (n : Nat) : Attempt String Unit := ⟨⟨2 + 9 * n⟩, .error "refused"⟩
    (Retry.mk (some ⟨10⟩) (some ⟨22⟩) ⟨3⟩ none).run script 4 =
      some ⟨.error ⟨3, some (.timedOut ⟨4⟩)⟩, 25,
        [⟨0, 0, 2, .error (.failed "refused")⟩, ⟨1, 5, 15, .error (.timedOut ⟨10⟩)⟩,
          ⟨2, 18, 22, .error (.timedOut ⟨4⟩)⟩]⟩ := rfl

section Time

variable {r : Retry} {script : Nat → Attempt ε α} {d : Span}

/-- The time that so many attempts take with the pauses after them. -/
def span (r : Retry) (script : Nat → Attempt ε α) (n : Nat) : Nat :=
  ∑ k ∈ Finset.range n, ((script k).delay.nanos + r.interval.nanos)

theorem le_ended_nextCall (ht : r.attemptTimeout = none) (hd : r.deadline = some d)
    {p : Progress ε α} (hopen : r.Open p) :
    min d.nanos (p.now + (script p.calls.length).delay.nanos) ≤ (r.nextCall script p).ended := by
  have htells : r.Tells (script p.calls.length) (r.nextCall script p) := call_tells hopen.2 _ _
  have hstarted : (r.nextCall script p).started = p.now := (r.call_numbered _ _ _).2
  by_cases hin : r.InTime (r.nextCall script p).started (script p.calls.length)
  · rw [(htells.whole hin).1, hstarted]
    exact min_le_right _ _
  · obtain ⟨b, hleast, hended, -⟩ := htells.cut hin
    rcases hleast.1 with ⟨t, ht', -⟩ | ⟨d', hd', hb⟩
    · cases ht.symm.trans ht'
    · cases hd.symm.trans hd'
      rw [hended, hb]
      exact min_le_left _ _

/-- Where only a deadline cuts attempts off, all others take their time. -/
theorem Reached.span_le (ht : r.attemptTimeout = none) (hd : r.deadline = some d)
    (hm : r.maxAttempts = none) {p : Progress ε α} (hp : r.Reached script p) :
    min d.nanos (r.span script p.calls.length) ≤ p.now := by
  induction hp with
  | start => simp [span]
  | @round p q hp hstep ih =>
    obtain ⟨hopen, -, rfl⟩ := r.of_step_inr script hstep
    have hpause : r.pause (p.calls.length + 1) = r.interval.nanos := by
      simp [pause, outOfAttempts, hm]
    have hnext : min d.nanos _ ≤ (r.nextCall script p).ended := le_ended_nextCall ht hd hopen
    rw [List.length_cons, hpause, span, Finset.sum_range_succ, ← span]
    show _ ≤ (r.nextCall script p).ended + r.interval.nanos
    omega

/-- Such a loop ends when its attempts and pauses last to the deadline. -/
theorem exists_run_of_span (ht : r.attemptTimeout = none) (hd : r.deadline = some d)
    (hm : r.maxAttempts = none) {n : Nat} (h : d.nanos ≤ r.span script n) :
    ∃ e, r.run script (n + 1) = some e := by
  rcases r.run_cases script (n + 1) with ⟨p, e, -, -, hrun⟩ | ⟨q, hq, hlength, -⟩
  · exact ⟨e, hrun⟩
  · cases hq with
    | start => cases hlength
    | @round p _ hp hstep =>
      obtain ⟨hopen, -, rfl⟩ := r.of_step_inr script hstep
      have hbefore := hp.span_le ht hd hm
      have hnow := hopen.now_lt hd
      obtain rfl : p.calls.length = n := Nat.succ.inj hlength
      omega

end Time

end TestBench.Service.Retry
