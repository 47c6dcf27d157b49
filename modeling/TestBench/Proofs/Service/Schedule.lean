import Mathlib.Algebra.Order.Floor.Div
import Mathlib.Data.List.Range
import Mathlib.Order.Bounds.Basic
import TestBench.Service.Retry

/-! When attempts are made and what becomes of each of them. One round adds one call behind those
made before; from that the bounds of a loop hold of all its calls, also while it still goes on. -/
namespace TestBench.Service.Retry

variable {ε α : Type}

/-- An instant by which an attempt that starts then has to be over. -/
def Limit (r : Retry) (started b : Nat) : Prop :=
  (∃ t, r.attemptTimeout = some t ∧ b = started + t.nanos) ∨
    ∃ d, r.deadline = some d ∧ b = d.nanos

theorem bound_eq_none {r : Retry} {started : Nat} (h : r.bound started = none) (b : Nat) :
    ¬ r.Limit started b := by
  unfold bound at h
  rintro (⟨t, ht, -⟩ | ⟨d, hd, -⟩)
  · cases hd : r.deadline <;> simp [ht, hd] at h
  · cases ht : r.attemptTimeout <;> simp [ht, hd] at h

/-- The bound of an attempt is the first of its limits. -/
theorem bound_isLeast {r : Retry} {started b : Nat} (h : r.bound started = some b) :
    IsLeast {b | r.Limit started b} b := by
  unfold bound at h
  rcases ht : r.attemptTimeout with _ | t <;> rcases hd : r.deadline with _ | d <;>
    simp only [ht, hd, Option.some.injEq, reduceCtorEq] at h <;> subst h
  · refine ⟨.inr ⟨d, hd, rfl⟩, ?_⟩
    rintro x (⟨t, ht', rfl⟩ | ⟨d', hd', rfl⟩)
    · cases ht.symm.trans ht'
    · cases hd.symm.trans hd'
      exact le_rfl
  · refine ⟨.inl ⟨t, ht, rfl⟩, ?_⟩
    rintro x (⟨t', ht', rfl⟩ | ⟨d, hd', rfl⟩)
    · cases ht.symm.trans ht'
      exact le_rfl
    · cases hd.symm.trans hd'
  · constructor
    · rcases le_total (started + t.nanos) d.nanos with hle | hle
      · exact .inl ⟨t, ht, min_eq_left hle⟩
      · exact .inr ⟨d, hd, min_eq_right hle⟩
    · rintro x (⟨t', ht', rfl⟩ | ⟨d', hd', rfl⟩)
      · cases ht.symm.trans ht'
        exact min_le_left _ _
      · cases hd.symm.trans hd'
        exact min_le_right _ _

/-- Whether an attempt that starts then is over by all its limits. -/
def InTime (r : Retry) (started : Nat) (a : Attempt ε α) : Prop :=
  ∀ b, r.Limit started b → started + a.delay.nanos ≤ b

/-- An attempt that is over in time goes as it does without limits; any other is cut off at its
first limit, and tells how long it had. -/
theorem call_cases (r : Retry) (number started : Nat) (a : Attempt ε α) :
    (r.InTime started a ∧ r.call number started a =
      ⟨number, started, started + a.delay.nanos, a.outcome.mapError .failed⟩) ∨
    ∃ b, IsLeast {b | r.Limit started b} b ∧ b < started + a.delay.nanos ∧
      r.call number started a = ⟨number, started, b, .error (.timedOut ⟨b - started⟩)⟩ := by
  rcases hb : r.bound started with _ | b
  · exact .inl ⟨fun b hlimit => absurd hlimit (bound_eq_none hb b), by simp [call, hb]⟩
  · have hleast := bound_isLeast hb
    by_cases hle : started + a.delay.nanos ≤ b
    · exact .inl ⟨fun x hx => hle.trans (hleast.2 hx), by simp [call, hb, hle]⟩
    · exact .inr ⟨b, hleast, by omega, by simp [call, hb, hle]⟩

/-- What a call says of the attempt that was made. -/
structure Tells (r : Retry) (a : Attempt ε α) (c : Call ε α) : Prop where
  /-- one that is over in time keeps its outcome -/
  whole : r.InTime c.started a →
    c.ended = c.started + a.delay.nanos ∧ c.result = a.outcome.mapError .failed
  /-- any other has timed out at its first limit -/
  cut : ¬ r.InTime c.started a → ∃ b, IsLeast {b | r.Limit c.started b} b ∧
    c.ended = b ∧ c.result = .error (.timedOut ⟨b - c.started⟩)
  forward : c.started ≤ c.ended
  within : ∀ b, r.Limit c.started b → c.ended ≤ b

/-- No attempt starts past a limit of its own. -/
theorem started_le_limit {r : Retry} {started b : Nat} (h : r.outOfTime started = false)
    (hb : r.Limit started b) : started ≤ b := by
  rcases hb with ⟨t, -, rfl⟩ | ⟨d, hd, rfl⟩
  · omega
  · simp only [outOfTime, hd, decide_eq_false_iff_not] at h
    omega

theorem call_tells {r : Retry} {started : Nat} (h : r.outOfTime started = false) (number : Nat)
    (a : Attempt ε α) : r.Tells a (r.call number started a) := by
  rcases r.call_cases number started a with ⟨hin, hcall⟩ | ⟨b, hleast, hlt, hcall⟩ <;> rw [hcall]
  · exact ⟨fun _ => ⟨rfl, rfl⟩, fun hout => absurd hin hout, Nat.le_add_right _ _, hin⟩
  · exact ⟨fun hin => absurd (hin b hleast.1) (not_le.mpr hlt), fun _ => ⟨b, hleast, rfl, rfl⟩,
      started_le_limit h hleast.1, fun _ hx => hleast.2 hx⟩

theorem call_numbered (r : Retry) (number started : Nat) (a : Attempt ε α) :
    (r.call number started a).number = number ∧ (r.call number started a).started = started := by
  rcases r.call_cases number started a with ⟨-, hcall⟩ | ⟨b, -, -, hcall⟩ <;>
    rw [hcall] <;> exact ⟨rfl, rfl⟩

section Round

variable (r : Retry) (script : Nat → Attempt ε α)

/-- The call that the next round makes. -/
def nextCall (p : Progress ε α) : Call ε α :=
  r.call p.calls.length p.now (script p.calls.length)

/-- Whether the next round makes a call at all. -/
def Open (p : Progress ε α) : Prop :=
  r.outOfAttempts p.calls.length = false ∧ r.outOfTime p.now = false

/-- All that a round can do: it ends the loop at a bound, or makes one call, which ends the loop
with its value or leaves it with one more error. -/
theorem step_cases (p : Progress ε α) :
    (¬ r.Open p ∧ r.step script p = .inl ⟨.error (exhausted p), p.now, p.calls.reverse⟩) ∨
    (r.Open p ∧ ∃ value, (r.nextCall script p).result = .ok value ∧ r.step script p =
      .inl ⟨.ok value, (r.nextCall script p).ended, p.calls.reverse ++ [r.nextCall script p]⟩) ∨
    (r.Open p ∧ ∃ e, (r.nextCall script p).result = .error e ∧ r.step script p =
      .inr ⟨(r.nextCall script p).ended + r.pause (p.calls.length + 1),
        r.nextCall script p :: p.calls⟩) := by
  by_cases hopen : r.Open p
  · have hgo : (r.outOfAttempts p.calls.length || r.outOfTime p.now) = false := by
      rw [hopen.1, hopen.2]
      rfl
    refine .inr ?_
    rcases hresult : (r.nextCall script p).result with e | value
    · refine .inr ⟨hopen, e, rfl, ?_⟩
      simp only [nextCall] at hresult
      simp [step, hgo, hresult, nextCall]
    · refine .inl ⟨hopen, value, rfl, ?_⟩
      simp only [nextCall] at hresult
      simp [step, hgo, hresult, nextCall]
  · refine .inl ⟨hopen, ?_⟩
    have hstop : (r.outOfAttempts p.calls.length || r.outOfTime p.now) = true := by
      simpa [Open, Bool.or_eq_true, or_iff_not_imp_left] using hopen
    simp [step, hstop]

/-- A loop goes on only after one more call that failed. -/
theorem of_step_inr {p q : Progress ε α} (h : r.step script p = .inr q) :
    r.Open p ∧ (∃ e, (r.nextCall script p).result = .error e) ∧
      q = ⟨(r.nextCall script p).ended + r.pause (p.calls.length + 1),
        r.nextCall script p :: p.calls⟩ := by
  rcases r.step_cases script p with ⟨-, hs⟩ | ⟨-, value, -, hs⟩ | ⟨hopen, e, hresult, hs⟩ <;>
    cases h.symm.trans hs
  exact ⟨hopen, ⟨e, hresult⟩, rfl⟩

/-- The states between two rounds of a loop. -/
inductive Reached : Progress ε α → Prop where
  | start : Reached ⟨0, []⟩
  | round {p q : Progress ε α} : Reached p → r.step script p = .inr q → Reached q

theorem runFrom_cases {p : Progress ε α} (hp : r.Reached script p) (rounds : Nat) :
    (∃ q e, r.Reached script q ∧ r.step script q = .inl e ∧
      r.runFrom script rounds p = some e) ∨
    ∃ q, r.Reached script q ∧ q.calls.length = p.calls.length + rounds ∧
      r.runFrom script rounds p = none := by
  induction rounds generalizing p with
  | zero => exact .inr ⟨p, hp, rfl, rfl⟩
  | succ rounds ih =>
    rw [runFrom]
    rcases hstep : r.step script p with e | q
    · exact .inl ⟨p, e, hp, hstep, rfl⟩
    · have hlength : q.calls.length = p.calls.length + 1 := by
        rw [(r.of_step_inr script hstep).2.2]
        rfl
      rcases ih (.round hp hstep) with hend | ⟨q', hq', hmore, hnone⟩
      · exact .inl hend
      · exact .inr ⟨q', hq', by omega, hnone⟩

/-- A loop has ended after that many rounds, or it has made as many calls. -/
theorem run_cases (rounds : Nat) :
    (∃ p e, r.Reached script p ∧ r.step script p = .inl e ∧ r.run script rounds = some e) ∨
    ∃ p, r.Reached script p ∧ p.calls.length = rounds ∧ r.run script rounds = none := by
  have h := r.runFrom_cases script .start rounds
  rwa [List.length_nil, Nat.zero_add] at h

theorem runFrom_mono {p : Progress ε α} {few many : Nat} {e : Ended ε α}
    (h : r.runFrom script few p = some e) (hle : few ≤ many) :
    r.runFrom script many p = some e := by
  induction few generalizing p many with
  | zero => cases h
  | succ few ih =>
    obtain ⟨many, rfl⟩ := Nat.exists_eq_add_of_le' (Nat.one_le_of_lt hle)
    rw [runFrom] at h ⊢
    rcases hstep : r.step script p with e' | q
    · rwa [hstep] at h
    · rw [hstep] at h
      exact ih h (by omega)

/-- More rounds do not change how a loop ends. -/
theorem run_mono {few many : Nat} {e : Ended ε α} (h : r.run script few = some e)
    (hle : few ≤ many) : r.run script many = some e :=
  r.runFrom_mono script h hle

end Round

end TestBench.Service.Retry
