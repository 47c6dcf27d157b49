import TestBench.Proofs.Service.Retrying

/-! How far a deadline bounds a whole loop. Every call is over by then; the pause after the last one
that failed is not cut short, and is all by which a loop can outlast its deadline. -/
namespace TestBench.Service.Retry

variable {ε α : Type} {r : Retry} {script : Nat → Attempt ε α} {d : Span} {e : Ended ε α}

theorem Orderly.ended_le_deadline {calls : List (Call ε α)} (h : r.Orderly script calls)
    (hd : r.deadline = some d) : ∀ c ∈ calls, c.ended ≤ d.nanos :=
  fun c hc => (h.tells c hc).within d.nanos (.inr ⟨d, hd, rfl⟩)

theorem pause_le_interval (made : Nat) : r.pause made ≤ r.interval.nanos := by
  rw [pause]
  split
  · exact Nat.zero_le _
  · exact le_rfl

/-- Whether a loop has given up only after a pause that its deadline fell into. -/
def Overslept (r : Retry) (d : Span) (e : Ended ε α) : Prop :=
  ∃ x last, e.result = .error x ∧ e.calls.getLast? = some last ∧
    (∀ m, r.maxAttempts = some m → e.calls.length < m) ∧
    d.nanos < last.ended + r.interval.nanos

/-- The time of a loop without a value is that of its last call and the pause after it. -/
theorem Truthful.elapsed_cases (h : r.Truthful script e) {x : Exhausted ε}
    (hx : e.result = .error x) :
    e.calls = [] ∧ e.elapsed = 0 ∨
      ∃ last ∈ e.calls, e.calls.getLast? = some last ∧
        e.elapsed = last.ended + r.pause e.calls.length := by
  have helapsed := h.elapsed x hx
  rcases hlast : e.calls.getLast? with _ | last
  · rw [hlast] at helapsed
    exact .inl ⟨List.getLast?_eq_none_iff.mp hlast, helapsed⟩
  · rw [hlast] at helapsed
    exact .inr ⟨last, List.mem_of_getLast? hlast, rfl, helapsed⟩

/-- A pause that begins by the deadline and ends past it has been made in full, since no bound on
the number of attempts has been reached. -/
theorem lt_add_pause_iff {made ended : Nat} (hended : ended ≤ d.nanos) :
    d.nanos < ended + r.pause made ↔
      (∀ m, r.maxAttempts = some m → made < m) ∧ d.nanos < ended + r.interval.nanos := by
  rcases hout : r.outOfAttempts made with _ | _
  · have hfew : ∀ m, r.maxAttempts = some m → made < m := fun m hm =>
      not_le.mp fun hle => Bool.eq_false_iff.mp hout (outOfAttempts_iff.mpr ⟨m, hm, hle⟩)
    rw [pause, hout]
    exact (and_iff_right hfew).symm
  · obtain ⟨m, hm, hle⟩ := outOfAttempts_iff.mp hout
    rw [pause, hout]
    exact iff_of_false (not_lt.mpr hended) fun h => absurd (h.1 m hm) (not_lt.mpr hle)

theorem Truthful.deadline_lt_elapsed_iff (h : r.Truthful script e)
    (horderly : r.Orderly script e.calls) (hd : r.deadline = some d) :
    d.nanos < e.elapsed ↔ r.Overslept d e := by
  have hended := horderly.ended_le_deadline hd
  rcases hresult : e.result with x | value
  · rcases h.elapsed_cases hresult with ⟨hnone, hzero⟩ | ⟨last, hmem, hlast, helapsed⟩
    · simp [Overslept, hnone, hzero]
    · rw [helapsed, lt_add_pause_iff (hended last hmem)]
      simp [Overslept, hresult, hlast]
  · obtain ⟨earlier, last, hcalls, -, -, helapsed⟩ := h.value value hresult
    have hlast := hended last (by simp [hcalls])
    simpa [Overslept, hresult, helapsed] using hlast

theorem Truthful.elapsed_le (h : r.Truthful script e) (horderly : r.Orderly script e.calls)
    (hd : r.deadline = some d) : e.elapsed ≤ d.nanos + r.interval.nanos := by
  have hended := horderly.ended_le_deadline hd
  rcases hresult : e.result with x | value
  · rcases h.elapsed_cases hresult with ⟨-, hzero⟩ | ⟨last, hmem, -, helapsed⟩
    · omega
    · have hlast := hended last hmem
      have hpause := r.pause_le_interval e.calls.length
      omega
  · obtain ⟨earlier, last, hcalls, -, -, helapsed⟩ := h.value value hresult
    have hlast := hended last (by simp [hcalls])
    omega

/-- A loop is over by its deadline unless its last pause goes on past it. No call does, so that the
loop never lasts longer than its deadline and one pause. -/
theorem run_in_time_iff {rounds : Nat} (hd : r.deadline = some d)
    (hrun : r.run script rounds = some e) :
    (e.elapsed ≤ d.nanos ↔ ¬ r.Overslept d e) ∧ (∀ c ∈ e.calls, c.ended ≤ d.nanos) ∧
      e.elapsed ≤ d.nanos + r.interval.nanos := by
  rcases r.run_cases script rounds with ⟨p, e', hp, hstep, hsome⟩ | ⟨p, -, -, hnone⟩
  · cases hrun.symm.trans hsome
    obtain ⟨horderly, htruthful⟩ := hp.sound.ended hstep
    rw [← htruthful.deadline_lt_elapsed_iff horderly hd, not_lt]
    exact ⟨Iff.rfl, horderly.ended_le_deadline hd, htruthful.elapsed_le horderly hd⟩
  · cases hrun.symm.trans hnone

/-- The third attempt is cut off at the deadline, and the pause after it is made in full. -/
theorem run_in_time_iff_cut_off :
    let r : Retry := ⟨some ⟨10⟩, some ⟨22⟩, ⟨3⟩, some 4⟩
    let script (n : Nat) : Attempt String Unit := ⟨⟨2 + 9 * n⟩, .error "refused"⟩
    let e : Ended String Unit := ⟨.error ⟨3, some (.timedOut ⟨4⟩)⟩, 25,
      [⟨0, 0, 2, .error (.failed "refused")⟩, ⟨1, 5, 15, .error (.timedOut ⟨10⟩)⟩,
        ⟨2, 18, 22, .error (.timedOut ⟨4⟩)⟩]⟩
    r.deadline = some ⟨22⟩ ∧ r.run script 4 = some e ∧
      (e.elapsed ≤ 22 ↔ ¬ r.Overslept ⟨22⟩ e) ∧ (∀ c ∈ e.calls, c.ended ≤ 22) ∧
      e.elapsed ≤ 22 + 3 := by
  intro r script e
  have hrun : r.run script 4 = some e := rfl
  exact ⟨rfl, hrun, run_in_time_iff rfl hrun⟩

/-- A loop that sleeps from the fifth to the tenth unit of time has a deadline at the ninth. -/
theorem pause_outlasts_deadline :
    let r : Retry := ⟨none, some ⟨9⟩, ⟨5⟩, none⟩
    let script (_ : Nat) : Attempt String Unit := ⟨⟨0⟩, .error "refused"⟩
    ∃ e, r.run script 3 = some e ∧ ¬ e.elapsed ≤ 9 :=
  ⟨_, rfl, by decide⟩

end TestBench.Service.Retry
