import TestBench.Proofs.Number.Shortest

/-! What is rounded to a format is a float of the format. -/
namespace TestBench.Format

variable {f : Format} {num den : ℕ}

/-- A bound of the quotient that is rounded, as a bound of the number itself. -/
theorem le_quotient_iff (hden : 0 < den) (e : ℤ) (p : ℕ) :
    p ≤ num * 2 ^ (-e).toNat / (den * 2 ^ e.toNat) ↔ (p : ℚ) * 2 ^ e ≤ num / den := by
  have hden' : (0 : ℚ) < den := by exact_mod_cast hden
  have hpow : (0 : ℚ) < 2 ^ (-e).toNat := by positivity
  rw [Nat.le_div_iff_mul_le (by positivity), Decimal.zpow_eq_div two_ne_zero, le_div_iff₀ hden',
    ← mul_div_assoc, div_mul_eq_mul_div, div_le_iff₀ hpow, ← Nat.cast_le (α := ℚ)]
  push_cast
  rw [mul_comm (den : ℚ), mul_assoc]

theorem le_roundDiv (n d : ℕ) : n / d ≤ roundDiv n d := by
  unfold roundDiv
  dsimp only
  split_ifs <;> omega

theorem roundDiv_le (n d : ℕ) : roundDiv n d ≤ n / d + 1 := by
  unfold roundDiv
  dsimp only
  split_ifs <;> omega

/-- A quotient lies around the power of two by which the lengths of its parts differ. -/
theorem quotient_bounds (hnum : 0 < num) (hden : 0 < den) :
    (2 : ℚ) ^ ((num.log2 : ℤ) - den.log2 - 1) ≤ num / den ∧
      (num : ℚ) / den < 2 ^ ((num.log2 : ℤ) - den.log2 + 1) := by
  have hdenq : (0 : ℚ) < den := by exact_mod_cast hden
  have hnumlow : (2 : ℚ) ^ (num.log2 : ℤ) ≤ num := by
    exact_mod_cast Nat.log2_self_le hnum.ne'
  have hnumhigh : (num : ℚ) < 2 ^ (num.log2 + 1 : ℤ) := by
    exact_mod_cast Nat.lt_log2_self (n := num)
  have hdenlow : (2 : ℚ) ^ (den.log2 : ℤ) ≤ den := by
    exact_mod_cast Nat.log2_self_le hden.ne'
  have hdenhigh : (den : ℚ) < 2 ^ (den.log2 + 1 : ℤ) := by
    exact_mod_cast Nat.lt_log2_self (n := den)
  rw [le_div_iff₀ hdenq, div_lt_iff₀ hdenq]
  constructor
  · calc (2 : ℚ) ^ ((num.log2 : ℤ) - den.log2 - 1) * den
        ≤ 2 ^ ((num.log2 : ℤ) - den.log2 - 1) * 2 ^ (den.log2 + 1 : ℤ) := by gcongr
      _ = 2 ^ (num.log2 : ℤ) := by
          rw [← zpow_add₀ two_ne_zero]
          congr 1
          ring
      _ ≤ num := hnumlow
  · calc (num : ℚ) < 2 ^ (num.log2 + 1 : ℤ) := hnumhigh
      _ = 2 ^ ((num.log2 : ℤ) - den.log2 + 1) * 2 ^ (den.log2 : ℤ) := by
          rw [← zpow_add₀ two_ne_zero]
          congr 1
          ring
      _ ≤ 2 ^ ((num.log2 : ℤ) - den.log2 + 1) * den := by gcongr

/-- At the exponent chosen the quotient fills the significand, unless that is the least exponent. -/
theorem quotient_scale (hdigits : 0 < f.digits) (hnum : 0 < num) (hden : 0 < den) :
    let e := f.scale num den
    let q := num * 2 ^ (-e).toNat / (den * 2 ^ e.toNat)
    f.least ≤ e ∧ q < 2 ^ f.digits ∧ (2 ^ (f.digits - 1) ≤ q ∨ e = f.least) := by
  intro e q
  obtain ⟨hlow, hhigh⟩ := quotient_bounds hnum hden
  have hpow (n : ℕ) (k : ℤ) : ((2 ^ n : ℕ) : ℚ) * 2 ^ k = 2 ^ (n + k) := by
    rw [Nat.cast_pow, Nat.cast_ofNat, ← zpow_natCast, ← zpow_add₀ two_ne_zero]
  have hle (n : ℕ) (k : ℤ) : 2 ^ n ≤ num * 2 ^ (-k).toNat / (den * 2 ^ k.toNat) ↔
      (2 : ℚ) ^ (n + k) ≤ num / den := by rw [le_quotient_iff hden, hpow]
  -- the exponent by the lengths of the two numbers alone is right or one too small
  obtain ⟨k, hscale, hfull, hless⟩ : ∃ k : ℤ, e = max f.least k ∧
      (2 : ℚ) ^ (f.digits - 1 + k) ≤ num / den ∧ (num : ℚ) / den < 2 ^ (f.digits + k) := by
    by_cases hcarry : 2 ^ f.digits ≤ num * 2 ^ (-(num.log2 - den.log2 - f.digits : ℤ)).toNat /
        (den * 2 ^ (num.log2 - den.log2 - f.digits : ℤ).toNat)
    · refine ⟨num.log2 - den.log2 - f.digits + 1, ?_, ?_, ?_⟩
      · simp only [e, scale, if_pos hcarry]
      · rw [hle] at hcarry
        convert hcarry using 2
        ring
      · convert hhigh using 2
        ring
    · refine ⟨num.log2 - den.log2 - f.digits, ?_, ?_, ?_⟩
      · simp only [e, scale, if_neg hcarry]
      · convert hlow using 2
        ring
      · rw [hle, not_le] at hcarry
        exact hcarry
  refine ⟨hscale ▸ le_max_left _ _, ?_, ?_⟩
  · rw [← not_le, hle, not_le]
    refine hless.trans_le (zpow_le_zpow_right₀ one_le_two ?_)
    have := le_max_right f.least k
    omega
  · rcases le_or_gt f.least k with h | h
    · rw [max_eq_right h] at hscale
      refine .inl ((hle _ _).mpr ?_)
      rw [hscale]
      convert hfull using 2
      omega
    · exact .inr (hscale.trans (max_eq_left h.le))

theorem holds_round (hdigits : 0 < f.digits) (hrange : f.least ≤ f.greatest) (hden : 0 < den)
    (negative : Bool) : f.holds (f.round negative num den) = true := by
  rw [round]
  split
  next hzero => exact holds_finite_iff.mpr ⟨by positivity, le_rfl, hrange, .inr rfl⟩
  next hnum =>
    obtain ⟨hleast, hless, hfull⟩ := quotient_scale hdigits (Nat.pos_of_ne_zero hnum) hden
    have hlow := le_roundDiv (num * 2 ^ (-f.scale num den).toNat)
      (den * 2 ^ (f.scale num den).toNat)
    have hhigh := roundDiv_le (num * 2 ^ (-f.scale num den).toNat)
      (den * 2 ^ (f.scale num den).toNat)
    dsimp only
    by_cases hcarry : roundDiv (num * 2 ^ (-f.scale num den).toNat)
      (den * 2 ^ (f.scale num den).toNat) = 2 ^ f.digits
    · rw [if_pos hcarry]
      dsimp only
      split
      next => rfl
      next hrange =>
        refine holds_finite_iff.mpr ⟨?_, by omega, not_lt.mp hrange, .inl le_rfl⟩
        exact Nat.pow_lt_pow_right (by decide) (by omega)
    · rw [if_neg hcarry]
      dsimp only
      split
      next => rfl
      next hrange =>
        refine holds_finite_iff.mpr ⟨by omega, hleast, not_lt.mp hrange, ?_⟩
        exact hfull.imp_left fun h => h.trans hlow

theorem holds_convert (hdigits : 0 < f.digits) (hrange : f.least ≤ f.greatest) (x : Binary) :
    f.holds (f.convert x) = true := by
  cases x with
  | finite negative m e => exact holds_round hdigits hrange (by positivity) negative
  | _ => rfl

end TestBench.Format
