import TestBench.Proofs.Number.Rounding

/-! When rounding to a format changes nothing: just when the number is one of the format's, a
significand of so many bits scaled within its range. -/
namespace TestBench

/-- What divides is not rounded. -/
theorem roundDiv_mul_right (q : ℕ) {d : ℕ} (hd : 0 < d) : roundDiv (q * d) d = q := by
  rw [roundDiv, Nat.mul_mod_left, Nat.mul_div_cancel _ hd]
  exact if_pos (by omega)

namespace Format
open Binary

variable {f : Format} {num den : ℕ}

/-- Whether a number is one of the format's. -/
def Represents (f : Format) (q : ℚ) : Prop :=
  ∃ (m : ℕ) (e : ℤ), m < 2 ^ f.digits ∧ f.least ≤ e ∧ e ≤ f.greatest ∧ |q| = m * 2 ^ e

theorem represents_of_holds {negative : Bool} {m : ℕ} {e : ℤ}
    (h : f.holds (.finite negative m e) = true) :
    f.Represents ((signed negative m : ℚ) * 2 ^ e) := by
  obtain ⟨hm, hleast, hgreatest, -⟩ := holds_finite_iff.mp h
  refine ⟨m, e, hm, hleast, hgreatest, ?_⟩
  rw [abs_mul, abs_signed, abs_of_pos (by positivity)]

/-- A number of the format is a whole multiple of the power of two that its rounding is measured
in, and that power is in range. -/
theorem exists_multiple (hdigits : 0 < f.digits) (hnum : 0 < num) (hden : 0 < den)
    (h : f.Represents (num / den)) :
    f.scale num den ≤ f.greatest ∧ ∃ q : ℕ, (num : ℚ) / den = q * 2 ^ f.scale num den := by
  obtain ⟨m, e, hm, hleast, hgreatest, hvalue⟩ := h
  have hnonneg : (0 : ℚ) ≤ num / den := by positivity
  rw [abs_of_nonneg hnonneg] at hvalue
  obtain ⟨-, -, hfull⟩ := quotient_scale hdigits hnum hden
  have hle : f.scale num den ≤ e := by
    rcases hfull with hfull | hfull
    · -- the significand of the rounding is full, so that of `m` cannot stand higher
      rw [le_quotient_iff hden, hvalue] at hfull
      have hless : ((2 ^ (f.digits - 1) : ℕ) : ℚ) * 2 ^ f.scale num den < 2 ^ f.digits * 2 ^ e := by
        refine hfull.trans_lt ?_
        have hmq : (m : ℚ) < 2 ^ f.digits := by exact_mod_cast hm
        gcongr
      have hpow : (2 : ℚ) ^ f.digits = ((2 ^ (f.digits - 1) : ℕ) : ℚ) * 2 := by
        have hone : f.digits - 1 + 1 = f.digits := Nat.sub_add_cancel hdigits
        rw [← hone, pow_succ]
        push_cast
        rfl
      rw [hpow, mul_assoc, ← zpow_one_add₀ two_ne_zero,
        mul_lt_mul_iff_right₀ (by positivity), zpow_lt_zpow_iff_right₀ one_lt_two] at hless
      omega
    · exact hfull ▸ hleast
  refine ⟨hle.trans hgreatest, m * 2 ^ (e - f.scale num den).toNat, ?_⟩
  rw [hvalue, zpow_split hle]
  push_cast
  ring

/-- Rounding a number of the format gives that number. -/
theorem round_eq_of_represents (hdigits : 0 < f.digits) (hnum : 0 < num) (hden : 0 < den)
    (h : f.Represents (num / den)) (negative : Bool) :
    ∃ q : ℕ, (num : ℚ) / den = q * 2 ^ f.scale num den ∧
      f.round negative num den = .finite negative q (f.scale num den) := by
  obtain ⟨hgreatest, q, hvalue⟩ := exists_multiple hdigits hnum hden h
  obtain ⟨-, hless, -⟩ := quotient_scale hdigits hnum hden
  have hdenq : (den : ℚ) ≠ 0 := by exact_mod_cast hden.ne'
  have hdivisor : 0 < den * 2 ^ (f.scale num den).toNat := by positivity
  have hexact : num * 2 ^ (-f.scale num den).toNat = q * (den * 2 ^ (f.scale num den).toNat) := by
    rw [div_eq_iff hdenq, Decimal.zpow_eq_div two_ne_zero] at hvalue
    have hpow : (2 : ℚ) ^ (-f.scale num den).toNat ≠ 0 := by positivity
    field_simp at hvalue
    rw [mul_right_comm, mul_assoc] at hvalue
    exact_mod_cast hvalue
  rw [hexact, Nat.mul_div_cancel _ hdivisor] at hless
  refine ⟨q, hvalue, ?_⟩
  rw [round, if_neg hnum.ne']
  dsimp only
  rw [hexact, roundDiv_mul_right q hdivisor, if_neg hless.ne]
  exact if_neg (not_lt.mpr hgreatest)

theorem represents_congr {p q : ℚ} (h : |p| = |q|) : f.Represents p ↔ f.Represents q := by
  rw [Represents, Represents, h]

/-- Rounding keeps a number just when it is one of the format's. -/
theorem quantity_round_iff (hdigits : 0 < f.digits) (hrange : f.least ≤ f.greatest) (hden : 0 < den)
    (negative : Bool) :
    (f.round negative num den).quantity = .rational ((signed negative num : ℚ) / den) ↔
      f.Represents (num / den) := by
  have habs : |(signed negative num : ℚ) / den| = |(num : ℚ) / den| := by
    rw [abs_div, abs_div, abs_signed, Nat.abs_cast, Nat.abs_cast]
  constructor
  · intro h
    have hholds : f.holds (f.round negative num den) = true :=
      holds_round hdigits hrange hden negative
    rw [← represents_congr habs]
    cases hround : f.round negative num den with
    | nan => simp [hround, Binary.quantity] at h
    | infinite sign => simp [hround, Binary.quantity] at h
    | finite sign m e =>
      rw [hround] at h hholds
      exact Quantity.rational.inj h ▸ represents_of_holds hholds
  · intro h
    rcases Nat.eq_zero_or_pos num with rfl | hnum
    · cases negative <;> simp [round, Binary.quantity, signed]
    · obtain ⟨q, hvalue, hround⟩ := round_eq_of_represents hdigits hnum hden h negative
      rw [hround, Binary.quantity, signed_cast, signed_cast negative num, mul_assoc, mul_div_assoc,
        hvalue]

/-- Past the greatest numbers of the format there are only the infinite ones. -/
theorem round_eq_infinite (hdigits : 0 < f.digits) (hden : 0 < den)
    (h : (2 : ℚ) ^ (f.digits + f.greatest) ≤ num / den) (negative : Bool) :
    f.round negative num den = .infinite negative := by
  have hnum : 0 < num := by
    rw [Nat.pos_iff_ne_zero]
    rintro rfl
    rw [Nat.cast_zero, zero_div] at h
    exact absurd h (not_le.mpr (by positivity))
  obtain ⟨-, hless, -⟩ := quotient_scale hdigits hnum hden
  have hgreatest : f.greatest < f.scale num den := by
    have hpow : ((2 ^ f.digits : ℕ) : ℚ) * 2 ^ f.scale num den =
        2 ^ (f.digits + f.scale num den) := by
      rw [zpow_add₀ two_ne_zero, zpow_natCast, Nat.cast_pow, Nat.cast_ofNat]
    rw [← not_le, le_quotient_iff hden, hpow, not_le] at hless
    have hexponents := (zpow_lt_zpow_iff_right₀ one_lt_two).mp (h.trans_lt hless)
    omega
  rw [round, if_neg hnum.ne']
  dsimp only
  by_cases hcarry : roundDiv (num * 2 ^ (-f.scale num den).toNat)
    (den * 2 ^ (f.scale num den).toNat) = 2 ^ f.digits
  · rw [if_pos hcarry]
    exact if_pos (by omega)
  · rw [if_neg hcarry]
    exact if_pos hgreatest

theorem double_digits : 0 < double.digits := by decide

theorem double_range : double.least ≤ double.greatest := by decide

/-- An integer becomes the float of its value just when it has at most as many significant bits as
the format. -/
theorem quantity_ofInt_iff (hdigits : 0 < f.digits) (hrange : f.least ≤ f.greatest) (n : ℤ) :
    (f.ofInt n).quantity = .rational n ↔ f.Represents n := by
  have hround : (f.round (decide (n < 0)) n.natAbs 1).quantity = _ ↔ _ :=
    quantity_round_iff hdigits hrange one_pos (decide (n < 0))
  rw [Literal.signed_natAbs, Nat.cast_one, div_one, div_one] at hround
  rw [ofInt, hround]
  exact represents_congr (by simp)

/-- Three binary digits for each decimal one are fewer than a number has. -/
theorem two_pow_le_of_length {n j k : ℕ} (hk : 0 < k) (hj : j ≤ 3 * k)
    (h : k < (Nat.toDigits 10 n).length) : 2 ^ j ≤ n := by
  rw [← not_le, Nat.length_toDigits_le_iff (by decide) hk, not_lt] at h
  calc 2 ^ j ≤ 2 ^ (3 * k) := Nat.pow_le_pow_right (by decide) hj
    _ = (2 ^ 3) ^ k := pow_mul 2 3 k
    _ ≤ 10 ^ k := Nat.pow_le_pow_left (by decide) k
    _ ≤ n := h

/-- Of a decimal without an exponent only the length is looked at before it is rounded, and what is
too long is infinite anyway. -/
theorem double_ofDecimal_zero (negative : Bool) (n : ℕ) :
    double.ofDecimal negative n 0 = double.round negative n 1 := by
  rw [ofDecimal]
  split
  next hshort =>
    have hzero : n = 0 := hshort.resolve_right (by omega)
    rw [hzero, round, if_pos rfl]
  next =>
    split
    next hlong =>
      have hlarge : 2 ^ 1024 ≤ n :=
        two_pow_le_of_length (show 0 < 400 by decide) (by decide) (by omega)
      refine (round_eq_infinite double_digits one_pos ?_ negative).symm
      have hexponent : (double.digits : ℤ) + double.greatest = (1024 : ℕ) := rfl
      rw [hexponent, zpow_natCast, Nat.cast_one, div_one]
      exact_mod_cast hlarge
    next => simp

end Format
end TestBench
