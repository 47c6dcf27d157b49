import Mathlib.Algebra.Order.Field.Power
import Mathlib.Data.Rat.Cast.Order
import Mathlib.Tactic
import TestBench.Number.Binary

/-! What a binary float stands for. Equality of floats is equality of what they stand for, so it is
an equivalence, and a float is an integer just when it stands for one. -/
namespace TestBench

inductive Quantity where
  | nan
  | infinite (negative : Bool)
  | rational (q : ℚ)
  deriving DecidableEq

namespace Binary

/-- The exact value; the two zeros stand for the same one. -/
def quantity : Binary → Quantity
  | .nan => .nan
  | .infinite negative => .infinite negative
  | .finite negative m e => .rational (signed negative m * 2 ^ e)

theorem isZero_iff_quantity {x : Binary} : x.isZero = true ↔ x.quantity = .rational 0 := by
  cases x with
  | nan => simp [isZero, quantity]
  | infinite negative => simp [isZero, quantity]
  | finite negative m e =>
    rw [quantity, Quantity.rational.injEq, mul_eq_zero, or_iff_left (by positivity),
      Int.cast_eq_zero]
    cases m with
    | zero => cases negative <;> simp [isZero, signed]
    | succ k =>
      have hne : signed negative (k + 1) ≠ 0 := by
        cases negative
        · exact Int.natCast_ne_zero.mpr k.succ_ne_zero
        · exact neg_ne_zero.mpr (Int.natCast_ne_zero.mpr k.succ_ne_zero)
      simp [isZero, hne]

theorem signed_mul (negative : Bool) (m x : ℕ) :
    signed negative (m * x) = signed negative m * (x : ℤ) := by
  cases negative <;> simp [signed]

/-- The sign as a factor. -/
theorem signed_cast (negative : Bool) (n : ℕ) :
    (signed negative n : ℚ) = signed negative 1 * n := by
  rw [← Nat.one_mul n, signed_mul]
  push_cast
  ring

theorem abs_signed (negative : Bool) (n : ℕ) : |(signed negative n : ℚ)| = n := by
  cases negative <;> simp [signed]

/-- A power of two, split at an exponent that is not above its own. -/
theorem zpow_split {low e : ℤ} (h : low ≤ e) :
    (2 : ℚ) ^ e = 2 ^ (e - low).toNat * 2 ^ low := by
  rw [← zpow_natCast, ← zpow_add₀ two_ne_zero, Int.toNat_sub_of_le h, sub_add_cancel]

theorem eq_finite_iff (a b : Bool) (m n : ℕ) (e k : ℤ) :
    eq (.finite a m e) (.finite b n k) = true ↔
      (signed a m : ℚ) * 2 ^ e = signed b n * 2 ^ k := by
  have hlow : (2 : ℚ) ^ min e k ≠ 0 := zpow_ne_zero _ two_ne_zero
  rw [zpow_split (min_le_left e k), zpow_split (min_le_right e k), ← mul_assoc, ← mul_assoc,
    mul_left_inj' hlow]
  simp only [eq, beq_iff_eq, signed_mul]
  exact_mod_cast Iff.rfl

theorem same_iff_quantity {a b : Binary} : a.same b = true ↔ a.quantity = b.quantity := by
  cases a with
  | nan => cases b <;> simp [same, isNan, eq, quantity]
  | infinite a => cases b <;> simp [same, isNan, eq, quantity]
  | finite a m e =>
    cases b with
    | nan => simp [same, isNan, eq, quantity]
    | infinite b => simp [same, isNan, eq, quantity]
    | finite b n k =>
      simp only [same, isNan, Bool.false_and, Bool.false_or, quantity, Quantity.rational.injEq]
      exact eq_finite_iff a b m n e k

@[simp] theorem same_refl (a : Binary) : a.same a = true := same_iff_quantity.mpr rfl

theorem same_symm {a b : Binary} (h : a.same b = true) : b.same a = true :=
  same_iff_quantity.mpr (same_iff_quantity.mp h).symm

theorem same_trans {a b c : Binary} (hab : a.same b = true) (hbc : b.same c = true) :
    a.same c = true :=
  same_iff_quantity.mpr ((same_iff_quantity.mp hab).trans (same_iff_quantity.mp hbc))

theorem isZero_of_same {a b : Binary} (h : a.same b = true) : a.isZero = b.isZero := by
  rw [same_iff_quantity] at h
  rw [Bool.eq_iff_iff, isZero_iff_quantity, isZero_iff_quantity, h]

theorem mul_two_zpow_eq_int_iff (s n : ℤ) (k : ℕ) :
    (s : ℚ) * 2 ^ (-(k : ℤ)) = n ↔ s = n * 2 ^ k := by
  have hpow : (2 : ℚ) ^ k ≠ 0 := pow_ne_zero _ two_ne_zero
  rw [zpow_neg, zpow_natCast, ← div_eq_mul_inv, div_eq_iff hpow]
  exact_mod_cast Iff.rfl

/-- A float is an integer just when that is its exact value. -/
theorem toInt?_eq_some_iff {x : Binary} {n : ℤ} :
    x.toInt? = some n ↔ x.quantity = .rational n := by
  cases x with
  | nan => simp [toInt?, quantity]
  | infinite negative => simp [toInt?, quantity]
  | finite negative m e =>
    rw [quantity, Quantity.rational.injEq, toInt?]
    rcases le_or_gt 0 e with he | he
    · obtain ⟨k, rfl⟩ := Int.eq_ofNat_of_zero_le he
      have hvalue : (signed negative m : ℚ) * 2 ^ (k : ℤ) =
          ((signed negative (m * 2 ^ k) : ℤ) : ℚ) := by
        rw [signed_mul, zpow_natCast]
        push_cast
        rfl
      rw [if_pos he, Int.toNat_natCast, Option.some.injEq, hvalue, Int.cast_inj]
    · obtain ⟨k, hk⟩ := Int.eq_ofNat_of_zero_le (neg_nonneg.mpr he.le)
      obtain rfl : e = -(k : ℤ) := by omega
      have hpos : (2 : ℤ) ^ k ≠ 0 := pow_ne_zero _ two_ne_zero
      rw [if_neg (not_le.mpr he), neg_neg, Int.toNat_natCast, mul_two_zpow_eq_int_iff]
      by_cases hdvd : m % 2 ^ k = 0
      · have hsplit : signed negative m = signed negative (m / 2 ^ k) * 2 ^ k := by
          conv_lhs => rw [← Nat.div_mul_cancel (Nat.dvd_of_mod_eq_zero hdvd), signed_mul]
          push_cast
          rfl
        rw [if_pos hdvd, Option.some.injEq, hsplit, mul_left_inj' hpos]
      · have hno : signed negative m ≠ n * 2 ^ k := by
          intro h
          have hint : (2 : ℤ) ^ k ∣ signed negative m := ⟨n, by rw [h, mul_comm]⟩
          have habs : (2 : ℤ) ^ k ∣ m := by
            cases negative with
            | false => simpa [signed] using hint
            | true => simpa [signed] using hint
          exact hdvd (Nat.mod_eq_zero_of_dvd (by exact_mod_cast habs))
        simp [hdvd, hno]

theorem isZero_of_toInt? {x : Binary} {n : ℤ} (h : x.toInt? = some n) :
    x.isZero = (n == 0) := by
  rw [toInt?_eq_some_iff] at h
  rw [Bool.eq_iff_iff, isZero_iff_quantity, h]
  simp

end Binary
end TestBench
