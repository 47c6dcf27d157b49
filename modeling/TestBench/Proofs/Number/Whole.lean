import TestBench.Proofs.Number.Quantity

/-! Whether a float is an integer of 128 bits, decided by floats alone: nothing stands behind its
point, it lies in a half-open range whose ends are floats, and the conversion that is cut off at the
ends of that range then gives the integer. -/
namespace TestBench.Binary

/-- What stands behind the point. What is not finite has no such part. -/
def fraction : Binary → Binary
  | .finite negative m e => .finite negative (m % 2 ^ (-e).toNat) e
  | _ => .nan

/-- The order of values, in which NaN has no place. -/
def le : Binary → Binary → Bool
  | .nan, _ => false
  | _, .nan => false
  | .infinite true, _ => true
  | _, .infinite false => true
  | .infinite false, _ => false
  | _, .infinite true => false
  | .finite a m e, .finite b n k =>
    let low := min e k
    signed a (m * 2 ^ (e - low).toNat) ≤ signed b (n * 2 ^ (k - low).toNat)

def lt (x y : Binary) : Bool := x.le y && !y.le x

/-- The integer that is left without the fraction, or the end of the range that it is past. -/
def clamped (least most : ℤ) : Binary → ℤ
  | .nan => 0
  | .infinite negative => if negative then least else most
  | .finite negative m e =>
    max least (min most (signed negative (m * 2 ^ e.toNat / 2 ^ (-e).toNat)))

/-- `2 ^ 127` or its negative: the first float past the integers of 128 bits, and the least one
among them. -/
def limit (negative : Bool) : Binary := .finite negative (2 ^ 52) 75

/-- The integer of 128 bits that a float is, if it is one. -/
def asInt128? (x : Binary) : Option ℤ :=
  if x.fraction.isZero && ((limit true).le x && x.lt (limit false)) then
    some (x.clamped (-2 ^ 127) (2 ^ 127 - 1))
  else none

section Order

variable {x y : Binary} {p q : ℚ}

theorem exists_finite (h : x.quantity = .rational q) :
    ∃ negative m e, x = .finite negative m e ∧ (signed negative m : ℚ) * 2 ^ e = q := by
  cases x with
  | nan => cases h
  | infinite negative => cases h
  | finite negative m e => exact ⟨negative, m, e, rfl, Quantity.rational.inj h⟩

theorem le_iff (hx : x.quantity = .rational p) (hy : y.quantity = .rational q) :
    x.le y = true ↔ p ≤ q := by
  obtain ⟨a, m, e, rfl, rfl⟩ := exists_finite hx
  obtain ⟨b, n, k, rfl, rfl⟩ := exists_finite hy
  have hlow : (0 : ℚ) < 2 ^ min e k := by positivity
  rw [zpow_split (min_le_left e k), zpow_split (min_le_right e k), ← mul_assoc, ← mul_assoc,
    mul_le_mul_iff_left₀ hlow]
  simp only [le, decide_eq_true_eq, signed_mul]
  exact_mod_cast Iff.rfl

theorem lt_iff (hx : x.quantity = .rational p) (hy : y.quantity = .rational q) :
    x.lt y = true ↔ p < q := by
  rw [lt, Bool.and_eq_true, Bool.not_eq_true', ← Bool.not_eq_true, le_iff hx hy, le_iff hy hx,
    ← lt_iff_le_not_ge]

end Order

theorem quantity_limit (negative : Bool) :
    (limit negative).quantity = .rational ((signed negative (2 ^ 127) : ℤ) : ℚ) := by
  rw [limit, quantity]
  cases negative <;> norm_num [signed]

section Finite

variable {negative : Bool} {m : ℕ} {e n : ℤ}

theorem isZero_fraction_iff :
    (fraction (.finite negative m e)).isZero = true ↔ m % 2 ^ (-e).toNat = 0 := by
  rw [fraction]
  cases m % 2 ^ (-e).toNat <;> simp [isZero]

theorem toInt?_finite : toInt? (.finite negative m e) =
    if m % 2 ^ (-e).toNat = 0 then some (signed negative (m * 2 ^ e.toNat / 2 ^ (-e).toNat))
    else none := by
  rw [toInt?]
  by_cases he : 0 ≤ e
  · have hzero : (-e).toNat = 0 := by omega
    rw [if_pos he, hzero, pow_zero, Nat.mod_one, if_pos rfl, Nat.div_one]
  · have hzero : e.toNat = 0 := by omega
    rw [if_neg he, hzero, pow_zero, Nat.mul_one]

end Finite

/-- A float is found to be an integer of 128 bits just when its exact value is that integer. -/
theorem asInt128?_eq_some_iff {x : Binary} {n : ℤ} :
    x.asInt128? = some n ↔ x.quantity = .rational n ∧ -2 ^ 127 ≤ n ∧ n < 2 ^ 127 := by
  cases x with
  | nan => simp [asInt128?, fraction, isZero, quantity]
  | infinite negative => simp [asInt128?, fraction, isZero, quantity]
  | finite negative m e =>
    have hwhole : toInt? (.finite negative m e) = _ := toInt?_finite
    rw [asInt128?, ← toInt?_eq_some_iff, hwhole]
    by_cases hmod : m % 2 ^ (-e).toNat = 0
    · rw [if_pos hmod] at hwhole ⊢
      have hvalue := toInt?_eq_some_iff.mp hwhole
      rw [isZero_fraction_iff.mpr hmod, Bool.true_and, clamped]
      generalize signed negative (m * 2 ^ e.toNat / 2 ^ (-e).toNat) = k at hvalue ⊢
      have hlow : (limit true).le (.finite negative m e) = true ↔ -2 ^ 127 ≤ k := by
        rw [le_iff (quantity_limit true) hvalue, Int.cast_le]
        rfl
      have hhigh : lt (.finite negative m e) (limit false) = true ↔ k < 2 ^ 127 := by
        rw [lt_iff hvalue (quantity_limit false), Int.cast_lt]
        rfl
      rw [Option.some.injEq]
      split
      next hin =>
        rw [Bool.and_eq_true, hlow, hhigh] at hin
        rw [min_eq_right (by omega), max_eq_right (by omega), Option.some.injEq]
        exact ⟨fun h => ⟨h, h ▸ hin⟩, And.left⟩
      next hout =>
        rw [Bool.and_eq_true, hlow, hhigh] at hout
        constructor
        · intro h
          cases h
        · rintro ⟨rfl, hn⟩
          exact absurd hn hout
    · have hfraction : (fraction (.finite negative m e)).isZero = false :=
        Bool.eq_false_iff.mpr fun h => hmod (isZero_fraction_iff.mp h)
      simp [hfraction, hmod]

end TestBench.Binary
