import TestBench.Diff.Node
import TestBench.Proofs.Number.Exactness
import TestBench.Proofs.Number.Whole

/-! Integers against floats. They are equivalent just when they have the same exact value, so that
an integer with more significant bits than a float has is equivalent to none, not even to the
nearest one. -/
namespace TestBench.Diff.Node
open Binary

variable {n : ℤ} {x : Binary}

theorem int_equivalent_float_iff :
    (Node.int n).equivalent (.float x) = true ↔ x.quantity = .rational n := by
  rw [equivalent, beq_iff_eq, toInt?_eq_some_iff]

/-- What an integer of 128 bits is to a float. -/
structure ComparedExactly (n : ℤ) (x : Binary) : Prop where
  /-- equivalent just when the float is finite and its value is the integer -/
  exact : (Node.int n).equivalent (.float x) = true ↔ x.quantity = .rational n
  swapped : (Node.float x).equivalent (.int n) = (Node.int n).equivalent (.float x)
  /-- as the fraction of the float, the range and the conversion that is cut off have it -/
  decided : (Node.int n).equivalent (.float x) = (x.asInt128? == some n)

theorem comparedExactly (hn : -2 ^ 127 ≤ n ∧ n < 2 ^ 127) (x : Binary) : ComparedExactly n x where
  exact := int_equivalent_float_iff
  swapped := by rw [equivalent, equivalent]
  decided := by
    rw [Bool.eq_iff_iff, int_equivalent_float_iff, beq_iff_eq, asInt128?_eq_some_iff,
      and_iff_left hn]

/-- An integer of 128 bits and a float are equivalent just when the float has the value of the
integer, in either order. So an integer is equivalent to the float it is rounded to only when it has
no more than 53 significant bits. The least integer is the float `-2 ^ 127`, and no integer is
`2 ^ 127`, infinite or no number. -/
theorem int_meets_float_exactly (hn : -2 ^ 127 ≤ n ∧ n < 2 ^ 127) :
    (∀ x, ComparedExactly n x) ∧
      ((Node.int n).equivalent (.float (Format.double.ofInt n)) = true ↔
        Format.double.Represents n) ∧
      ((Node.int n).equivalent (.float (limit true)) = true ↔ n = -2 ^ 127) ∧
      ∀ x ∈ [limit false, .infinite false, .infinite true, .nan],
        (Node.int n).equivalent (.float x) = false := by
  refine ⟨comparedExactly hn, ?_, ?_, ?_⟩
  · rw [int_equivalent_float_iff]
    exact Format.quantity_ofInt_iff Format.double_digits Format.double_range n
  · rw [int_equivalent_float_iff, quantity_limit, Quantity.rational.injEq, Int.cast_inj, eq_comm]
    rfl
  · have hpast : (limit false).quantity ≠ .rational n := by
      rw [quantity_limit, Ne, Quantity.rational.injEq, Int.cast_inj]
      exact fun h => absurd (h ▸ hn.2) (lt_irrefl _)
    simp only [List.forall_mem_cons, Bool.eq_false_iff, Ne, int_equivalent_float_iff]
    exact ⟨hpast, by simp [quantity], by simp [quantity], by simp [quantity], by simp⟩

/-- `2 ^ 53 + 1` is not the float it is rounded to. -/
theorem int_meets_float_exactly_odd :
    (-2 ^ 127 ≤ (2 ^ 53 + 1 : ℤ) ∧ (2 ^ 53 + 1 : ℤ) < 2 ^ 127) ∧
      ComparedExactly (2 ^ 53 + 1) (.finite false (2 ^ 52) 1) ∧
      (Node.int (2 ^ 53 + 1)).equivalent (.float (Format.double.ofInt (2 ^ 53 + 1))) = false := by
  have hn : -2 ^ 127 ≤ (2 ^ 53 + 1 : ℤ) ∧ (2 ^ 53 + 1 : ℤ) < 2 ^ 127 := by decide
  exact ⟨hn, (int_meets_float_exactly hn).1 _, by decide +kernel⟩

end TestBench.Diff.Node
