import TestBench.Config.Merge
import TestBench.Proofs.Number.IntegerText

/-! Texts of integers where the destination holds a number. An integer of 64 bits is read as itself.
A longer one is read as the float nearest to it, which is another number unless the integer is one
of the floats. -/
namespace TestBench.Config
open Literal Text

/-- The exact value of a number. -/
def Tree.quantity? : Tree → Option Quantity
  | .int n => some (.rational n)
  | .float x => some x.quantity
  | _ => none

def Tree.isNumber (t : Tree) : Bool := t.quantity?.isSome

/-- Whether an integer is among the whole numbers of a tree, signed or unsigned. -/
def IsInt64 (n : ℤ) : Prop := -2 ^ 63 ≤ n ∧ n < 2 ^ 64

instance (n : ℤ) : Decidable (IsInt64 n) := inferInstanceAs (Decidable (_ ∧ _))

variable {dest : Tree} {s : String} {n : ℤ}

/-- What is not read as a signed integer of 64 bits may still be read as an unsigned one. -/
theorem parseNumber_of_spells (h : Spells (trim s).toList n) :
    parseNumber s = some (if IsInt64 n then .int n else .float (Format.double.ofInt n)) := by
  have hsigned := integer?_of_spells h (2 ^ 63)
  unfold parseNumber
  dsimp only
  by_cases hrange : -((2 ^ 63 : ℕ) : ℤ) ≤ n ∧ n < (2 ^ 63 : ℕ)
  · rw [if_pos hrange] at hsigned
    have hin : IsInt64 n := ⟨hrange.1, hrange.2.trans (by decide)⟩
    rw [hsigned, if_pos hin]
  · rw [if_neg hrange] at hsigned
    rcases lt_or_gt_of_ne (show n ≠ 0 by rintro rfl; simp at hrange) with hneg | hpos
    · have hin : ¬IsInt64 n := fun hin => hrange ⟨hin.1, hneg.trans (by decide)⟩
      rw [hsigned, unsigned?_of_spells_neg h hneg, float?_of_spells h hneg.ne, if_neg hin]
      rfl
    · have hunsigned := unsigned?_of_spells_pos h hpos (2 ^ 64)
      by_cases hless : n.toNat < 2 ^ 64
      · have hin : IsInt64 n := ⟨hpos.le.trans' (by decide), by omega⟩
        rw [Option.filter_some, if_pos (decide_eq_true hless)] at hunsigned
        rw [hsigned, hunsigned, if_pos hin]
        dsimp only
        rw [Int.toNat_of_nonneg hpos.le]
      · have hin : ¬IsInt64 n := fun hin => hless (by have hlt := hin.2; omega)
        rw [Option.filter_some, if_neg (by simpa using hless)] at hunsigned
        rw [hsigned, hunsigned, float?_of_spells h hpos.ne', if_neg hin]
        rfl

theorem coerce_of_isNumber (hdest : dest.isNumber = true) : coerce dest (.text s) = asNumber s := by
  cases dest with
  | int n => rfl
  | float x => rfl
  | _ => cases hdest

theorem coerce_spelled (hdest : dest.isNumber = true) (h : Spells (trim s).toList n) :
    coerce dest (.text s) = if IsInt64 n then .int n else .float (Format.double.ofInt n) := by
  rw [coerce_of_isNumber hdest, asNumber, parseNumber_of_spells h, Option.getD_some]

/-- Whether a text that spells an integer was read as that integer, or left as it is. -/
def Lossless (s : String) (n : ℤ) (t : Tree) : Prop :=
  t.quantity? = some (.rational n) ∨ t = .text s

theorem lossless_coerce_iff (hdest : dest.isNumber = true) (h : Spells (trim s).toList n) :
    Lossless s n (coerce dest (.text s)) ↔ IsInt64 n ∨ Format.double.Represents n := by
  rw [coerce_spelled hdest h, Lossless]
  by_cases hin : IsInt64 n
  · simp [hin, Tree.quantity?]
  · rw [if_neg hin, or_iff_right hin, or_iff_left (by simp), Tree.quantity?, Option.some.injEq]
    exact Format.quantity_ofInt_iff Format.double_digits Format.double_range n

/-- An integer that became a text is read back from it. -/
theorem coerce_coerce_int (hdest : dest.isNumber = true) (hn : IsInt64 n) (held : String) :
    coerce dest (coerce (.text held) (.int n)) = .int n := by
  have htext : coerce (.text held) (.int n) = .text (toString n) := rfl
  have hspells : Spells (trim (toString n)).toList n := (trim_toString n).symm ▸ spells_toString n
  rw [htext, coerce_spelled hdest hspells, if_pos hn]

/-- A text that spells an integer is read as that integer where it has 64 bits, and as the float
nearest to it where it is longer. So it is read without loss, or left alone, just when the integer
is one of 64 bits or a float. What a number of 64 bits became as a text is read as that number. -/
theorem coerce_integer_iff (hdest : dest.isNumber = true) (h : Spells (trim s).toList n) :
    (coerce dest (.text s) = if IsInt64 n then .int n else .float (Format.double.ofInt n)) ∧
      (Lossless s n (coerce dest (.text s)) ↔ IsInt64 n ∨ Format.double.Represents n) ∧
      ∀ k held, IsInt64 k → coerce dest (coerce (.text held) (.int k)) = .int k :=
  ⟨coerce_spelled hdest h, lossless_coerce_iff hdest h,
    fun _ held hk => coerce_coerce_int hdest hk held⟩

/-- The least integer that only the reader of unsigned integers takes, between blanks. -/
theorem coerce_integer_iff_unsigned :
    let s := " 9223372036854775808 "
    ((Tree.int 0).isNumber = true ∧ Spells (trim s).toList (2 ^ 63)) ∧
      coerce (.int 0) (.text s) = (if IsInt64 (2 ^ 63) then .int (2 ^ 63) else
        .float (Format.double.ofInt (2 ^ 63))) ∧
      IsInt64 (2 ^ 63) := by
  intro s
  have htrim : trim s = toString (2 ^ 63 : ℤ) := by decide +kernel
  have hspells : Spells (trim s).toList (2 ^ 63) := htrim ▸ spells_toString (2 ^ 63)
  have hnumber : (Tree.int 0).isNumber = true := rfl
  exact ⟨⟨hnumber, hspells⟩, (coerce_integer_iff hnumber hspells).1, by decide⟩

/-- One more than the unsigned integers of 64 bits is read as a float that is one less. -/
theorem long_integer_rounded :
    let s := "18446744073709551617"
    Spells (trim s).toList (2 ^ 64 + 1) ∧
      coerce (.int 1) (.text s) = .float (.finite false (2 ^ 52) 12) ∧
      ¬Lossless s (2 ^ 64 + 1) (coerce (.int 1) (.text s)) := by
  intro s
  have htrim : trim s = toString (2 ^ 64 + 1 : ℤ) := by decide +kernel
  have hspells : Spells (trim s).toList (2 ^ 64 + 1) := htrim ▸ spells_toString (2 ^ 64 + 1)
  have hread : coerce (.int 1) (.text s) = .float (.finite false (2 ^ 52) 12) := by
    rw [coerce_spelled rfl hspells, if_neg (by decide)]
    exact congrArg Tree.float (by decide +kernel)
  refine ⟨hspells, hread, ?_⟩
  rw [hread, Lossless]
  rintro (hnumber | htext)
  · norm_num [Tree.quantity?, Binary.quantity, signed] at hnumber
  · cases htext

end TestBench.Config
