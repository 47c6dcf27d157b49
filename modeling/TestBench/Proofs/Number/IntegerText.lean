import TestBench.Proofs.Number.DecimalText
import TestBench.Proofs.Number.Exactness

/-! What the readers of numbers make of a text that spells an integer, of whatever length: the two
readers of integers take it as far as their range goes, and the reader of floats rounds it. -/
namespace TestBench.Literal

/-- A text of digits, at least one. -/
structure DigitText (ds : List Char) : Prop where
  ne_nil : ds ≠ []
  isDigit : ∀ c ∈ ds, c.isDigit = true

/-- The integer that a text spells: decimal digits behind an optional sign. -/
inductive Spells : List Char → ℤ → Prop where
  | plain {ds : List Char} (h : DigitText ds) : Spells ds (Nat.ofDigitChars 10 ds 0)
  | plus {ds : List Char} (h : DigitText ds) : Spells ('+' :: ds) (Nat.ofDigitChars 10 ds 0)
  | minus {ds : List Char} (h : DigitText ds) : Spells ('-' :: ds) (-(Nat.ofDigitChars 10 ds 0 : ℕ))

theorem DigitText.digits? {ds : List Char} (h : DigitText ds) :
    digits? ds = some (Nat.ofDigitChars 10 ds 0) := by
  rw [digits?_eq_some h.ne_nil h.isDigit, ofDigits_eq]

theorem digitText_toDigits (n : ℕ) : DigitText (Nat.toDigits 10 n) :=
  ⟨Nat.toDigits_ne_nil, isDigit_toDigits⟩

/-- The usual text of an integer spells it. -/
theorem spells_toString (n : ℤ) : Spells (toString n).toList n := by
  cases n with
  | ofNat k =>
    have hspells := Spells.plain (digitText_toDigits k)
    rw [Nat.ofDigitChars_ten_toDigits, ← toList_toString] at hspells
    exact hspells
  | negSucc k =>
    have hspells := Spells.minus (digitText_toDigits (k + 1))
    rw [Nat.ofDigitChars_ten_toDigits, ← toList_toString] at hspells
    have htext : (toString (Int.negSucc k)).toList = '-' :: (toString (k + 1)).toList :=
      String.toList_append
    rw [htext]
    exact hspells

theorem trim_toString (n : ℤ) : Text.trim (toString n) = toString n := by
  refine Text.trimWhere_eq_self fun c hc => ?_
  rcases Decimal.mem_toString hc with rfl | hdigit
  · decide
  · exact Text.isBlank_of_isDigit hdigit

section Readers

variable {cs : List Char} {s : String} {n : ℤ}

theorem Spells.sign (h : Spells cs n) : ∃ negative ds, DigitText ds ∧
    Literal.sign cs = (negative, ds) ∧ n = signed negative (Nat.ofDigitChars 10 ds 0) := by
  cases h with
  | plain h => exact ⟨false, _, h, sign_of_digits h.isDigit, rfl⟩
  | plus h => exact ⟨false, _, h, rfl, rfl⟩
  | minus h => exact ⟨true, _, h, rfl, rfl⟩

theorem integer?_of_spells (h : Spells s.toList n) (bound : ℕ) :
    integer? bound s = if -(bound : ℤ) ≤ n ∧ n < bound then some n else none := by
  obtain ⟨negative, ds, hds, hsign, rfl⟩ := h.sign
  rw [integer?, hsign]
  dsimp only
  rw [hds.digits?, Option.bind_some]

theorem unsigned?_of_spells_pos (h : Spells s.toList n) (hn : 0 < n) (bound : ℕ) :
    unsigned? bound s = (some n.toNat).filter (· < bound) := by
  generalize hcs : s.toList = cs at h
  cases h with
  | plain h =>
    subst hcs
    rw [unsigned?_of_digits bound h.ne_nil h.isDigit, ofDigits_eq, Int.toNat_natCast]
  | @plus ds h =>
    rw [unsigned?, hcs]
    change (digits? ds).filter _ = _
    rw [h.digits?, Int.toNat_natCast]
  | minus h => omega

/-- The reader of natural numbers knows no minus. -/
theorem unsigned?_of_spells_neg (h : Spells s.toList n) (hn : n < 0) (bound : ℕ) :
    unsigned? bound s = none := by
  generalize hcs : s.toList = cs at h
  cases h with
  | plain h => omega
  | plus h => omega
  | @minus ds h =>
    have hdigits : digits? ('-' :: ds) = none := if_neg (by simp [allDigits])
    rw [unsigned?, hcs]
    change (digits? ('-' :: ds)).filter _ = _
    rw [hdigits, Option.filter_none]

theorem map_toLower_of_digits (h : ∀ c ∈ cs, c.isDigit = true) : cs.map Char.toLower = cs := by
  refine (List.map_congr_left fun c hc => ?_).trans (List.map_id cs)
  have hdigit : 0x30 ≤ c.toNat ∧ c.toNat ≤ 0x39 := Char.isDigit_iff_toNat.mp (h c hc)
  refine dif_neg ?_
  rintro ⟨hupper, -⟩
  have hletter : 0x41 ≤ c.toNat := hupper
  omega

/-- The reader of floats rounds what it is given, however long. -/
theorem float?_of_spells (h : Spells s.toList n) (hn : n ≠ 0) :
    float? .double s = some (Format.double.ofInt n) := by
  obtain ⟨negative, ds, hds, hsign, rfl⟩ := h.sign
  -- a text of digits is none of the words for what is not finite
  have hword (c : Char) (word : List Char) (hc : c ∈ word) (hletter : c.isDigit = false) :
      String.ofList ds ≠ String.ofList word := by
    rw [Ne, String.ofList_inj]
    rintro rfl
    rw [hds.isDigit c hc] at hletter
    cases hletter
  have hround : Format.double.ofInt (signed negative (Nat.ofDigitChars 10 ds 0)) =
      Format.double.ofDecimal negative (Nat.ofDigitChars 10 ds 0) 0 := by
    rw [Format.double_ofDecimal_zero, Format.ofInt, natAbs_signed, decide_signed_neg hn]
  rw [float?, hsign]
  dsimp only
  rw [map_toLower_of_digits hds.isDigit]
  split
  next hnan => exact absurd hnan (hword 'n' ['n', 'a', 'n'] (by decide) (by decide))
  next hinf => exact absurd hinf (hword 'i' ['i', 'n', 'f'] (by decide) (by decide))
  next hinf =>
    exact absurd hinf (hword 'i' ['i', 'n', 'f', 'i', 'n', 'i', 't', 'y'] (by decide) (by decide))
  next => rw [decimal?_digits hds.isDigit hds.ne_nil, ofDigits_eq, Option.map_some, hround]

end Readers
end TestBench.Literal
