import TestBench.Proofs.Number.DecimalText
import TestBench.Proofs.Number.Quantity

/-! The decimals that are read as one float and as another are apart, and the shortest one of a
float is read as it. So floats of a format that differ have different texts. -/
namespace TestBench

namespace Format

/-- Whether a float is one of the format, as the format has it: no leading digit is left out, and
the exponent is in range. -/
def holds (f : Format) : Binary → Bool
  | .finite _ m e =>
    m < 2 ^ f.digits && f.least ≤ e && e ≤ f.greatest &&
      (2 ^ (f.digits - 1) ≤ m || e == f.least)
  | _ => true

/-- The lower end of what is read as `m · 2 ^ e`, in quarters of the last digit. -/
def lowEnd (f : Format) (m : ℕ) (e : ℤ) : ℕ :=
  if m = 2 ^ (f.digits - 1) ∧ f.least < e then 4 * m - 1 else 4 * m - 2

/-- A number that is read as `m · 2 ^ e`. -/
structure ReadAs (f : Format) (m : ℕ) (e : ℤ) (q : ℚ) : Prop where
  low : f.lowEnd m e * 2 ^ (e - 2) ≤ q
  high : q ≤ (4 * m + 2 : ℕ) * 2 ^ (e - 2)
  odd : m % 2 = 1 → f.lowEnd m e * 2 ^ (e - 2) < q ∧ q < (4 * m + 2 : ℕ) * 2 ^ (e - 2)

theorem two_zpow_quarter (e : ℤ) : (2 : ℚ) ^ e = 4 * 2 ^ (e - 2) := by
  rw [zpow_sub₀ two_ne_zero]
  field_simp
  norm_num

end Format

namespace Decimal
open Format

variable {f : Format} {m : ℕ} {e : ℤ}

theorem zpow_eq_div {x : ℚ} (hx : x ≠ 0) (i : ℤ) : x ^ i = x ^ i.toNat / x ^ (-i).toNat := by
  rw [eq_div_iff (pow_ne_zero _ hx), ← zpow_natCast, ← zpow_natCast, ← zpow_add₀ hx]
  congr 1
  omega

theorem compareScaled_eq (a : ℕ) (i : ℤ) (b : ℕ) (j : ℤ) :
    compareScaled a i b j = compare ((a : ℚ) * 10 ^ i) (b * 2 ^ j) := by
  have hleft : (a : ℚ) * 10 ^ i * (10 ^ (-i).toNat * 2 ^ (-j).toNat) =
      (a * 10 ^ i.toNat * 2 ^ (-j).toNat : ℕ) := by
    rw [zpow_eq_div (by norm_num) i]
    push_cast
    field_simp
  have hright : (b : ℚ) * 2 ^ j * (10 ^ (-i).toNat * 2 ^ (-j).toNat) =
      (b * 2 ^ j.toNat * 10 ^ (-i).toNat : ℕ) := by
    rw [zpow_eq_div (by norm_num) j]
    push_cast
    field_simp
  have hpos : (0 : ℚ) < 10 ^ (-i).toNat * 2 ^ (-j).toNat := by positivity
  have hlt (p q : ℚ) : p < q ↔ p * (10 ^ (-i).toNat * 2 ^ (-j).toNat) <
      q * (10 ^ (-i).toNat * 2 ^ (-j).toNat) := (mul_lt_mul_iff_left₀ hpos).symm
  rw [compareScaled]
  symm
  rcases hcmp : compare (a * 10 ^ i.toNat * 2 ^ (-j).toNat) (b * 2 ^ j.toNat * 10 ^ (-i).toNat)
  · rw [compare_lt_iff_lt, hlt, hleft, hright, Nat.cast_lt]
    exact compare_lt_iff_lt.mp hcmp
  · rw [compare_eq_iff_eq, ← mul_left_inj' hpos.ne', hleft, hright, Nat.cast_inj]
    exact compare_eq_iff_eq.mp hcmp
  · rw [compare_gt_iff_gt, hlt, hleft, hright, Nat.cast_lt]
    exact compare_gt_iff_gt.mp hcmp

/-- What is taken for the float is read as it. -/
theorem readAs_of_readsBack {d : Decimal} (h : readsBack f m e d = true) :
    f.ReadAs m e d.value := by
  unfold readsBack at h
  simp only [compareScaled_eq, Bool.and_eq_true, Bool.or_eq_true, beq_iff_eq, compare_gt_iff_gt,
    compare_lt_iff_lt, compare_eq_iff_eq] at h
  obtain ⟨hlow, hhigh⟩ := h
  refine ⟨?_, ?_, fun hodd => ⟨?_, ?_⟩⟩
  · exact hlow.elim le_of_lt fun h => h.2.ge
  · exact hhigh.elim le_of_lt fun h => h.2.le
  · exact hlow.resolve_right fun h => by omega
  · exact hhigh.resolve_right fun h => by omega

theorem readAs_self (hm : 0 < m) : f.ReadAs m e (m * 2 ^ e) := by
  have hpos : (0 : ℚ) < 2 ^ (e - 2) := by positivity
  have hlow : f.lowEnd m e * 2 ^ (e - 2) < (m : ℚ) * 2 ^ e := by
    rw [two_zpow_quarter e, ← mul_assoc, mul_lt_mul_iff_left₀ hpos]
    have hlt : f.lowEnd m e < m * 4 := by
      rw [lowEnd]
      split <;> omega
    exact_mod_cast hlt
  have hhigh : (m : ℚ) * 2 ^ e < (4 * m + 2 : ℕ) * 2 ^ (e - 2) := by
    rw [two_zpow_quarter, ← mul_assoc, mul_lt_mul_iff_left₀ hpos]
    exact_mod_cast (by omega : m * 4 < 4 * m + 2)
  exact ⟨hlow.le, hhigh.le, fun _ => ⟨hlow, hhigh⟩⟩

theorem onGrid_readsBack {tieUp : Bool} {g : ℤ} {d : Decimal}
    (h : onGrid f tieUp m e g = some d) : readsBack f m e d = true := by
  unfold onGrid at h
  dsimp only at h
  split at h
  next hlow hhigh =>
    rw [Bool.and_eq_true] at hlow
    split at h
    · exact Option.some.inj h ▸ hlow.2
    · exact Option.some.inj h ▸ hhigh
    · split at h
      · exact Option.some.inj h ▸ hhigh
      · exact Option.some.inj h ▸ hlow.2
  next hlow hhigh =>
    rw [Bool.and_eq_true] at hlow
    exact Option.some.inj h ▸ hlow.2
  next hlow hhigh => exact Option.some.inj h ▸ hhigh
  next => cases h

theorem stripZeros_value (fuel : ℕ) (d : Decimal) : (stripZeros fuel d).value = d.value := by
  induction fuel generalizing d with
  | zero => rfl
  | succ fuel ih =>
    rw [stripZeros]
    split
    next hdvd =>
      have hdigits : (d.digits : ℚ) = (d.digits / 10 : ℕ) * 10 := by
        exact_mod_cast (Nat.div_mul_cancel (Nat.dvd_of_mod_eq_zero hdvd)).symm
      rw [ih, value, value, hdigits, zpow_add_one₀ (by norm_num)]
      ring
    next => rfl

/-- The shortest decimal of a float is read as it. -/
theorem shortest_readAs (tieUp : Bool) (hm : 0 < m) :
    f.ReadAs m e (shortest f tieUp m e).value := by
  rw [shortest, stripZeros_value]
  cases hfound : (List.range 17).findSome? fun n : ℕ => onGrid f tieUp m e (scale m e - 1 - n) with
  | some d =>
    obtain ⟨n, -, hd⟩ := List.exists_of_findSome?_eq_some hfound
    exact readAs_of_readsBack (onGrid_readsBack hd)
  | none =>
    -- the exact value, as a decimal
    have hexact : value ⟨m * 2 ^ e.toNat * 5 ^ (-e).toNat, -((-e).toNat : ℤ)⟩ = m * 2 ^ e := by
      rw [value, zpow_eq_div two_ne_zero e, zpow_neg, zpow_natCast]
      push_cast
      rw [show (10 : ℚ) = 5 * 2 by norm_num, mul_pow]
      field_simp
    rw [Option.getD_none, hexact]
    exact readAs_self hm

end Decimal

namespace Format

variable {f : Format} {m n : ℕ} {e k : ℤ} {q : ℚ}

theorem holds_finite_iff {negative : Bool} :
    f.holds (.finite negative m e) = true ↔ m < 2 ^ f.digits ∧ f.least ≤ e ∧ e ≤ f.greatest ∧
      (2 ^ (f.digits - 1) ≤ m ∨ e = f.least) := by
  simp only [holds, Bool.and_eq_true, Bool.or_eq_true, decide_eq_true_eq, beq_iff_eq, and_assoc]

theorem two_mul_zpow_le (h : e < k) : 2 * (2 : ℚ) ^ (e - 2) ≤ 2 ^ (k - 2) := by
  rw [← zpow_one_add₀ two_ne_zero]
  exact zpow_le_zpow_right₀ one_le_two (by omega)

/-- No number is read as each of two floats of a format, one of which is less. -/
theorem not_readAs_of_lt (hdigits : 0 < f.digits) {a b : Bool}
    (hm : f.holds (.finite a m e) = true) (hn : f.holds (.finite b n k) = true)
    (hlt : (m : ℚ) * 2 ^ e < n * 2 ^ k) (h : f.ReadAs m e q) : ¬f.ReadAs n k q := by
  intro h'
  rw [holds_finite_iff] at hm hn
  obtain ⟨hm, hme, -, hmfull⟩ := hm
  obtain ⟨hn, hnk, -, hnfull⟩ := hn
  obtain ⟨p, hp⟩ : ∃ p, f.digits = p + 1 := ⟨f.digits - 1, by omega⟩
  rw [hp, pow_succ] at hm hn
  rw [hp, Nat.add_sub_cancel] at hmfull hnfull
  rw [two_zpow_quarter, two_zpow_quarter k] at hlt
  have hlowEnd : f.lowEnd n k = if n = 2 ^ p ∧ f.least < k then 4 * n - 1 else 4 * n - 2 := by
    rw [lowEnd, hp, Nat.add_sub_cancel]
  have hU : (0 : ℚ) < 2 ^ (e - 2) := by positivity
  have hhigh := h.high
  have hlow := h'.low
  rcases lt_trichotomy k e with hke | rfl | hek
  · -- the greater exponent makes the greater float
    have hfull : 2 ^ p ≤ m := hmfull.resolve_right (by omega)
    have hmn : n ≤ 2 * m := by omega
    have hpow := two_mul_zpow_le hke
    have hmn' : (n : ℚ) ≤ 2 * m := by exact_mod_cast hmn
    have hV : (0 : ℚ) < 2 ^ (k - 2) := by positivity
    nlinarith [mul_le_mul_of_nonneg_right hmn' hV.le,
      mul_le_mul_of_nonneg_left hpow (Nat.cast_nonneg (α := ℚ) m)]
  · have hmn : m < n := by
      have hcast : (m : ℚ) < n := by nlinarith
      exact_mod_cast hcast
    have hend : f.lowEnd n k = 4 * n - 2 := by
      rw [hlowEnd, if_neg]
      omega
    rw [hend] at hlow
    have hle : 4 * n - 2 ≤ 4 * m + 2 := by
      have hcast := le_of_mul_le_mul_right (hlow.trans hhigh) hU
      exact_mod_cast hcast
    obtain rfl : n = m + 1 := by omega
    -- the ends meet, and one of the two floats does not reach its end
    have hmeet : 4 * (m + 1) - 2 = 4 * m + 2 := by omega
    rcases Nat.mod_two_eq_zero_or_one m with heven | hodd
    · have hstrict := (h'.odd (by omega)).1
      rw [hend, hmeet] at hstrict
      exact absurd hhigh (not_le.mpr hstrict)
    · have hstrict := (h.odd hodd).2
      rw [hmeet] at hlow
      exact absurd hlow (not_le.mpr hstrict)
  · have hfull : 2 ^ p ≤ n := hnfull.resolve_right (by omega)
    have hend : 4 * 2 ^ p - 1 ≤ f.lowEnd n k := by
      rw [hlowEnd]
      split <;> omega
    have hscaled : ((8 * 2 ^ p - 2 : ℕ) : ℚ) * 2 ^ (e - 2) ≤ q := by
      calc ((8 * 2 ^ p - 2 : ℕ) : ℚ) * 2 ^ (e - 2)
          = ((4 * 2 ^ p - 1 : ℕ) : ℚ) * (2 * 2 ^ (e - 2)) := by
            rw [show 8 * 2 ^ p - 2 = (4 * 2 ^ p - 1) * 2 by omega]
            push_cast
            ring
        _ ≤ f.lowEnd n k * 2 ^ (k - 2) :=
            mul_le_mul (by exact_mod_cast hend) (two_mul_zpow_le hek) (by positivity)
              (Nat.cast_nonneg _)
        _ ≤ q := hlow
    rcases Nat.lt_or_ge (m + 1) (2 ^ p * 2) with hless | hmost
    · have hcast := le_of_mul_le_mul_right (hscaled.trans hhigh) hU
      have hle : 8 * 2 ^ p - 2 ≤ 4 * m + 2 := by exact_mod_cast hcast
      omega
    · -- all digits are ones, so the upper end is not reached
      have hstrict := (h.odd (by omega)).2
      rw [show 4 * m + 2 = 8 * 2 ^ p - 2 by omega] at hstrict
      exact absurd hscaled (not_le.mpr hstrict)

/-- Floats of a format that one number is read as have the same value. -/
theorem eq_of_readAs (hdigits : 0 < f.digits) {a b : Bool}
    (hm : f.holds (.finite a m e) = true) (hn : f.holds (.finite b n k) = true)
    (h : f.ReadAs m e q) (h' : f.ReadAs n k q) : (m : ℚ) * 2 ^ e = n * 2 ^ k := by
  rcases lt_trichotomy ((m : ℚ) * 2 ^ e) (n * 2 ^ k) with hlt | heq | hgt
  · exact absurd h' (not_readAs_of_lt hdigits hm hn hlt h)
  · exact heq
  · exact absurd h (not_readAs_of_lt hdigits hn hm hgt h')

end Format

namespace Binary
open Decimal Format

variable {f : Format} {m : ℕ} {e : ℤ}

/-- The text of a finite float is its sign and what is read as a number read as the float. -/
theorem text_finite (style : FloatStyle) (f : Format) (negative : Bool) (m : ℕ) (e : ℤ) :
    ∃ cs q, Literal.sign (text style f (.finite negative m e)).toList = (negative, cs) ∧
      Reads cs q ∧ (if m = 0 then q = 0 else f.ReadAs m e q) := by
  have hsign : (if negative then "-" else "").toList = if negative then ['-'] else [] := by
    cases negative <;> rfl
  rw [text, String.toList_append, hsign]
  by_cases hm : m = 0
  · have hread : Reads ['0', '.', '0'] 0 := ⟨0, -1, by decide, by norm_num⟩
    rw [if_pos hm]
    exact ⟨_, 0, sign_of_reads hread negative, hread, by rw [if_pos hm]⟩
  · have hshort := shortest_readAs (f := f) (e := e) style.tieUp (Nat.pos_of_ne_zero hm)
    rw [if_neg hm, String.toList_ofList]
    have hread := reads_written (shortest f style.tieUp m e)
      (style.positional (shortest f style.tieUp m e).leadingExponent)
    exact ⟨_, _, sign_of_reads hread negative, hread, by rw [if_neg hm]; exact hshort⟩

theorem pos_of_readAs {q : ℚ} (hm : m ≠ 0) (h : f.ReadAs m e q) : 0 < q := by
  have hend : 0 < f.lowEnd m e := by
    rw [Format.lowEnd]
    split <;> omega
  refine lt_of_lt_of_le ?_ h.low
  have hcast : (0 : ℚ) < f.lowEnd m e := by exact_mod_cast hend
  positivity

/-- Floats of a format have the same text only when they have the same value. -/
theorem quantity_eq_of_text (hdigits : 0 < f.digits) {x y : Binary} (hx : f.holds x = true)
    (hy : f.holds y = true) (h : x.text .shown f = y.text .shown f) :
    x.quantity = y.quantity := by
  replace h : Literal.sign (x.text .shown f).toList = Literal.sign (y.text .shown f).toList := by
    rw [h]
  have hnan : Literal.sign (text .shown f .nan).toList = (false, ['N', 'a', 'N']) := by
    rw [text]
    decide
  have hinf (negative : Bool) : Literal.sign (text .shown f (.infinite negative)).toList =
      (negative, ['i', 'n', 'f']) := by
    rw [text]
    cases negative <;> decide
  -- only a finite float has a text that is read as a number
  have hnumber (negative : Bool) (m : ℕ) (e : ℤ) (sign : Bool) (c : Char) (cs : List Char)
      (hdigit : c.isDigit = false) (hpoint : c ≠ '.') :
      Literal.sign (text .shown f (.finite negative m e)).toList ≠ (sign, c :: cs) := by
    obtain ⟨ds, q, htext, hread, -⟩ := text_finite .shown f negative m e
    rw [htext, Ne, Prod.mk.injEq]
    rintro ⟨-, rfl⟩
    exact not_reads hdigit hpoint hread
  cases x with
  | nan =>
    cases y with
    | nan => rfl
    | infinite b => simp [hnan, hinf] at h
    | finite b n k => exact absurd (h.symm.trans hnan) (hnumber b n k _ _ _ (by decide) (by decide))
  | infinite a =>
    cases y with
    | nan => simp [hnan, hinf] at h
    | infinite b =>
      rw [hinf, hinf, Prod.mk.injEq] at h
      rw [h.1]
    | finite b n k =>
      exact absurd (h.symm.trans (hinf a)) (hnumber b n k _ _ _ (by decide) (by decide))
  | finite a m e =>
    cases y with
    | nan => exact absurd (h.trans hnan) (hnumber a m e _ _ _ (by decide) (by decide))
    | infinite b => exact absurd (h.trans (hinf b)) (hnumber a m e _ _ _ (by decide) (by decide))
    | finite b n k =>
      obtain ⟨cs, q, htext, hread, hq⟩ := text_finite .shown f a m e
      obtain ⟨ds, p, htext', hread', hp⟩ := text_finite .shown f b n k
      rw [htext, htext', Prod.mk.injEq] at h
      obtain ⟨rfl, rfl⟩ := h
      obtain rfl := reads_unique hread hread'
      have hvalue : (m : ℚ) * 2 ^ e = n * 2 ^ k := by
        split at hq <;> split at hp
        next hm hn => rw [hm, hn, Nat.cast_zero, zero_mul, zero_mul]
        next hm hn => exact absurd hq (pos_of_readAs hn hp).ne'
        next hm hn => exact absurd hp (pos_of_readAs hm hq).ne'
        next hm hn => exact Format.eq_of_readAs hdigits hx hy hq hp
      have hsigned (m : ℕ) (e : ℤ) :
          (signed a m : ℚ) * 2 ^ e = (if a then -1 else 1) * (m * 2 ^ e) := by
        cases a <;> simp [signed]
      rw [quantity, quantity, hsigned, hsigned, hvalue]

/-- The text of a float has something that no integer has. -/
theorem mem_text (f : Format) (x : Binary) :
    (∃ c ∈ (x.text .shown f).toList, c.isDigit = false ∧ c ≠ '-') ∧
      ∀ c ∈ (x.text .shown f).toList, isNumeral c = true := by
  cases x with
  | nan =>
    rw [text]
    exact ⟨⟨'N', by decide, by decide, by decide⟩, List.all_eq_true.mp (by decide)⟩
  | infinite negative =>
    rw [text]
    refine ⟨⟨'i', ?_, by decide, by decide⟩, List.all_eq_true.mp ?_⟩ <;> cases negative <;> decide
  | finite negative m e =>
    have hsign : ∀ c ∈ (if negative then "-" else "").toList, isNumeral c = true :=
      List.all_eq_true.mp (by cases negative <;> decide)
    rw [text, String.toList_append, List.forall_mem_append]
    by_cases hm : m = 0
    · rw [if_pos hm]
      exact ⟨⟨'.', List.mem_append_right _ (by decide), by decide, by decide⟩, hsign,
        List.all_eq_true.mp (by decide)⟩
    · rw [if_neg hm, String.toList_ofList]
      obtain ⟨⟨c, hc, hmark⟩, hall⟩ := mem_written (shortest f FloatStyle.shown.tieUp m e)
        (FloatStyle.shown.positional (shortest f FloatStyle.shown.tieUp m e).leadingExponent)
      exact ⟨⟨c, List.mem_append_right _ hc, hmark⟩, hsign, hall⟩

end Binary
end TestBench
