import Mathlib.Tactic
import TestBench.Number.Layout
import TestBench.Proofs.Text.Pieces

/-! The text of a decimal is read as its value, whether it is written positionally or with an
exponent. -/
namespace TestBench

namespace Literal

variable {rest : List Char} {e : Int}

theorem isDigit_toDigits {n : Nat} : ∀ c ∈ Nat.toDigits 10 n, c.isDigit = true :=
  fun _ hc => Nat.isDigit_of_mem_toDigits (by decide) (by decide) hc

theorem sign_of_digits {ds : List Char} (h : ∀ c ∈ ds, c.isDigit = true) :
    sign ds = (false, ds) := by
  unfold sign
  split
  next cs => exact absurd (h '-' List.mem_cons_self) (by decide)
  next cs => exact absurd (h '+' List.mem_cons_self) (by decide)
  next => rfl

theorem sign_toString (n : Int) :
    sign (toString n).toList = (decide (n < 0), Nat.toDigits 10 n.natAbs) := by
  cases n with
  | ofNat n =>
    have htext : toString (Int.ofNat n) = toString n := rfl
    rw [htext, toList_toString, sign_of_digits isDigit_toDigits]
    simp
  | negSucc n =>
    have htext : toString (Int.negSucc n) = "-" ++ toString (n + 1) := rfl
    rw [htext, String.toList_append, toList_toString]
    simp [sign, Int.negSucc_lt_zero]

theorem signed_natAbs (n : Int) : signed (decide (n < 0)) n.natAbs = n := by
  by_cases h : n < 0
  · rw [decide_eq_true h, signed, if_pos rfl]
    omega
  · rw [decide_eq_false h, signed, if_neg (by decide)]
    omega

theorem natAbs_signed (negative : Bool) (k : ℕ) : (signed negative k).natAbs = k := by
  cases negative <;> simp [signed]

theorem decide_signed_neg {negative : Bool} {k : ℕ} (h : signed negative k ≠ 0) :
    decide (signed negative k < 0) = negative := by
  cases negative with
  | false => simp [signed]
  | true =>
    have hk : 0 < k := by
      rw [Nat.pos_iff_ne_zero]
      rintro rfl
      exact h rfl
    simpa [signed] using hk

theorem exponent?_toString (n : Int) : exponent? ('e' :: (toString n).toList) = some n := by
  rw [exponent?, if_pos (.inl rfl), sign_toString]
  simp [digits?_toDigits, signed_natAbs]

theorem toString_int_injective : Function.Injective (toString : ℤ → String) := fun m n h => by
  have hread := exponent?_toString m
  rw [h, exponent?_toString, Option.some_inj] at hread
  exact hread.symm

theorem takeWhile_dropWhile_digits {whole : List Char} (hwhole : ∀ c ∈ whole, c.isDigit = true)
    (hrest : rest.takeWhile Char.isDigit = []) :
    (whole ++ rest).takeWhile Char.isDigit = whole ∧
      (whole ++ rest).dropWhile Char.isDigit = rest := by
  have hdrop : rest.dropWhile Char.isDigit = rest := by
    simpa [hrest] using List.takeWhile_append_dropWhile (p := Char.isDigit) (l := rest)
  rw [List.takeWhile_append_of_pos hwhole, List.dropWhile_append_of_pos hwhole, hrest, hdrop,
    List.append_nil]
  exact ⟨rfl, rfl⟩

theorem decimal?_point (whole fraction : List Char) (hwhole : ∀ c ∈ whole, c.isDigit = true)
    (hne : whole ≠ []) (hfraction : ∀ c ∈ fraction, c.isDigit = true)
    (hrest : rest.takeWhile Char.isDigit = []) (he : exponent? rest = some e) :
    decimal? (whole ++ '.' :: (fraction ++ rest)) =
      some (ofDigits (whole ++ fraction), e - fraction.length) := by
  have hpoint : ('.' :: (fraction ++ rest)).takeWhile Char.isDigit = [] := rfl
  obtain ⟨htake, hdrop⟩ := takeWhile_dropWhile_digits hwhole hpoint
  obtain ⟨htake', hdrop'⟩ := takeWhile_dropWhile_digits hfraction hrest
  simp [decimal?, htake, hdrop, htake', hdrop', hne, he]

theorem decimal?_whole (whole : List Char) (hwhole : ∀ c ∈ whole, c.isDigit = true)
    (hne : whole ≠ []) (he : exponent? ('e' :: rest) = some e) :
    decimal? (whole ++ 'e' :: rest) = some (ofDigits whole, e) := by
  have hmark : ('e' :: rest).takeWhile Char.isDigit = [] := rfl
  obtain ⟨htake, hdrop⟩ := takeWhile_dropWhile_digits hwhole hmark
  simp [decimal?, htake, hdrop, hne, he]

theorem decimal?_digits {whole : List Char} (hwhole : ∀ c ∈ whole, c.isDigit = true)
    (hne : whole ≠ []) : decimal? whole = some (ofDigits whole, 0) := by
  have hend : ([] : List Char).takeWhile Char.isDigit = [] := rfl
  obtain ⟨htake, hdrop⟩ := takeWhile_dropWhile_digits hwhole hend
  rw [List.append_nil] at htake hdrop
  simp [decimal?, htake, hdrop, hne, exponent?]

theorem decimal?_eq_none {c : Char} {cs : List Char} (hdigit : c.isDigit = false)
    (hpoint : c ≠ '.') : decimal? (c :: cs) = none := by
  simp [decimal?, hdigit, hpoint]

end Literal

namespace Decimal
open Literal

/-- The number that a decimal stands for. -/
def value (d : Decimal) : ℚ := d.digits * 10 ^ d.exponent

/-- Whether a text is read as this number. -/
def Reads (cs : List Char) (q : ℚ) : Prop :=
  ∃ n e, decimal? cs = some (n, e) ∧ (n : ℚ) * 10 ^ e = q

theorem reads_unique {cs : List Char} {p q : ℚ} (hp : Reads cs p) (hq : Reads cs q) : p = q := by
  obtain ⟨n, e, hn, rfl⟩ := hp
  obtain ⟨m, k, hm, rfl⟩ := hq
  rw [hn, Option.some_inj, Prod.mk.injEq] at hm
  rw [hm.1, hm.2]

theorem not_reads {c : Char} {cs : List Char} {q : ℚ} (hdigit : c.isDigit = false)
    (hpoint : c ≠ '.') : ¬Reads (c :: cs) q := by
  rintro ⟨n, e, hn, -⟩
  rw [decimal?_eq_none hdigit hpoint] at hn
  cases hn

theorem sign_of_reads {cs : List Char} {q : ℚ} (h : Reads cs q) (negative : Bool) :
    sign ((if negative then ['-'] else []) ++ cs) = (negative, cs) := by
  cases negative with
  | true => rfl
  | false =>
    unfold sign
    split
    next rest hrest =>
      have hcs : cs = '-' :: rest := hrest
      exact absurd (hcs ▸ h) (not_reads (by decide) (by decide))
    next rest hrest =>
      have hcs : cs = '+' :: rest := hrest
      exact absurd (hcs ▸ h) (not_reads (by decide) (by decide))
    next => rfl

theorem isDigit_zeros (n : Nat) : ∀ c ∈ zeros n, c.isDigit = true := by
  intro c hc
  rw [List.eq_of_mem_replicate hc]
  rfl

theorem ofDigits_append (as bs : List Char) :
    ofDigits (as ++ bs) = ofDigits as * 10 ^ bs.length + ofDigits bs := by
  rw [ofDigits_eq, ofDigits_eq, ofDigits_eq, Nat.ofDigitChars_append,
    Nat.ofDigitChars_eq_ofDigitChars_zero, Nat.mul_comm]

theorem ofDigits_zeros (n : Nat) : ofDigits (zeros n) = 0 := by
  rw [ofDigits_eq, zeros, Nat.ofDigitChars_replicate_zero, Nat.mul_zero]

theorem length_zeros (n : Nat) : (zeros n).length = n := List.length_replicate

theorem reads_point (whole fraction : List Char) (hwhole : ∀ c ∈ whole, c.isDigit = true)
    (hne : whole ≠ []) (hfraction : ∀ c ∈ fraction, c.isDigit = true) :
    Reads (whole ++ '.' :: fraction)
      (ofDigits (whole ++ fraction) * 10 ^ (-(fraction.length : ℤ))) := by
  have hparse := decimal?_point whole fraction hwhole hne hfraction
    (show [].takeWhile Char.isDigit = [] from rfl) rfl
  rw [List.append_nil, zero_sub] at hparse
  exact ⟨_, _, hparse, rfl⟩

theorem reads_positional (d : Decimal) : Reads d.positional d.value := by
  have hdigits := isDigit_toDigits (n := d.digits)
  have hread : ofDigits (Nat.toDigits 10 d.digits) = d.digits := ofDigits_toDigits d.digits
  unfold positional
  dsimp only
  split
  next hpos =>
    -- the zeros stand for the power of ten, one more follows the point
    have htext := reads_point (Nat.toDigits 10 d.digits ++ zeros d.exponent.toNat) ['0']
      (List.forall_mem_append.mpr ⟨hdigits, isDigit_zeros _⟩)
      (by simp [Nat.toDigits_ne_nil]) (List.forall_mem_singleton.mpr rfl)
    have hzero : ofDigits ['0'] = 0 := rfl
    have hexponent : (10 : ℚ) ^ d.exponent = 10 ^ d.exponent.toNat := by
      rw [← zpow_natCast, Int.toNat_of_nonneg hpos]
    rw [ofDigits_append, ofDigits_append, hread, ofDigits_zeros, hzero, length_zeros] at htext
    convert htext using 1
    rw [value, hexponent]
    push_cast
    norm_num
    ring
  next hneg =>
    have hexponent : d.exponent = -((-d.exponent).toNat : ℤ) := by omega
    generalize (-d.exponent).toNat = n at hexponent
    split
    next hshort =>
      have htext := reads_point
        ((Nat.toDigits 10 d.digits).take ((Nat.toDigits 10 d.digits).length - n))
        ((Nat.toDigits 10 d.digits).drop ((Nat.toDigits 10 d.digits).length - n))
        (fun c hc => hdigits c (List.mem_of_mem_take hc)) (by simp; omega)
        (fun c hc => hdigits c (List.mem_of_mem_drop hc))
      rw [List.take_append_drop, hread, List.length_drop, Nat.sub_sub_self hshort.le,
        ← hexponent] at htext
      exact htext
    next hlong =>
      have htext := reads_point ['0']
        (zeros (n - (Nat.toDigits 10 d.digits).length) ++ Nat.toDigits 10 d.digits)
        (List.forall_mem_singleton.mpr rfl) (List.cons_ne_nil _ _)
        (List.forall_mem_append.mpr ⟨isDigit_zeros _, hdigits⟩)
      have hnone : ofDigits (['0'] ++ zeros (n - (Nat.toDigits 10 d.digits).length)) = 0 :=
        ofDigits_zeros (n - (Nat.toDigits 10 d.digits).length + 1)
      rw [← List.append_assoc, ofDigits_append, hread, hnone, zero_mul, zero_add,
        List.length_append, length_zeros, Nat.sub_add_cancel (not_lt.mp hlong),
        ← hexponent] at htext
      exact htext

theorem reads_scientific (d : Decimal) : Reads d.scientific d.value := by
  have hdigits := isDigit_toDigits (n := d.digits)
  have hread : ofDigits (Nat.toDigits 10 d.digits) = d.digits := ofDigits_toDigits d.digits
  have hexponent := exponent?_toString d.leadingExponent
  unfold scientific
  dsimp only
  split
  next c hc =>
    rw [hc] at hdigits hread
    refine ⟨_, _, decimal?_whole [c] hdigits (List.cons_ne_nil _ _) hexponent, ?_⟩
    rw [hread, value, leadingExponent, hc]
    simp
  next c rest _ hc =>
    rw [hc, List.forall_mem_cons] at hdigits
    rw [hc] at hread
    refine ⟨_, _, decimal?_point [c] rest (List.forall_mem_singleton.mpr hdigits.1)
      (List.cons_ne_nil _ _) hdigits.2 rfl hexponent, ?_⟩
    rw [List.singleton_append, hread, value, leadingExponent, hc, List.length_cons]
    congr 2
    push_cast
    ring
  next hnil => exact absurd hnil Nat.toDigits_ne_nil

theorem mem_toString {n : ℤ} {c : Char} (h : c ∈ (toString n).toList) :
    c = '-' ∨ c.isDigit = true := by
  cases n with
  | ofNat n =>
    have htext : toString (Int.ofNat n) = toString n := rfl
    exact .inr (isDigit_of_mem_toString (htext ▸ h))
  | negSucc n =>
    have htext : toString (Int.negSucc n) = "-" ++ toString (n + 1) := rfl
    rw [htext, String.toList_append] at h
    rcases List.mem_append.mp h with h | h
    · exact .inl (List.mem_singleton.mp h)
    · exact .inr (isDigit_of_mem_toString h)

/-- What a positional text consists of, a point among it. -/
theorem mem_positional (d : Decimal) :
    '.' ∈ d.positional ∧ ∀ c ∈ d.positional, c = '.' ∨ c.isDigit = true := by
  have hdigits := isDigit_toDigits (n := d.digits)
  have hzeros := isDigit_zeros
  have hzero (c : Char) (hc : c = '0') : c.isDigit = true := hc ▸ rfl
  unfold positional
  dsimp only
  split
  next => exact ⟨by simp, by grind⟩
  next =>
    split
    next => exact ⟨by simp, by grind [List.mem_of_mem_take, List.mem_of_mem_drop]⟩
    next => exact ⟨by simp, by grind⟩

/-- What a text with an exponent consists of, the mark of the exponent among it. -/
theorem mem_scientific (d : Decimal) :
    'e' ∈ d.scientific ∧
      ∀ c ∈ d.scientific, c = '.' ∨ c = 'e' ∨ c = '-' ∨ c.isDigit = true := by
  have hdigits := isDigit_toDigits (n := d.digits)
  have hexponent (c : Char) (hc : c ∈ (toString d.leadingExponent).toList) :=
    mem_toString hc
  unfold scientific
  dsimp only
  split
  next c hc => exact ⟨by simp, by grind⟩
  next c rest _ hc => exact ⟨by simp, by grind⟩
  next hnil => exact absurd hnil Nat.toDigits_ne_nil

theorem reads_written (d : Decimal) (positional : Bool) :
    Reads (if positional then d.positional else d.scientific) d.value := by
  cases positional
  · exact d.reads_scientific
  · exact d.reads_positional

/-- What the texts of numbers consist of. -/
def isNumeral (c : Char) : Bool :=
  c.isDigit || ['.', 'e', '-', 'N', 'a', 'i', 'n', 'f'].contains c

/-- The text of a decimal has something that no integer has. -/
theorem mem_written (d : Decimal) (positional : Bool) :
    (∃ c ∈ if positional then d.positional else d.scientific, c.isDigit = false ∧ c ≠ '-') ∧
      ∀ c ∈ if positional then d.positional else d.scientific, isNumeral c = true := by
  have hnumeral (c : Char) (hc : c = '.' ∨ c = 'e' ∨ c = '-' ∨ c.isDigit = true) :
      isNumeral c = true := by
    rcases hc with rfl | rfl | rfl | hc
    · decide
    · decide
    · decide
    · rw [isNumeral, hc, Bool.true_or]
  cases positional with
  | false =>
    obtain ⟨hexponent, hall⟩ := d.mem_scientific
    exact ⟨⟨'e', hexponent, by decide, by decide⟩, fun c hc => hnumeral c (hall c hc)⟩
  | true =>
    obtain ⟨hpoint, hall⟩ := d.mem_positional
    exact ⟨⟨'.', hpoint, by decide, by decide⟩,
      fun c hc => hnumeral c ((hall c hc).imp_right fun h => .inr (.inr h))⟩

end Decimal
end TestBench
