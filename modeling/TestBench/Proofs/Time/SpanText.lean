import Mathlib.Data.List.TakeWhile
import TestBench.Proofs.Number.DecimalText
import TestBench.Time.Span

/-! The text of a length of time. It is a decimal that reads as the number of units, and the unit
behind it, so that no two lengths share a text. -/
namespace TestBench
open Literal

namespace Decimal

variable {whole fraction : List Char}

theorem reads_whole (hwhole : ∀ c ∈ whole, c.isDigit = true) (hne : whole ≠ []) :
    Reads whole (ofDigits whole) :=
  ⟨ofDigits whole, 0, decimal?_digits hwhole hne, by simp⟩

/-- Digits behind a point, so many of them, count that many tenths of tenths. -/
theorem reads_fraction (hwhole : ∀ c ∈ whole, c.isDigit = true) (hne : whole ≠ [])
    (hfraction : ∀ c ∈ fraction, c.isDigit = true) :
    Reads (whole ++ '.' :: fraction)
      (ofDigits whole + ofDigits fraction / 10 ^ fraction.length) := by
  have hten : (10 : ℚ) ^ fraction.length ≠ 0 := by positivity
  have hread := reads_point whole fraction hwhole hne hfraction
  rw [ofDigits_append, zpow_neg, zpow_natCast, ← div_eq_mul_inv] at hread
  convert hread using 1
  push_cast
  rw [add_div, mul_div_cancel_right₀ _ hten]

end Decimal

namespace Span
open Decimal

variable {width n : Nat}

theorem isDigit_padLeft : ∀ c ∈ padLeft width n, c.isDigit = true :=
  List.forall_mem_append.mpr ⟨isDigit_zeros _, isDigit_toDigits⟩

theorem padLeft_ne_nil : padLeft width n ≠ [] :=
  List.append_ne_nil_of_right_ne_nil _ Nat.toDigits_ne_nil

/-- Zeros in front change nothing. -/
theorem ofDigits_padLeft (width n : Nat) : ofDigits (padLeft width n) = n := by
  show ofDigits (zeros _ ++ _) = n
  rw [ofDigits_append, ofDigits_zeros, ofDigits_toDigits, zero_mul, zero_add]

theorem length_padLeft (hwidth : 0 < width) (h : n < 10 ^ width) :
    (padLeft width n).length = width := by
  have hlength : (Nat.toDigits 10 n).length ≤ width :=
    (Nat.length_toDigits_le_iff (by decide) hwidth).mpr h
  rw [padLeft, List.length_append, List.length_replicate, Nat.sub_add_cancel hlength]

theorem exists_zeros (cs : List Char) :
    ∃ k, cs = (cs.reverse.dropWhile (· == '0')).reverse ++ zeros k := by
  have hzeros : cs.reverse.takeWhile (· == '0') =
      zeros (cs.reverse.takeWhile (· == '0')).length :=
    List.eq_replicate_iff.mpr ⟨rfl, fun c hc => by simpa using List.mem_takeWhile_imp hc⟩
  have hsplit := congrArg List.reverse
    (List.takeWhile_append_dropWhile (p := (· == '0')) (l := cs.reverse))
  rw [List.reverse_append, List.reverse_reverse, hzeros, zeros, List.reverse_replicate] at hsplit
  exact ⟨_, hsplit.symm⟩

/-- The digits that are left of a fraction when zeros at its end are dropped. -/
def trimmed (places rest : Nat) : List Char :=
  ((padLeft places rest).reverse.dropWhile (· == '0')).reverse

theorem toList_withPoint (places n : Nat) :
    (withPoint places n).toList = Nat.toDigits 10 (n / 10 ^ places) ++
      if n % 10 ^ places = 0 then [] else '.' :: trimmed places (n % 10 ^ places) := by
  rw [withPoint, String.toList_append, toList_toString]
  split
  · rfl
  · simp [trimmed]

theorem isDigit_trimmed {places rest : Nat} : ∀ c ∈ trimmed places rest, c.isDigit = true := by
  intro c hc
  obtain ⟨k, hk⟩ := exists_zeros (padLeft places rest)
  exact isDigit_padLeft c (hk ▸ List.mem_append_left _ hc)

/-- Dropping zeros at its end does not change a fraction. -/
theorem ofDigits_trimmed {places rest : Nat} (hplaces : 0 < places) (h : rest < 10 ^ places) :
    (ofDigits (trimmed places rest) : ℚ) / 10 ^ (trimmed places rest).length =
      rest / 10 ^ places := by
  obtain ⟨k, hk⟩ := exists_zeros (padLeft places rest)
  have hlength : places = (trimmed places rest).length + k := by
    rw [← length_zeros k, trimmed, ← List.length_append, ← hk, length_padLeft hplaces h]
  have hvalue : rest = ofDigits (trimmed places rest) * 10 ^ k := by
    have hread := congrArg ofDigits hk
    rwa [ofDigits_padLeft, ofDigits_append, ofDigits_zeros, length_zeros, add_zero] at hread
  have hten : (10 : ℚ) ^ k ≠ 0 := by positivity
  generalize trimmed places rest = digits at hlength hvalue ⊢
  rw [hlength, hvalue, pow_add]
  push_cast
  rw [mul_div_mul_right _ _ hten]

/-- The text of a number of units and a fraction reads as both together. -/
theorem reads_withPoint (places n : Nat) :
    Reads (withPoint places n).toList (n / 10 ^ places) := by
  have hten : (10 : ℚ) ^ places ≠ 0 := by positivity
  have hsum : (n : ℚ) / 10 ^ places =
      (n / 10 ^ places : Nat) + (n % 10 ^ places : Nat) / 10 ^ places := by
    rw [← mul_div_cancel_right₀ ((n / 10 ^ places : Nat) : ℚ) hten, ← add_div,
      div_left_inj' hten]
    exact_mod_cast (Nat.div_add_mod' n (10 ^ places)).symm
  rw [toList_withPoint, hsum]
  split
  next hzero =>
    have hread := reads_whole (isDigit_toDigits (n := n / 10 ^ places)) Nat.toDigits_ne_nil
    rw [ofDigits_toDigits] at hread
    simpa [hzero] using hread
  next hrest =>
    have hplaces : 0 < places := by
      rcases places with _ | places
      · exact absurd (Nat.mod_one n) hrest
      · exact Nat.succ_pos _
    have hlt : n % 10 ^ places < 10 ^ places := Nat.mod_lt _ (by positivity)
    have hdigits : ∀ c ∈ trimmed places (n % 10 ^ places), c.isDigit = true := isDigit_trimmed
    have hread := reads_fraction (isDigit_toDigits (n := n / 10 ^ places)) Nat.toDigits_ne_nil
      hdigits
    rwa [ofDigits_toDigits, ofDigits_trimmed hplaces hlt] at hread

/-- What a number of units consists of. -/
def isTextChar (c : Char) : Bool := c.isDigit || c == '.'

theorem isTextChar_of_mem_withPoint {places n : Nat} :
    ∀ c ∈ (withPoint places n).toList, isTextChar c = true := by
  have hdigit (cs : List Char) (h : ∀ c ∈ cs, c.isDigit = true) (c : Char) (hc : c ∈ cs) :
      isTextChar c = true := by
    rw [isTextChar, h c hc, Bool.true_or]
  rw [toList_withPoint, List.forall_mem_append]
  refine ⟨hdigit _ isDigit_toDigits, ?_⟩
  split
  · exact List.forall_mem_nil _
  · exact List.forall_mem_cons.mpr ⟨rfl, hdigit _ isDigit_trimmed⟩

/-- The units of a text, with the places that a nanosecond has behind them. -/
def units : List (Nat × String) := [(9, "s"), (6, "ms"), (3, "µs"), (0, "ns")]

theorem units_told_apart : ∀ u ∈ units, ∀ v ∈ units, u.2.toList = v.2.toList → u = v := by
  decide

theorem takeWhile_dropWhile_unit : ∀ u ∈ units,
    u.2.toList.takeWhile isTextChar = [] ∧ u.2.toList.dropWhile isTextChar = u.2.toList := by
  decide

theorem exists_unit (s : Span) : ∃ u ∈ units, s.text = withPoint u.1 s.nanos ++ u.2 := by
  have hwhole : toString s.nanos = withPoint 0 s.nanos := by
    simp [withPoint, Nat.mod_one]
  rw [text]
  split
  · exact ⟨(9, "s"), by decide, rfl⟩
  · split
    · exact ⟨(6, "ms"), by decide, rfl⟩
    · split
      · exact ⟨(3, "µs"), by decide, rfl⟩
      · exact ⟨(0, "ns"), by decide, by rw [hwhole]⟩

/-- A text is told apart into its number and its unit. -/
theorem parts_text {s : Span} {u : Nat × String} (hu : u ∈ units)
    (h : s.text = withPoint u.1 s.nanos ++ u.2) :
    s.text.toList.takeWhile isTextChar = (withPoint u.1 s.nanos).toList ∧
      s.text.toList.dropWhile isTextChar = u.2.toList := by
  obtain ⟨htake, hdrop⟩ := takeWhile_dropWhile_unit u hu
  rw [h, String.toList_append, List.takeWhile_append_of_pos isTextChar_of_mem_withPoint,
    List.dropWhile_append_of_pos isTextChar_of_mem_withPoint, htake, hdrop, List.append_nil]
  exact ⟨rfl, rfl⟩

/-- No two lengths of time share a text. -/
theorem text_injective : Function.Injective text := fun s t h => by
  obtain ⟨u, hu, hs⟩ := s.exists_unit
  obtain ⟨v, hv, ht⟩ := t.exists_unit
  obtain ⟨hnumber, hunit⟩ := parts_text hu hs
  obtain ⟨hnumber', hunit'⟩ := parts_text hv ht
  rw [h, hunit'] at hunit
  obtain rfl := units_told_apart v hv u hu hunit
  rw [h, hnumber'] at hnumber
  have hread := reads_withPoint v.1 s.nanos
  rw [← hnumber] at hread
  have hten : (10 : ℚ) ^ v.1 ≠ 0 := by positivity
  have hvalue := (div_left_inj' hten).mp (reads_unique hread (reads_withPoint v.1 t.nanos))
  cases s
  cases t
  exact congrArg Span.mk (Nat.cast_injective hvalue)

/-- Surplus nanoseconds are carried over, as long as the seconds have 64 bits. -/
theorem ofParts?_cases (s k : Nat) :
    s + k / 1000000000 < 2 ^ 64 ∧ ofParts? s k = some ⟨s * 1000000000 + k⟩ ∨
      2 ^ 64 ≤ s + k / 1000000000 ∧ ofParts? s k = none := by
  have hseconds : (mk (s * 1000000000 + k)).seconds = s + k / 1000000000 := by
    show (s * 1000000000 + k) / 1000000000 = _
    omega
  rw [ofParts?, hseconds]
  rcases Nat.lt_or_ge (s + k / 1000000000) (2 ^ 64) with h | h
  · exact .inl ⟨h, if_pos h⟩
  · exact .inr ⟨h, if_neg (Nat.not_lt.mpr h)⟩

end Span
end TestBench
