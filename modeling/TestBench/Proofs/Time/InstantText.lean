import TestBench.Proofs.Time.Calendar
import TestBench.Proofs.Time.SpanText

/-! The text of an instant. Its parts are told apart again, the date by the calendar and the seconds
by their value, so that no two instants share a text. -/
namespace TestBench
open Literal TestBench.Span

namespace Date

/-- What stands before the digits of a year. -/
def yearSign (year : Int) : List Char :=
  if 0 ≤ year ∧ year ≤ 9999 then [] else if year < 0 then ['-'] else ['+']

theorem toList_yearText (year : Int) :
    (yearText year).toList = yearSign year ++ padLeft 4 year.natAbs := by
  have hdigits (n : Nat) : (String.ofList (padLeft 4 n)).toList = padLeft 4 n :=
    String.toList_ofList
  rw [yearText, yearSign]
  split
  next h =>
    have habs : year.toNat = year.natAbs := by omega
    rw [hdigits, habs, List.nil_append]
  next =>
    rw [String.toList_append, hdigits]
    congr 1
    split <;> rfl

theorem sign_yearText (year : Int) :
    sign (yearText year).toList = (decide (year < 0), padLeft 4 year.natAbs) := by
  rw [toList_yearText, yearSign]
  split
  next h => rw [List.nil_append, sign_of_digits isDigit_padLeft, decide_eq_false (by omega)]
  next =>
    split
    next hneg => rw [decide_eq_true hneg, List.singleton_append, sign]
    next hpos => rw [decide_eq_false hpos, List.singleton_append, sign]

theorem yearText_injective : Function.Injective yearText := fun y z h => by
  have hread := sign_yearText y
  rw [h, sign_yearText, Prod.mk.injEq] at hread
  have habs : z.natAbs = y.natAbs := by
    rw [← ofDigits_padLeft 4 z.natAbs, hread.2, ofDigits_padLeft]
  rw [← signed_natAbs y, ← signed_natAbs z, hread.1, habs]

theorem mem_yearText {year : Int} {c : Char} (h : c ∈ (yearText year).toList) :
    c.isDigit = true ∨ c = '-' ∨ c = '+' := by
  rw [toList_yearText, yearSign, List.mem_append] at h
  rcases h with h | h
  · split at h
    · cases h
    · split at h
      · exact .inr (.inl (List.mem_singleton.mp h))
      · exact .inr (.inr (List.mem_singleton.mp h))
  · exact .inl (isDigit_padLeft c h)

end Date

namespace Instant

theorem toList_two (n : Nat) : (two n).toList = padLeft 2 n := String.toList_ofList

theorem length_two {n : Nat} (h : n < 100) : (two n).toList.length = 2 := by
  rw [toList_two, length_padLeft (by decide) (by simpa using h)]

theorem two_injective : Function.Injective two := fun m n h => by
  rw [← ofDigits_padLeft 2 m, ← toList_two, h, toList_two, ofDigits_padLeft]

theorem isDigit_two {n : Nat} : ∀ c ∈ (two n).toList, c.isDigit = true := by
  rw [toList_two]
  exact isDigit_padLeft

/-- The digits behind the point, three or six or nine of them, or none. -/
theorem fractionText_cases (nanos : Nat) :
    nanos = 0 ∧ fractionText nanos = "" ∨
      ∃ width k, 0 < width ∧ nanos = k * 10 ^ (9 - width) ∧ width ≤ 9 ∧
        fractionText nanos = "." ++ String.ofList (padLeft width k) := by
  rw [fractionText]
  split
  next h => exact .inl ⟨h, rfl⟩
  next =>
    refine .inr ?_
    split
    next h => exact ⟨3, nanos / 1000000, by decide, by omega, by decide, rfl⟩
    next =>
      split
      next h => exact ⟨6, nanos / 1000, by decide, by omega, by decide, rfl⟩
      next => exact ⟨9, nanos, by decide, by omega, by decide, rfl⟩

/-- Seconds and their fraction read as both together. -/
theorem reads_seconds {nanos : Nat} (h : nanos < 1000000000) (second : Nat) :
    Decimal.Reads (two second ++ fractionText nanos).toList (second + nanos / 1000000000) := by
  have hwhole : ofDigits (two second).toList = second := by rw [toList_two, ofDigits_padLeft]
  have hne : (two second).toList ≠ [] := toList_two second ▸ padLeft_ne_nil
  rcases fractionText_cases nanos with ⟨rfl, htext⟩ | ⟨width, k, hwidth, hnanos, hle, htext⟩
  · have hread := Decimal.reads_whole isDigit_two hne
    rw [hwhole] at hread
    simpa [htext] using hread
  · have hsplit : 1000000000 = 10 ^ width * 10 ^ (9 - width) := by
      rw [← pow_add, Nat.add_sub_cancel' hle]
      norm_num
    have hlt : k < 10 ^ width := by
      rw [hnanos, hsplit] at h
      exact Nat.lt_of_mul_lt_mul_right h
    have hvalue : (nanos : ℚ) / 1000000000 = k / 10 ^ width := by
      have hten : (10 : ℚ) ^ (9 - width) ≠ 0 := by positivity
      have hbillion : (1000000000 : ℚ) = 10 ^ width * 10 ^ (9 - width) := by exact_mod_cast hsplit
      rw [hbillion, hnanos, ← mul_div_mul_right (k : ℚ) _ hten]
      push_cast
      rfl
    have hlist : (two second ++ fractionText nanos).toList =
        (two second).toList ++ '.' :: padLeft width k := by
      simp [htext]
    have hdigits : ∀ c ∈ padLeft width k, c.isDigit = true := isDigit_padLeft
    have hread := Decimal.reads_fraction isDigit_two hne hdigits
    rw [hwhole, ofDigits_padLeft, length_padLeft hwidth hlt] at hread
    rwa [hlist, hvalue]

/-- Whether there is such an instant: only the last second of a minute can be a leap second. -/
structure OnCalendar (seconds : Int) (nanos : Nat) : Prop where
  year : yearInRange (Date.ofDays (seconds / 86400)).year = true
  nanos : nanos < 1000000000 ∨ nanos < 2000000000 ∧ seconds % 60 = 59

/-- The calendar goes from the year -262143 to the year 262142. -/
theorem onCalendar_iff {seconds : Int} {nanos : Nat} : OnCalendar seconds nanos ↔
    (-8334601228800 ≤ seconds ∧ seconds < 8210266876800) ∧
      (nanos < 1000000000 ∨ nanos < 2000000000 ∧ seconds % 60 = 59) := by
  have hyear : yearInRange (Date.ofDays (seconds / 86400)).year = true ↔
      -8334601228800 ≤ seconds ∧ seconds < 8210266876800 := by
    have hfirst : Date.daysBeforeYear (-262143) = -95746130 := by decide
    have hlast : Date.daysBeforeYear (262142 + 1) = 95745399 := by decide
    have hepoch : Date.daysBeforeYear 1970 = 719162 := by decide
    rw [yearInRange, Bool.and_eq_true, decide_eq_true_eq, decide_eq_true_eq,
      Date.year_ofDays_between, hfirst, hlast, hepoch]
    omega
  exact ⟨fun h => ⟨hyear.mp h.year, h.nanos⟩, fun h => ⟨hyear.mpr h.1, h.2⟩⟩

def dateText (x : Date) : String :=
  Date.yearText x.year ++ "-" ++ two x.month ++ "-" ++ two x.day

/-- The time of day; nanoseconds past a whole second count for one more. -/
def clockText (second nanos : Nat) : String :=
  two (second / 3600) ++ ":" ++ two (second / 60 % 60) ++ ":" ++
    (two (second % 60 + nanos / 1000000000) ++ fractionText (nanos % 1000000000))

variable {seconds : Int} {nanos : Nat}

theorem text?_eq_none (h : ¬OnCalendar seconds nanos) : text? seconds nanos = none := by
  rw [text?]
  refine if_pos ?_
  by_contra hopen
  simp only [Bool.or_eq_true, Bool.not_eq_true', decide_eq_true_eq, Bool.and_eq_true,
    bne_iff_ne, not_or, Bool.not_eq_false] at hopen
  exact h ⟨hopen.1.1, by omega⟩

theorem text?_eq_some (h : OnCalendar seconds nanos) :
    text? seconds nanos = some (dateText (Date.ofDays (seconds / 86400)) ++ "T" ++
      clockText (seconds % 86400).toNat nanos ++ "Z") := by
  obtain ⟨hyear, hnanos⟩ := h
  have hleap : (if 1000000000 ≤ nanos then 1 else 0) = nanos / 1000000000 ∧
      (if 1000000000 ≤ nanos then nanos - 1000000000 else nanos) = nanos % 1000000000 := by
    split <;> omega
  rw [text?]
  refine (if_neg ?_).trans (congrArg some ?_)
  · simp only [hyear, Bool.or_eq_true, decide_eq_true_eq, Bool.and_eq_true, bne_iff_ne]
    simp only [Bool.not_true, Bool.false_eq_true, false_or]
    omega
  · rw [hleap.1, hleap.2, dateText, clockText]
    simp only [String.append_assoc]

theorem notMem_two {c : Char} (h : c.isDigit = false) (n : Nat) :
    c ∉ (two n).toList := fun hc => by
  rw [isDigit_two c hc] at h
  cases h

theorem dateText_injective {x y : Date} (hx : x.Valid) (hy : y.Valid)
    (h : dateText x = dateText y) : x = y := by
  have hlist (z : Date) : (dateText z).toList = (Date.yearText z.year).toList ++
      ('-' :: (two z.month).toList ++ '-' :: (two z.day).toList) := by
    simp [dateText]
  have hlength {z : Date} (hz : z.Valid) :
      ('-' :: (two z.month).toList ++ '-' :: (two z.day).toList).length = 6 := by
    have hmonth := hz.month_le
    have hday := hz.day_lt
    simp [length_two (show z.month < 100 by omega), length_two (show z.day < 100 by omega)]
  have hchars := congrArg String.toList h
  rw [hlist, hlist] at hchars
  -- of the three parts only the year has no fixed width
  obtain ⟨hyear, hrest⟩ := List.append_inj' hchars ((hlength hx).trans (hlength hy).symm)
  obtain ⟨hmonth, hday⟩ := Text.append_cons_inj (notMem_two rfl _) (notMem_two rfl _)
    (List.cons.inj hrest).2
  rw [String.toList_inj] at hyear hmonth hday
  cases x
  cases y
  rw [Date.mk.injEq]
  exact ⟨Date.yearText_injective hyear, two_injective hmonth, two_injective hday⟩

/-- Whether nanoseconds go with a second: from a thousand million on they tell of a leap second. -/
def Fits (second nanos : Nat) : Prop :=
  nanos < 1000000000 ∨ nanos < 2000000000 ∧ second % 60 = 59

/-- Seconds and nanoseconds that come to the same are the same number of nanoseconds. -/
theorem total_of_reads {s n s' n' : Nat}
    (h : (s : ℚ) + n / 1000000000 = s' + n' / 1000000000) :
    s * 1000000000 + n = s' * 1000000000 + n' := by
  have hbillion : (1000000000 : ℚ) ≠ 0 := by norm_num
  have hmul := congrArg (· * (1000000000 : ℚ)) h
  simp only [add_mul, div_mul_cancel₀ _ hbillion] at hmul
  exact_mod_cast hmul

theorem clockText_injective {second second' nanos nanos' : Nat} (hfits : Fits second nanos)
    (hfits' : Fits second' nanos') (h : clockText second nanos = clockText second' nanos') :
    second = second' ∧ nanos = nanos' := by
  have hlist (s n : Nat) : (clockText s n).toList = (two (s / 3600)).toList ++ ':' ::
      ((two (s / 60 % 60)).toList ++ ':' ::
        (two (s % 60 + n / 1000000000) ++ fractionText (n % 1000000000)).toList) := by
    simp [clockText]
  have hchars := congrArg String.toList h
  rw [hlist, hlist] at hchars
  obtain ⟨hhour, hrest⟩ := Text.append_cons_inj (notMem_two rfl _) (notMem_two rfl _) hchars
  obtain ⟨hminute, hsecond⟩ := Text.append_cons_inj (notMem_two rfl _) (notMem_two rfl _) hrest
  have hhour := two_injective (String.toList_inj.mp hhour)
  have hminute := two_injective (String.toList_inj.mp hminute)
  have hread (s n : Nat) := reads_seconds (Nat.mod_lt n (Nat.succ_pos 999999999))
    (s % 60 + n / 1000000000)
  have hread' := hread second nanos
  rw [hsecond] at hread'
  have htotal := total_of_reads (Decimal.reads_unique hread' (hread second' nanos'))
  unfold Fits at hfits hfits'
  omega

theorem OnCalendar.fits (h : OnCalendar seconds nanos) : Fits (seconds % 86400).toNat nanos := by
  have hnanos := h.nanos
  unfold Fits
  omega

theorem mem_dateText {x : Date} {c : Char} (h : c ∈ (dateText x).toList) :
    c.isDigit = true ∨ c = '-' ∨ c = '+' := by
  simp only [dateText, String.toList_append, List.mem_append] at h
  rcases h with (((h | h) | h) | h) | h
  · exact Date.mem_yearText h
  · exact .inr (.inl (List.mem_singleton.mp h))
  · exact .inl (isDigit_two c h)
  · exact .inr (.inl (List.mem_singleton.mp h))
  · exact .inl (isDigit_two c h)

theorem T_notMem_dateText (x : Date) : 'T' ∉ (dateText x).toList := fun h => by
  have hchar := mem_dateText h
  contradiction

/-- A date, and behind the first `T` the time of day. -/
theorem toList_of_text?_eq_some {t : String} (h : text? seconds nanos = some t) :
    OnCalendar seconds nanos ∧ t.toList = (dateText (Date.ofDays (seconds / 86400))).toList ++
      'T' :: ((clockText (seconds % 86400).toNat nanos).toList ++ ['Z']) := by
  have hon : OnCalendar seconds nanos := by
    by_contra hoff
    rw [text?_eq_none hoff] at h
    cases h
  rw [text?_eq_some hon, Option.some.injEq] at h
  exact ⟨hon, by simp [← h]⟩

/-- No two instants share a text. -/
theorem text?_injective {seconds seconds' : Int} {nanos nanos' : Nat} {t : String}
    (h : text? seconds nanos = some t) (h' : text? seconds' nanos' = some t) :
    seconds = seconds' ∧ nanos = nanos' := by
  obtain ⟨hon, hchars⟩ := toList_of_text?_eq_some h
  obtain ⟨hon', hchars'⟩ := toList_of_text?_eq_some h'
  rw [hchars'] at hchars
  obtain ⟨hdate, hrest⟩ :=
    Text.append_cons_inj (T_notMem_dateText _) (T_notMem_dateText _) hchars
  have hdays := Date.ofDays_injective (dateText_injective (Date.ofDays_spec _).1
    (Date.ofDays_spec _).1 (String.toList_inj.mp hdate))
  obtain ⟨hclock, hnanos⟩ := clockText_injective hon'.fits hon.fits
    (String.toList_inj.mp (List.append_cancel_right hrest))
  exact ⟨by omega, hnanos.symm⟩

end Instant
end TestBench
