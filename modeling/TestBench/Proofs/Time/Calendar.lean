import Mathlib.Tactic.Common
import TestBench.Time.Instant

/-! The Gregorian calendar. The date of a day is one that the calendar has, and counting the days
before it by years and months gives the day back. -/
namespace TestBench.Date

/-- Every fourth year, but of those that end a century only every fourth. -/
def isLeap (year : Int) : Bool := year % 4 == 0 && (year % 100 != 0 || year % 400 == 0)

def yearLength (leap : Bool) : Nat := if leap then 366 else 365

def monthLength (leap : Bool) : Nat → Nat
  | 2 => if leap then 29 else 28
  | 4 | 6 | 9 | 11 => 30
  | _ => 31

/-- The days from the first of January of the year 1 to that of a year. -/
def daysBeforeYear (year : Int) : Int :=
  365 * (year - 1) + (year - 1) / 4 - (year - 1) / 100 + (year - 1) / 400

/-- The days from the first of January to that of a month. -/
def daysBeforeMonth (leap : Bool) : Nat → Nat
  | month + 2 => daysBeforeMonth leap (month + 1) + monthLength leap (month + 1)
  | _ => 0

/-- Whether the calendar has such a date. -/
structure Valid (x : Date) : Prop where
  month_pos : 1 ≤ x.month
  month_le : x.month ≤ 12
  day_pos : 1 ≤ x.day
  day_le : x.day ≤ monthLength (isLeap x.year) x.month

theorem monthLength_le : ∀ leap, ∀ month ≤ 12, monthLength leap month ≤ 31 := by
  decide

theorem Valid.day_lt {x : Date} (h : x.Valid) : x.day < 32 :=
  Nat.lt_succ_of_le (Nat.le_trans h.day_le (monthLength_le _ _ h.month_le))

/-- The days from the first of January 1970 to a date. -/
def dayNumber (x : Date) : Int :=
  daysBeforeYear x.year + daysBeforeMonth (isLeap x.year) x.month + x.day - 1 - daysBeforeYear 1970

theorem isLeap_iff {year : Int} :
    isLeap year = true ↔ year % 4 = 0 ∧ (year % 100 ≠ 0 ∨ year % 400 = 0) := by
  simp [isLeap]

/-- The days before a year are counted year by year. -/
theorem daysBeforeYear_succ (year : Int) :
    daysBeforeYear (year + 1) = daysBeforeYear year + yearLength (isLeap year) := by
  rw [daysBeforeYear, daysBeforeYear, yearLength]
  by_cases hleap : isLeap year = true
  · rw [if_pos hleap]
    rw [isLeap_iff] at hleap
    omega
  · rw [if_neg hleap]
    rw [isLeap_iff] at hleap
    omega

/-- Where a day stands in a cycle of four hundred years from the first of March: how many whole
centuries, then cycles of four years, then years are before it, and how many days of its year. -/
structure Stands (d centuries cycles years days : Nat) : Prop where
  sum : d = 36524 * centuries + 1461 * cycles + 365 * years + days
  centuries_lt : centuries < 4
  cycles_lt : cycles < 25
  years_lt : years < 4
  /-- only the year before a leap day has that day at its end -/
  days_le : days < 365 ∨ days = 365 ∧ years = 3 ∧ (cycles < 24 ∨ centuries = 3)

theorem exists_stands {d : Nat} (h : d < 146097) : ∃ c q r t, Stands d c q r t := by
  obtain ⟨c, hc⟩ : ∃ c, c = min (d / 36524) 3 := ⟨_, rfl⟩
  obtain ⟨q, hq⟩ : ∃ q, q = (d - 36524 * c) / 1461 := ⟨_, rfl⟩
  obtain ⟨r, hr⟩ : ∃ r, r = min ((d - 36524 * c - 1461 * q) / 365) 3 := ⟨_, rfl⟩
  refine ⟨c, q, r, d - 36524 * c - 1461 * q - 365 * r, ?_, ?_, ?_, ?_, ?_⟩ <;> omega

section Stands

variable {d c q r t : Nat}

theorem Stands.year_eq (h : Stands d c q r t) :
    (d - d / 1460 + d / 36524 - d / 146096) / 365 = 100 * c + 4 * q + r := by
  obtain ⟨hd, hc, hq, hr, ht⟩ := h
  by_cases hlast : d = 146096
  · subst hlast
    omega
  · have hcenturies : d / 36524 = c := by omega
    have hcycle : d / 146096 = 0 := by omega
    -- the leap days before the day, and perhaps its own year's, which is no day's but the last
    have hleaps : d / 1460 = 25 * c + q ∨ d / 1460 = 25 * c + q + 1 ∧ 1364 ≤ 365 * r + t := by
      omega
    rw [hcenturies, hcycle]
    rcases hleaps with hleaps | ⟨hleaps, hlate⟩ <;> rw [hleaps] <;> omega

theorem Stands.days_eq (h : Stands d c q r t) :
    d - (365 * (100 * c + 4 * q + r) + (100 * c + 4 * q + r) / 4 - (100 * c + 4 * q + r) / 100) =
      t := by
  obtain ⟨rfl, hc, hq, hr, ht⟩ := h
  omega

/-- The cycle begins with the March of a year, so the next January ends its first year. -/
theorem Stands.daysBeforeYear_eq (h : Stands d c q r t) (k : Int) :
    daysBeforeYear ((100 * c + 4 * q + r : Nat) + k * 400 + 1) =
      146097 * k + (36524 * c + 1461 * q + 365 * r : Nat) := by
  obtain ⟨-, hc, hq, hr, -⟩ := h
  rw [daysBeforeYear]
  omega

theorem Stands.isLeap_next (h : Stands d c q r t) (k : Int) :
    isLeap ((100 * c + 4 * q + r : Nat) + k * 400 + 1) = true ↔ r = 3 ∧ (q < 24 ∨ c = 3) := by
  obtain ⟨-, hc, hq, hr, -⟩ := h
  rw [isLeap_iff]
  omega

end Stands

/-- The month of a day of a year that begins with March, counted from there, and the date. -/
def ofMarch (year : Int) (day : Nat) : Date :=
  let m := (5 * day + 2) / 153
  let month := if m < 10 then m + 3 else m - 9
  ⟨year + (if month ≤ 2 then 1 else 0), month, day - (153 * m + 2) / 5 + 1⟩

theorem ofDays_eq (days : Int) : ∃ (k : Int) (d c q r t : Nat), Stands d c q r t ∧
    days = 146097 * k + d - 719468 ∧
      ofDays days = ofMarch ((100 * c + 4 * q + r : Nat) + k * 400) t := by
  obtain ⟨d, hd⟩ : ∃ d, d = ((days + 719468) % 146097).toNat := ⟨_, rfl⟩
  obtain ⟨c, q, r, t, h⟩ := exists_stands (d := d) (by omega)
  refine ⟨(days + 719468) / 146097, d, c, q, r, t, h, by omega, ?_⟩
  rw [ofDays, ← hd, h.year_eq, h.days_eq]
  rfl

/-- The months before one, counted from March. -/
theorem daysBeforeMonth_of_lt : ∀ leap, ∀ m < 10,
    daysBeforeMonth leap (m + 3) + 306 = yearLength leap + (153 * m + 2) / 5 := by
  decide

theorem daysBeforeMonth_of_ge : ∀ leap, ∀ m < 12, 10 ≤ m →
    daysBeforeMonth leap (m - 9) + 306 = (153 * m + 2) / 5 := by
  decide

theorem monthLength_of_lt : ∀ leap, ∀ m < 10,
    (153 * m + 2) / 5 + monthLength leap (m + 3) = (153 * (m + 1) + 2) / 5 := by
  decide

/-- The date of a day is in the calendar and has that day's number. -/
theorem ofDays_spec (days : Int) : (ofDays days).Valid ∧ (ofDays days).dayNumber = days := by
  obtain ⟨k, d, c, q, r, t, h, hdays, hdate⟩ := ofDays_eq days
  have hyear := h.daysBeforeYear_eq k
  have hleap := h.isLeap_next k
  have hepoch : daysBeforeYear 1970 = 719162 := by decide
  obtain ⟨hd, -, -, -, ht⟩ := h
  generalize ((100 * c + 4 * q + r : Nat) : Int) + k * 400 = y at hyear hleap hdate
  obtain ⟨m, hm⟩ : ∃ m, m = (5 * t + 2) / 153 := ⟨_, rfl⟩
  rw [hdate, ofMarch, ← hm]
  by_cases hlate : m < 10
  · rw [if_pos hlate, if_neg (by omega), Int.add_zero]
    have hbefore := daysBeforeMonth_of_lt (isLeap y) m hlate
    have hlength := monthLength_of_lt (isLeap y) m hlate
    have hsucc := daysBeforeYear_succ y
    refine ⟨⟨?_, ?_, ?_, ?_⟩, ?_⟩ <;> dsimp only [dayNumber] <;> omega
  · rw [if_neg hlate, if_pos (by omega)]
    have hbefore := daysBeforeMonth_of_ge (isLeap (y + 1)) m (by omega) (by omega)
    have hlength : t - (153 * m + 2) / 5 + 1 ≤ monthLength (isLeap (y + 1)) (m - 9) := by
      obtain rfl | rfl : m = 10 ∨ m = 11 := by omega
      · show t - 306 + 1 ≤ 31
        omega
      · show t - 337 + 1 ≤ if isLeap (y + 1) then 29 else 28
        split
        · omega
        next hcommon =>
          rw [hleap] at hcommon
          omega
    refine ⟨⟨?_, ?_, ?_, ?_⟩, ?_⟩ <;> dsimp only [dayNumber] <;> omega

/-- The date tells the day. -/
theorem ofDays_injective {a b : Int} (h : ofDays a = ofDays b) : a = b := by
  rw [← (ofDays_spec a).2, h, (ofDays_spec b).2]

theorem daysBeforeYear_mono {a b : Int} (h : a ≤ b) : daysBeforeYear a ≤ daysBeforeYear b := by
  obtain ⟨n, rfl⟩ := Int.le.dest h
  clear h
  induction n with
  | zero => simp
  | succ n ih =>
    have hsucc := daysBeforeYear_succ (a + n)
    rw [Int.natCast_succ, ← Int.add_assoc, hsucc]
    omega

theorem daysBeforeMonth_add_le : ∀ leap, ∀ month ≤ 12, 1 ≤ month →
    daysBeforeMonth leap month + monthLength leap month ≤ yearLength leap := by
  decide

/-- A date lies in its year. -/
theorem Valid.within {x : Date} (h : x.Valid) :
    daysBeforeYear x.year ≤ x.dayNumber + daysBeforeYear 1970 ∧
      x.dayNumber + daysBeforeYear 1970 < daysBeforeYear (x.year + 1) := by
  have hsucc := daysBeforeYear_succ x.year
  have hmonth := daysBeforeMonth_add_le (isLeap x.year) x.month h.month_le h.month_pos
  have hfirst := h.day_pos
  have hlast := h.day_le
  rw [dayNumber]
  omega

/-- The days whose years lie between two. -/
theorem year_ofDays_between {first last days : Int} :
    first ≤ (ofDays days).year ∧ (ofDays days).year ≤ last ↔
      daysBeforeYear first ≤ days + daysBeforeYear 1970 ∧
        days + daysBeforeYear 1970 < daysBeforeYear (last + 1) := by
  obtain ⟨hvalid, hnumber⟩ := ofDays_spec days
  have hwithin := hvalid.within
  rw [hnumber] at hwithin
  constructor
  · rintro ⟨hfirst, hlast⟩
    exact ⟨Int.le_trans (daysBeforeYear_mono hfirst) hwithin.1,
      Int.lt_of_lt_of_le hwithin.2 (daysBeforeYear_mono (Int.add_le_add_right hlast 1))⟩
  · rintro ⟨hfirst, hlast⟩
    constructor
    · by_contra hlt
      have hmono := daysBeforeYear_mono (show (ofDays days).year + 1 ≤ first by omega)
      omega
    · by_contra hlt
      have hmono := daysBeforeYear_mono (show last + 1 ≤ (ofDays days).year by omega)
      omega

end TestBench.Date
