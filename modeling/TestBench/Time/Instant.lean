import TestBench.Time.Span

/-! Instants on the proleptic Gregorian calendar in universal time. -/
namespace TestBench

structure Date where
  year : Int
  month : Nat
  day : Nat
  deriving DecidableEq, Repr

/-- The date so many days after the first of January 1970. Years are counted from March, in
cycles of 146097 days. -/
def Date.ofDays (days : Int) : Date :=
  let z := days + 719468
  let cycle := z / 146097
  let d := (z % 146097).toNat
  let y := (d - d / 1460 + d / 36524 - d / 146096) / 365
  let inYear := d - (365 * y + y / 4 - y / 100)
  let m := (5 * inYear + 2) / 153
  let month := if m < 10 then m + 3 else m - 9
  ⟨y + cycle * 400 + (if month ≤ 2 then 1 else 0), month, inYear - (153 * m + 2) / 5 + 1⟩

/-- Four digits; outside the years 0 to 9999 with a sign. -/
def Date.yearText (year : Int) : String :=
  if 0 ≤ year ∧ year ≤ 9999 then String.ofList (Span.padLeft 4 year.toNat)
  else (if year < 0 then "-" else "+") ++ String.ofList (Span.padLeft 4 year.natAbs)

namespace Instant

def two (n : Nat) : String := String.ofList (Span.padLeft 2 n)

/-- No fraction, or three, six or nine digits, whichever loses nothing. -/
def fractionText (nanos : Nat) : String :=
  if nanos = 0 then ""
  else if nanos % 1000000 = 0 then "." ++ String.ofList (Span.padLeft 3 (nanos / 1000000))
  else if nanos % 1000 = 0 then "." ++ String.ofList (Span.padLeft 6 (nanos / 1000))
  else "." ++ String.ofList (Span.padLeft 9 nanos)

/-- The years the calendar covers. -/
def yearInRange (year : Int) : Bool := -262143 ≤ year && year ≤ 262142

/-- Date and time of day of an instant given in seconds since 1970. From a thousand million on
the nanoseconds tell of a leap second, which only the last second of a minute can have. -/
def text? (seconds : Int) (nanos : Nat) : Option String :=
  let date := Date.ofDays (seconds / 86400)
  let second := (seconds % 86400).toNat
  let leap := 1000000000 ≤ nanos
  if !yearInRange date.year || 2000000000 ≤ nanos || (leap && second % 60 != 59) then none
  else
    some (Date.yearText date.year ++ "-" ++ two date.month ++ "-" ++ two date.day ++ "T" ++
      two (second / 3600) ++ ":" ++ two (second / 60 % 60) ++ ":" ++
      two (second % 60 + if leap then 1 else 0) ++
      fractionText (if leap then nanos - 1000000000 else nanos) ++ "Z")

end Instant
end TestBench
