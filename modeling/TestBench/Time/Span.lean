import TestBench.Text.Blank

/-! Lengths of time, counted in nanoseconds, and their text: whole units of the largest unit that
fits, then the rest as a fraction without trailing zeros. -/
namespace TestBench

-- powers are those of the core library, whatever else is in scope
attribute [local instance (1100)] instPowNat

structure Span where
  nanos : Nat
  deriving DecidableEq, Repr, Inhabited

namespace Span

def ofMillis (ms : Nat) : Span := ⟨ms * 1000000⟩

def seconds (s : Span) : Nat := s.nanos / 1000000000

def subsecond (s : Span) : Nat := s.nanos % 1000000000

/-- Seconds are counted in 64 bits; surplus nanoseconds carry over. -/
def ofParts? (seconds nanos : Nat) : Option Span :=
  let s : Span := ⟨seconds * 1000000000 + nanos⟩
  if s.seconds < 2 ^ (64 : Nat) then some s else none

def padLeft (width : Nat) (n : Nat) : List Char :=
  let ds := Nat.toDigits 10 n
  List.replicate (width - ds.length) '0' ++ ds

/-- `n / 10 ^ places` with its fraction as short as it can be. -/
def withPoint (places : Nat) (n : Nat) : String :=
  let rest := n % 10 ^ places
  toString (n / 10 ^ places) ++
    if rest = 0 then ""
    else "." ++ String.ofList ((padLeft places rest).reverse.dropWhile (· == '0')).reverse

def text (s : Span) : String :=
  if 1000000000 ≤ s.nanos then withPoint 9 s.nanos ++ "s"
  else if 1000000 ≤ s.nanos then withPoint 6 s.nanos ++ "ms"
  else if 1000 ≤ s.nanos then withPoint 3 s.nanos ++ "µs"
  else toString s.nanos ++ "ns"

end Span
end TestBench
