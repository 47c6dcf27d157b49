/-! Binary floating point, exactly: a finite value is a sign and `significand · 2 ^ exponent`,
and every conversion rounds once, on natural numbers, to the nearest value of a format. -/
namespace TestBench

-- powers are those of the core library, whatever else is in scope
attribute [local instance (1100)] instPowNat

/-- A format holds the multiples of `2 ^ least` that need at most `digits` significant bits;
a significand of `digits` bits scaled beyond `2 ^ greatest` is infinite. -/
structure Format where
  digits : Nat
  least : Int
  greatest : Int
  deriving DecidableEq, Repr

inductive Binary where
  | nan
  | infinite (negative : Bool)
  | finite (negative : Bool) (significand : Nat) (exponent : Int)
  deriving DecidableEq, Repr, Inhabited

/-- The quotient rounded to the nearest natural number, ties to the even one. -/
def roundDiv (num den : Nat) : Nat :=
  let q := num / den
  let r := num % den
  if 2 * r < den then q else if den < 2 * r then q + 1 else q + q % 2

def signed (negative : Bool) (n : Nat) : Int := if negative then -n else n

namespace Format

def double : Format := ⟨53, -1074, 971⟩

def single : Format := ⟨24, -149, 104⟩

/-- The exponent at which `num / den` fills the significand, before rounding. -/
def scale (f : Format) (num den : Nat) : Int :=
  let e : Int := num.log2 - den.log2 - f.digits
  let q := num * 2 ^ (-e).toNat / (den * 2 ^ e.toNat)
  max f.least (if 2 ^ f.digits ≤ q then e + 1 else e)

def round (f : Format) (negative : Bool) (num den : Nat) : Binary :=
  if num = 0 then .finite negative 0 f.least
  else
    let e := f.scale num den
    let m := roundDiv (num * 2 ^ (-e).toNat) (den * 2 ^ e.toNat)
    let (m, e) := if m = 2 ^ f.digits then (2 ^ (f.digits - 1), e + 1) else (m, e)
    if f.greatest < e then .infinite negative else .finite negative m e

/-- Nearest value to `digits · 10 ^ exponent`; far outside the range the powers are not formed. -/
def ofDecimal (f : Format) (negative : Bool) (digits : Nat) (exponent : Int) : Binary :=
  let magnitude : Int := (Nat.toDigits 10 digits).length + exponent
  if digits = 0 ∨ magnitude < -400 then .finite negative 0 f.least
  else if 400 < magnitude then .infinite negative
  else f.round negative (digits * 10 ^ exponent.toNat) (10 ^ (-exponent).toNat)

def ofInt (f : Format) (n : Int) : Binary := f.round (n < 0) n.natAbs 1

/-- The same value in this format, rounded where it does not fit. -/
def convert (f : Format) : Binary → Binary
  | .finite negative m e => f.round negative (m * 2 ^ e.toNat) (2 ^ (-e).toNat)
  | x => x

end Format

namespace Binary

def isNan : Binary → Bool
  | .nan => true
  | _ => false

def isZero : Binary → Bool
  | .finite _ 0 _ => true
  | _ => false

/-- The integer this value is, if it is one. -/
def toInt? : Binary → Option Int
  | .finite negative m e =>
    if 0 ≤ e then some (signed negative (m * 2 ^ e.toNat))
    else if m % 2 ^ (-e).toNat = 0 then some (signed negative (m / 2 ^ (-e).toNat))
    else none
  | _ => none

/-- Equality of values: the two zeros are equal and NaN equals nothing. -/
def eq : Binary → Binary → Bool
  | .finite a m e, .finite b n k =>
    let low := min e k
    signed a (m * 2 ^ (e - low).toNat) == signed b (n * 2 ^ (k - low).toNat)
  | .infinite a, .infinite b => a == b
  | _, _ => false

/-- Equality that takes every NaN for one value. -/
def same (a b : Binary) : Bool := (a.isNan && b.isNan) || a.eq b

end Binary
end TestBench
