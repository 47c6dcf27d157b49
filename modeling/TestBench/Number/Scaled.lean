import TestBench.Number.Binary

/-! A significand scaled by a power of ten in floating point: the power is rounded, and so is each
product or quotient. -/
namespace TestBench.Format

-- powers are those of the core library, whatever else is in scope
attribute [local instance (1100)] instPowNat

def product (f : Format) : Binary → Binary → Binary
  | .finite a m e, .finite b n k =>
    f.round (a != b) (m * n * 2 ^ (e + k).toNat) (2 ^ (-(e + k)).toNat)
  | _, _ => .nan

def quotient (f : Format) : Binary → Binary → Binary
  | .finite a m e, .finite b n k =>
    if n = 0 then .nan else f.round (a != b) (m * 2 ^ (e - k).toNat) (n * 2 ^ (k - e).toNat)
  | _, _ => .nan

/-- The largest power of ten with a value of its own. -/
def powerLimit : Nat := 308

def power (f : Format) (exponent : Nat) : Binary := f.round false (10 ^ exponent) 1

def scaleDown (f : Format) (x : Binary) (places : Nat) : Binary :=
  if powerLimit < places then
    if x.isZero then x else scaleDown f (f.quotient x (f.power powerLimit)) (places - powerLimit)
  else f.quotient x (f.power places)
termination_by places
decreasing_by simp only [powerLimit] at *; omega

/-- `none` if the result is out of range. -/
def scaled (f : Format) (significand : Nat) (exponent : Int) : Option Binary :=
  let x := f.ofInt significand
  if exponent < 0 then some (scaleDown f x exponent.natAbs)
  else if x.isZero then some x
  else if powerLimit < exponent.toNat then none
  else match f.product x (f.power exponent.toNat) with
    | .finite negative m e => some (.finite negative m e)
    | _ => none

end TestBench.Format
