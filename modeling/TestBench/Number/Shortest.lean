import TestBench.Number.Binary

/-! The shortest decimal that reads back as a given binary value. Of several decimals of that
length the nearest is taken. -/
namespace TestBench

-- powers are those of the core library, whatever else is in scope
attribute [local instance (1100)] instPowNat

/-- `digits · 10 ^ exponent` -/
structure Decimal where
  digits : Nat
  exponent : Int
  deriving DecidableEq, Repr, Inhabited

namespace Decimal

/-- Compares `a · 10 ^ i` with `b · 2 ^ j`. -/
def compareScaled (a : Nat) (i : Int) (b : Nat) (j : Int) : Ordering :=
  compare (a * 10 ^ i.toNat * 2 ^ (-j).toNat) (b * 2 ^ j.toNat * 10 ^ (-i).toNat)

/-- Whether a decimal lies among the reals that round to `m · 2 ^ e`. Below a power of two the
neighbour is half as far away; the ends of the interval belong to it iff `m` is even. -/
def readsBack (f : Format) (m : Nat) (e : Int) (d : Decimal) : Bool :=
  let low := if m = 2 ^ (f.digits - 1) ∧ f.least < e then 4 * m - 1 else 4 * m - 2
  let below := compareScaled d.digits d.exponent low (e - 2)
  let above := compareScaled d.digits d.exponent (4 * m + 2) (e - 2)
  (below == .gt || (m % 2 == 0 && below == .eq)) &&
    (above == .lt || (m % 2 == 0 && above == .eq))

/-- The least `k` with `m · 2 ^ e < 10 ^ k`. -/
def scale (m : Nat) (e : Int) : Int :=
  let k := (m.log2 + e) * 30103 / 100000
  ([k - 1, k, k + 1, k + 2].find? fun k => compareScaled 1 k m e == .gt).getD (k + 3)

/-- The closer of the two neighbours of `m · 2 ^ e` on the grid `10 ^ g` that read back. -/
def onGrid (f : Format) (tieUp : Bool) (m : Nat) (e g : Int) : Option Decimal :=
  let d := m * 2 ^ e.toNat * 10 ^ (-g).toNat / (2 ^ (-e).toNat * 10 ^ g.toNat)
  let low : Decimal := ⟨d, g⟩
  let high : Decimal := ⟨d + 1, g⟩
  match 0 < d && readsBack f m e low, readsBack f m e high with
  | true, true =>
    match compareScaled (2 * d + 1) g (2 * m) e with
    | .gt => some low
    | .lt => some high
    | .eq => if tieUp || d % 2 == 1 then some high else some low
  | true, false => some low
  | false, true => some high
  | false, false => none

def stripZeros (fuel : Nat) (d : Decimal) : Decimal :=
  match fuel with
  | 0 => d
  | fuel + 1 => if d.digits % 10 = 0 then stripZeros fuel ⟨d.digits / 10, d.exponent + 1⟩ else d

/-- The shortest decimal for a positive value. Seventeen digits always suffice for the formats
in use; past them the exact value is given. -/
def shortest (f : Format) (tieUp : Bool) (m : Nat) (e : Int) : Decimal :=
  let k := scale m e
  let found := (List.range 17).findSome? fun n : Nat => onGrid f tieUp m e (k - 1 - n)
  stripZeros 20 (found.getD ⟨m * 2 ^ e.toNat * 5 ^ (-e).toNat, -((-e).toNat : Int)⟩)

end Decimal
end TestBench
