import TestBench.Sorting

/-! Texts of any characters written in letters, figures and hyphens: first the ASCII characters as
they stand, then where to insert each of the others, by ascending code point, as numbers whose
digits weigh more or less depending on the numbers before. -/
namespace TestBench.Punycode

def digit (d : Nat) : Char := Char.ofNat (if d < 26 then 97 + d else 22 + d)

def digitValue? (c : Char) : Option Nat :=
  if c.isLower then some (c.toNat - 97)
  else if c.isUpper then some (c.toNat - 65)
  else if c.isDigit then some (c.toNat - 22)
  else none

/-- A digit below the threshold of its place is the last one of its number. -/
def threshold (bias place : Nat) : Nat := max 1 (min 26 (36 * place - bias))

theorem threshold_pos (bias place : Nat) : 0 < threshold bias place := by
  unfold threshold; omega

/-- The digits of a number from this place on, the least weighty first. -/
def digits (bias place n : Nat) : List Char :=
  let t := threshold bias place
  if n < t then [digit n]
  else digit (t + (n - t) % (36 - t)) :: digits bias (place + 1) ((n - t) / (36 - t))
termination_by n
decreasing_by
  have := threshold_pos bias place
  have := Nat.div_le_self (n - threshold bias place) (36 - threshold bias place)
  omega

/-- How often a number has to be cut to reach the size of the next one, at 36 a time. -/
def damped (n bias : Nat) : Nat :=
  if n ≤ 455 then bias + 36 * n / (n + 38) else damped (n / 35) (bias + 36)
termination_by n
decreasing_by omega

/-- The bias after a number, where `length` characters are in place by then. -/
def adapt (n length : Nat) (first : Bool) : Nat :=
  let n := if first then n / 700 else n / 2
  damped (n + n / length) 0

def isBasic (c : Char) : Bool := c.toNat < 0x80

structure Writer where
  out : List Char
  delta : Nat
  bias : Nat
  length : Nat
  deriving DecidableEq, Repr

/-- Passes a character while those of code point `n` are written. -/
def Writer.pass (n : Nat) (w : Writer) (c : Char) : Writer :=
  if c.toNat < n then { w with delta := w.delta + 1 }
  else if c.toNat = n then
    { out := w.out ++ digits w.bias 1 w.delta
      delta := 0
      bias := adapt w.delta (w.length + 1) w.out.isEmpty
      length := w.length + 1 }
  else w

/-- Writes all characters of code point `n`, those below `next` being in place. -/
def Writer.insertAll (cs : List Char) (next n : Nat) (w : Writer) : Writer :=
  let w := { w with delta := w.delta + (n - next) * (w.length + 1) }
  let w := cs.foldl (Writer.pass n) w
  { w with delta := w.delta + 1 }

def writeAll (cs : List Char) (w : Writer) (next : Nat) : List Nat → Writer
  | [] => w
  | n :: rest => writeAll cs (w.insertAll cs next n) (n + 1) rest

def encode (cs : List Char) : List Char :=
  let basic := cs.filter isBasic
  let others := sortBy (· ≤ ·) ((cs.filter (!isBasic ·)).map Char.toNat).eraseDups
  basic ++ (if basic.isEmpty then [] else ['-']) ++
    (writeAll cs ⟨[], 0, 72, basic.length⟩ 0x80 others).out

structure Reader where
  out : List Char
  /-- the code point and the place of the last insertion -/
  next : Nat
  place : Nat
  bias : Nat
  /-- the number read so far, the place of its next digit and what that weighs -/
  delta : Nat
  digit : Nat
  weight : Nat
  deriving DecidableEq, Repr

/-- Inserts a character where the number that was read says. -/
def Reader.insert? (r : Reader) : Option Reader :=
  let length := r.out.length + 1
  let total := r.place + r.delta
  let n := r.next + total / length
  if n.isValidChar then
    some
      { out := r.out.insertIdx (total % length) (Char.ofNat n)
        next := n
        place := total % length + 1
        bias := adapt r.delta length (r.place == 0)
        delta := 0
        digit := 1
        weight := 1 }
  else none

def Reader.step? (r : Reader) (c : Char) : Option Reader := do
  let d ← digitValue? c
  let t := threshold r.bias r.digit
  let r := { r with delta := r.delta + d * r.weight }
  if d < t then r.insert?
  else some { r with digit := r.digit + 1, weight := r.weight * (36 - t) }

/-- The text after the last hyphen tells the insertions, all of it if none or only it precedes. -/
def split (cs : List Char) : List Char × List Char :=
  let tail := (cs.reverse.takeWhile (· != '-')).reverse
  let head := cs.take (cs.length - tail.length - 1)
  if head.isEmpty then ([], cs) else (head, tail)

def decode? (cs : List Char) : Option (List Char) := do
  let (basic, tail) := split cs
  if basic.all isBasic then
    let r ← tail.foldlM Reader.step? ⟨basic, 0x80, 0, 72, 0, 1, 1⟩
    if r.digit = 1 then some r.out else none
  else none

end TestBench.Punycode
