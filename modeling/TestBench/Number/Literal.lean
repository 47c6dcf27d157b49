import TestBench.Number.Binary

/-! Numbers read from text. A reader takes the whole text or nothing: no blanks, no separators. -/
namespace TestBench.Literal

def digitValue (c : Char) : Nat := c.toNat - 48

def ofDigits (ds : List Char) : Nat := ds.foldl (fun n c => n * 10 + digitValue c) 0

def allDigits (cs : List Char) : Bool := !cs.isEmpty && cs.all Char.isDigit

def digits? (cs : List Char) : Option Nat :=
  if allDigits cs then some (ofDigits cs) else none

/-- Splits off a sign; `true` stands for minus. -/
def sign : List Char → Bool × List Char
  | '-' :: cs => (true, cs)
  | '+' :: cs => (false, cs)
  | cs => (false, cs)

/-- A natural number below `bound`; a plus sign is allowed. -/
def unsigned? (bound : Nat) (s : String) : Option Nat :=
  let cs := match s.toList with
    | '+' :: cs => cs
    | cs => cs
  (digits? cs).filter (· < bound)

/-- An integer `n` with `-bound ≤ n < bound`. -/
def integer? (bound : Nat) (s : String) : Option Int :=
  let (negative, cs) := sign s.toList
  (digits? cs).bind fun n =>
    let i := signed negative n
    if -(bound : Int) ≤ i ∧ i < bound then some i else none

/-- The exponent part of a decimal: nothing, or a mark and a signed number. -/
def exponent? : List Char → Option Int
  | [] => some 0
  | c :: cs =>
    if c = 'e' ∨ c = 'E' then
      let (negative, cs) := sign cs
      (digits? cs).map (signed negative)
    else none

/-- An unsigned decimal: digits with an optional point, at least one digit, then an exponent. -/
def decimal? (cs : List Char) : Option (Nat × Int) :=
  let whole := cs.takeWhile Char.isDigit
  let rest := cs.dropWhile Char.isDigit
  let (fraction, rest) := match rest with
    | '.' :: rest => (rest.takeWhile Char.isDigit, rest.dropWhile Char.isDigit)
    | rest => ([], rest)
  if whole.isEmpty && fraction.isEmpty then none
  else (exponent? rest).map fun e => (ofDigits (whole ++ fraction), e - fraction.length)

def float? (f : Format) (s : String) : Option Binary :=
  let (negative, cs) := sign s.toList
  match String.ofList (cs.map Char.toLower) with
  | "nan" => some .nan
  | "inf" => some (.infinite negative)
  | "infinity" => some (.infinite negative)
  | _ => (decimal? cs).map fun (m, e) => f.ofDecimal negative m e

end TestBench.Literal
