import TestBench.Number.Shortest

/-! How numbers are written: which exponents are written positionally, and the texts of the
values that have no digits. -/
namespace TestBench

structure FloatStyle where
  /-- exponents of the leading digit that are written without an exponent -/
  positional : Int → Bool
  /-- whether the upper of two equally near decimals is taken, rather than the even one -/
  tieUp : Bool
  nan : String
  infinity : String

namespace FloatStyle

/-- Values shown in differences and answers. -/
def shown : FloatStyle where
  positional e := -4 ≤ e && e < 16
  tieUp := true
  nan := "NaN"
  infinity := "inf"

/-- Numbers that become configuration text. -/
def settingText : FloatStyle where
  positional e := -5 ≤ e && e < 16
  tieUp := false
  nan := ".nan"
  infinity := ".inf"

/-- Numbers quoted in messages about unexpected values; never with an exponent. -/
def spelledOut : FloatStyle where
  positional _ := true
  tieUp := true
  nan := "NaN"
  infinity := "inf"

end FloatStyle

def zeros (n : Nat) : List Char := List.replicate n '0'

def Decimal.positional (d : Decimal) : List Char :=
  let ds := Nat.toDigits 10 d.digits
  if 0 ≤ d.exponent then ds ++ zeros d.exponent.toNat ++ ['.', '0']
  else
    let fraction := (-d.exponent).toNat
    if fraction < ds.length then
      ds.take (ds.length - fraction) ++ '.' :: ds.drop (ds.length - fraction)
    else '0' :: '.' :: zeros (fraction - ds.length) ++ ds

def Decimal.leadingExponent (d : Decimal) : Int :=
  d.exponent + (Nat.toDigits 10 d.digits).length - 1

def Decimal.scientific (d : Decimal) : List Char :=
  let exponent := (toString d.leadingExponent).toList
  match Nat.toDigits 10 d.digits with
  | [c] => c :: 'e' :: exponent
  | c :: rest => c :: '.' :: rest ++ 'e' :: exponent
  | [] => []

def Binary.text (style : FloatStyle) (f : Format) : Binary → String
  | .nan => style.nan
  | .infinite negative => (if negative then "-" else "") ++ style.infinity
  | .finite negative m e =>
    (if negative then "-" else "") ++
      if m = 0 then "0.0"
      else
        let d := Decimal.shortest f style.tieUp m e
        String.ofList (if style.positional d.leadingExponent then d.positional else d.scientific)

end TestBench
