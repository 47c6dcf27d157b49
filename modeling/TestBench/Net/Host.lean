import TestBench.Net.AddressText
import TestBench.Net.Domain
import TestBench.Text.Utf8

/-! Hosts in the addresses of resources: an IPv6 address in brackets, an IPv4 address in any of its
loose forms, or a name. -/
namespace TestBench.Net.Host

-- powers are those of the core library, whatever else is in scope
attribute [local instance (1100)] instPowNat

/-- A number in this base; no digits at all stand for zero. -/
def inBase? (base : Nat) (cs : List Char) : Option Nat :=
  cs.foldlM (fun n c => (V6.hexValue? c).bind fun d =>
    if d < base then some (n * base + d) else none) 0

/-- A number in decimal, in octal after a zero, or in hexadecimal after `0x`. -/
def number? : List Char → Option Nat
  | [] => none
  | ['0'] => some 0
  | '0' :: c :: rest => if c = 'x' then inBase? 16 rest else inBase? 8 (c :: rest)
  | cs => inBase? 10 cs

/-- The parts of a host between full stops; one at the end has nothing behind it. -/
def parts (cs : List Char) : List (List Char) :=
  let parts := Text.splitChars '.' cs
  if 1 < parts.length ∧ parts.getLast? = some [] then parts.dropLast else parts

/-- A host whose last part looks like a number is an IPv4 address or nothing. -/
def endsInNumber (cs : List Char) : Bool :=
  match (parts cs).getLast? with
  | some part => Literal.allDigits part || (number? part).isSome
  | none => false

/-- Up to four numbers: one byte each, and the last one for all bytes that are left. -/
def ofNumbers? : Nat → List Nat → Option Nat
  | 0, _ => none
  | _ + 1, [] => none
  | left + 1, [n] => if n < 256 ^ (left + 1) then some n else none
  | left + 1, n :: rest =>
    if n < 256 then (ofNumbers? left rest).map (n * 256 ^ left + ·) else none

def v4? (cs : List Char) : Option V4 := do
  let n ← ofNumbers? 4 (← (parts cs).mapM number?)
  some (BitVec.ofNat 32 n)

def v6? (cs : List Char) : Option V6 :=
  if cs.getLast? = some ']' then V6.parseList cs.dropLast else none

def hexPair? (b c : UInt8) : Option UInt8 := do
  let high ← V6.hexValue? (Char.ofNat b.toNat)
  let low ← V6.hexValue? (Char.ofNat c.toNat)
  some (UInt8.ofNat (high * 16 + low))

/-- The bytes that a percent sign and two digits stand for; any other percent sign is left. -/
def percentDecode : List UInt8 → List UInt8
  | 0x25 :: b :: c :: rest =>
    match hexPair? b c with
    | some byte => byte :: percentDecode rest
    | none => 0x25 :: percentDecode (b :: c :: rest)
  | b :: rest => b :: percentDecode rest
  | [] => []

def name? (cs : List Char) : Option (List Char) := do
  let s ← Text.decode? (percentDecode (Text.encode (String.ofList cs)))
  Domain.toAscii? s.toList

/-- The normal form of a host. -/
def normalize? (cs : List Char) : Option String :=
  match cs with
  | '[' :: rest => (v6? rest).map fun a => "[" ++ a.groupText ++ "]"
  | cs => do
    let name ← name? cs
    if name.isEmpty then none
    else if endsInNumber name then (v4? name).map V4.text
    else some (String.ofList name)

end TestBench.Net.Host
