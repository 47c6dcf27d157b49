import TestBench.Net.AddressText

/-! Address prefixes. An IPv4 prefix is kept in its mapped form, ninety-six bits longer, so that
prefixes of both families live in one space. -/
namespace TestBench.Net

/-- Keeps the first `length` bits. -/
def mask (a : V6) (length : Nat) : V6 := (a >>> (128 - length)) <<< (128 - length)

structure Prefix where
  address : V6
  length : Nat
  deriving DecidableEq, Repr

inductive PrefixFault where
  | notAnAddress
  | badLength
  | outOfRange
  | tooLong (most : Nat)
  deriving DecidableEq, Repr

/-- A text that is no prefix, and why. -/
structure PrefixError where
  text : String
  fault : PrefixFault
  deriving DecidableEq, Repr

def PrefixFault.message : PrefixFault → String
  | .notAnAddress => "not an IP address"
  | .badLength => "bad prefix length"
  | .outOfRange => "prefix length out of range"
  | .tooLong most => "length must be at most " ++ toString most

def PrefixError.message (e : PrefixError) : String :=
  "invalid prefix '" ++ e.text ++ "': " ++ e.fault.message

namespace Prefix

/-- Lengths are bytes; an IPv4 length past the largest byte counts as that byte. -/
def make (address : Address) (length : Nat) : Except PrefixError Prefix :=
  let length' := match address with
    | .v4 _ => min 255 (length + 96)
    | .v6 _ => length
  if 128 < length' then
    .error ⟨address.wide.text ++ "/" ++ toString length',
      .tooLong (match address with | .v4 _ => 32 | .v6 _ => 128)⟩
  else .ok ⟨mask address.wide length', length'⟩

/-- The prefix of every address. -/
def any : Prefix := ⟨0, 0⟩

def contains (p : Prefix) (a : Address) : Bool := mask a.wide p.length == p.address

def mappedText (p : Prefix) : String := p.address.text ++ "/" ++ toString p.length

/-- IPv4 prefixes are shown as such. -/
def text (p : Prefix) : String :=
  match p.address.unmapped? with
  | some a => if 96 ≤ p.length then a.text ++ "/" ++ toString (p.length - 96) else p.mappedText
  | none => p.mappedText

/-- An address and a length, or an address alone, which stands for itself. -/
def parse (s : String) : Except PrefixError Prefix :=
  let trimmed := Text.trim s
  let (address, length) := match Text.splitOnce '/' trimmed with
    | some (a, n) => (a, some n)
    | none => (trimmed, none)
  match Address.parse? address with
  | none => .error ⟨s, .notAnAddress⟩
  | some a =>
    let length := match length, a with
      | some n, _ => Literal.unsigned? 256 n
      | none, .v4 _ => some 32
      | none, .v6 _ => some 128
    match length with
    | none => .error ⟨s, .badLength⟩
    | some n => match make a n with
      | .ok p => .ok p
      | .error _ => .error ⟨s, .outOfRange⟩

/-- By address, then by length. -/
def order (p q : Prefix) : Ordering :=
  (compare p.address.toNat q.address.toNat).then (compare p.length q.length)

end Prefix
end TestBench.Net
