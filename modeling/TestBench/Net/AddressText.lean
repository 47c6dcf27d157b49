import TestBench.Net.Address
import TestBench.Number.Literal
import TestBench.Text.Blank

/-! The text form of addresses: dotted decimal for IPv4, groups of hexadecimal digits for IPv6. -/
namespace TestBench.Net

-- powers are those of the core library, whatever else is in scope
attribute [local instance (1100)] instPowNat

namespace V4

def octets (a : V4) : List Nat :=
  [a.toNat / 2 ^ (24 : Nat), a.toNat / 2 ^ (16 : Nat) % 256, a.toNat / 2 ^ (8 : Nat) % 256,
    a.toNat % 256]

def text (a : V4) : String := ".".intercalate (a.octets.map toString)

/-- One to three digits without a leading zero, at most 255. -/
def octet? (cs : List Char) : Option Nat :=
  if cs.length ≤ 3 && (cs.length ≤ 1 || cs.head? != some '0') then
    (Literal.digits? cs).filter (· < 256)
  else none

def ofOctets? : List Nat → Option V4
  | [a, b, c, d] => some (BitVec.ofNat 32 (((a * 256 + b) * 256 + c) * 256 + d))
  | _ => none

def parseList (cs : List Char) : Option V4 :=
  ((Text.splitChars '.' cs).mapM octet?).bind ofOctets?

def parse? (s : String) : Option V4 := parseList s.toList

end V4

namespace V6

/-- The eight groups of sixteen bits, the highest first. -/
def groups (a : V6) : List Nat :=
  (List.range 8).map fun i => a.toNat / 2 ^ (16 * (7 - i)) % 65536

def hexText (groups : List Nat) : String :=
  ":".intercalate (groups.map fun g => String.ofList (Nat.toDigits 16 g))

/-- Start and length of the first longest run of zeros at or after position `i`. -/
def longestRun (i : Nat) : List Nat → Nat × Nat
  | [] => (i, 0)
  | g :: rest =>
    let here := ((g :: rest).takeWhile (· == 0)).length
    let later := longestRun (i + 1) rest
    if later.2 ≤ here then (i, here) else later

/-- The groups, with the longest run of at least two zeros left out. -/
def groupText (a : V6) : String :=
  let run := longestRun 0 a.groups
  if 1 < run.2 then
    hexText (a.groups.take run.1) ++ "::" ++ hexText (a.groups.drop (run.1 + run.2))
  else hexText a.groups

def text (a : V6) : String :=
  match a.unmapped? with
  | some b => "::ffff:" ++ b.text
  | none => a.groupText

def hexValue? (c : Char) : Option Nat :=
  if c.isDigit then some (c.toNat - 48)
  else if 'a' ≤ c ∧ c ≤ 'f' then some (c.toNat - 87)
  else if 'A' ≤ c ∧ c ≤ 'F' then some (c.toNat - 55)
  else none

def group? (cs : List Char) : Option Nat :=
  if 1 ≤ cs.length ∧ cs.length ≤ 4 then
    (cs.mapM hexValue?).map fun ds => ds.foldl (fun n d => n * 16 + d) 0
  else none

/-- Groups separated by colons; the last piece may be an IPv4 address, which fills two. -/
def pieces? (dotted : Bool) : List (List Char) → Option (List Nat)
  | [] => some []
  | [piece] =>
    match group? piece with
    | some g => some [g]
    | none =>
      if dotted then (V4.parseList piece).map fun a => [a.toNat / 65536, a.toNat % 65536]
      else none
  | piece :: rest => do some ((← group? piece) :: (← pieces? dotted rest))

def side? (dotted : Bool) (cs : List Char) : Option (List Nat) :=
  if cs.isEmpty then some [] else pieces? dotted (Text.splitChars ':' cs)

/-- The text around the first double colon. -/
def splitGap : List Char → Option (List Char × List Char)
  | ':' :: ':' :: rest => some ([], rest)
  | c :: rest => (splitGap rest).map fun (before, after) => (c :: before, after)
  | [] => none

def ofGroups (groups : List Nat) : V6 :=
  BitVec.ofNat 128 (groups.foldl (fun n g => n * 65536 + g) 0)

/-- Eight groups, or fewer with a double colon that stands for at least one group of zeros. -/
def parseList (cs : List Char) : Option V6 :=
  match splitGap cs with
  | none => ((pieces? true (Text.splitChars ':' cs)).filter (·.length = 8)).map ofGroups
  | some (before, after) => do
    let head ← side? false before
    let tail ← side? true after
    if head.length + tail.length ≤ 7 then
      some (ofGroups (head ++ List.replicate (8 - head.length - tail.length) 0 ++ tail))
    else none

def parse? (s : String) : Option V6 := parseList s.toList

end V6

namespace Address

def text : Address → String
  | .v4 a => a.text
  | .v6 a => a.text

def parse? (s : String) : Option Address :=
  match V4.parse? s with
  | some a => some (.v4 a)
  | none => (V6.parse? s).map .v6

end Address

/-- An address and a port; IPv6 addresses stand in brackets. -/
structure Endpoint where
  address : Address
  port : Nat
  deriving DecidableEq, Repr

namespace Endpoint

def text (e : Endpoint) : String :=
  match e.address with
  | .v4 a => a.text ++ ":" ++ toString e.port
  | .v6 a => "[" ++ a.text ++ "]:" ++ toString e.port

end Endpoint
end TestBench.Net
