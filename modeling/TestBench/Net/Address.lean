/-! Internet addresses. An IPv4 address also has an IPv6 form, its mapped address, whose first
ninety-six bits are eighty zeros and sixteen ones. -/
namespace TestBench.Net

-- powers are those of the core library, whatever else is in scope
attribute [local instance (1100)] instPowNat

abbrev V4 := BitVec 32

abbrev V6 := BitVec 128

def mappedMark : Nat := 0xFFFF

def V4.mapped (a : V4) : V6 := BitVec.ofNat 128 (mappedMark * 2 ^ (32 : Nat) + a.toNat)

/-- The IPv4 address this address is the mapped form of. -/
def V6.unmapped? (a : V6) : Option V4 :=
  if a.toNat / 2 ^ (32 : Nat) = mappedMark then some (BitVec.ofNat 32 a.toNat) else none

inductive Address where
  | v4 (a : V4)
  | v6 (a : V6)
  deriving DecidableEq, Repr

namespace Address

def wide : Address → V6
  | .v4 a => a.mapped
  | .v6 a => a

/-- An IPv4-mapped address as the IPv4 address it stands for. -/
def canonical : Address → Address
  | .v4 a => .v4 a
  | .v6 a => match a.unmapped? with
    | some b => .v4 b
    | none => .v6 a

end Address
end TestBench.Net
