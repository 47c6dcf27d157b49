import TestBench.Diff.Options
import TestBench.Net.Prefix
import TestBench.Time.Instant

/-! Formatters every comparison starts with, for types whose inner form says little: instants,
lengths of time and subnet tables. A value that is not of the expected form is shown as it is. -/
namespace TestBench.Diff.Formatters

-- powers are those of the core library, whatever else is in scope
attribute [local instance (1100)] instPowNat

def intIn? (low high : Int) (field : String) (node : Node) : Option Int :=
  ((node.field? field).bind Node.int?).filter fun n => low ≤ n && n < high

/-- A point in time as date and time of day. -/
def systemTime (node : Node) : Except Failure String :=
  let shown := do
    let seconds ← intIn? (-2 ^ (63 : Nat)) (2 ^ (63 : Nat)) "secs_since_epoch" node
    let nanos ← intIn? 0 (2 ^ (32 : Nat)) "nanos_since_epoch" node
    Instant.text? seconds nanos.toNat
  .ok (shown.getD node.inline)

def duration (node : Node) : Except Failure String :=
  match intIn? 0 (2 ^ (64 : Nat)) "secs" node, intIn? 0 (2 ^ (32 : Nat)) "nanos" node with
  | some seconds, some nanos =>
    match Span.ofParts? seconds.toNat nanos.toNat with
    | some span => .ok span.text
    | none => .error .durationOverflow
  | _, _ => .ok node.inline

/-- A quoted key of a subnet table; the prefix of an IPv4 network is shown as such. -/
def canonicalPrefix (key : String) : String :=
  let bare := Text.trimWhere (· == '"') key
  let shown := do
    let (address, length) ← Text.splitOnce '/' bare
    let a ← Net.V6.parse? address
    let n ← Literal.unsigned? 256 length
    let b ← if 96 ≤ n then a.unmapped? else none
    some (b.text ++ "/" ++ toString (n - 96))
  shown.getD bare

def subnetMap (node : Node) : Except Failure String :=
  match node with
  | .map entries =>
    let shown := entries.map fun (key, value) => canonicalPrefix key ++ ": " ++ value.inline
    .ok ("SubnetMap\x7b" ++ ", ".intercalate shown ++ "\x7d")
  | node => .ok node.inline

end Formatters

def Options.default : Options where
  unexported := false
  zero := false
  formatters := [("SystemTime", Formatters.systemTime), ("Duration", Formatters.duration),
    ("SubnetMap", Formatters.subnetMap)]

def Options.ofSettings (settings : List Setting) : Options :=
  settings.foldl Options.apply Options.default

end TestBench.Diff
