import TestBench.Diff.Formatters
import TestBench.Tag
import TestBench.Value

/-! The tree of a value. Formatters and the choice of fields are applied from the inside out: what
a formatter is given already holds the formatted text of its parts. -/
namespace TestBench.Diff.Options

-- powers are those of the core library, whatever else is in scope
attribute [local instance (1100)] instPowNat

/-- The text of a formatted value in place of its tree. -/
def replace (type : String) (node : Node) (format : Formatter) : Except Failure Node := do
  .ok (.formatted type (← format node) node.isZero)

/-- The fields that are compared. -/
def select (o : Options) (name : String) (fields : List (String × Node)) : Node :=
  .record name (fields.filter fun f => o.keeps f.1 f.2)

/-- A formatter sees all fields; without one the selection is made. -/
def finishRecord (o : Options) (name : String) (fields : List (String × Node)) :
    Except Failure Node :=
  match o.formatter? name with
  | some format => replace name (.record name fields) format
  | none => .ok (o.select name fields)

def finish (o : Options) (type : String) (node : Node) : Except Failure Node :=
  match o.formatter? type with
  | some format => replace type node format
  | none => .ok node

/-- Positions serve as field names. -/
def numbered (nodes : List Node) : List (String × Node) :=
  nodes.zipIdx.map fun (node, i) => (toString i, node)

/-- Integers up to 128 bits with a sign; larger ones are kept as text. -/
def intNode (n : Int) : Node := if n < 2 ^ (127 : Nat) then .int n else .text (toString n)

mutual

def capture (o : Options) : Value → Except Failure Node
  | .null => .ok .null
  | .bool b => .ok (.bool b)
  | .int n => .ok (intNode n)
  | .double x => .ok (.float x)
  | .single x => .ok (.float (Format.double.convert x))
  | .text s => .ok (.text s)
  | .bytes data => .ok (.bytes data)
  | .list items => do .ok (.seq (← captureItems o items))
  | .map entries => do .ok (.map (sortBy keyLe (← captureEntries o entries)))
  | .record name fields => do o.finishRecord name (← captureFields o fields)
  | .tuple name items => do o.finishRecord name (numbered (← captureItems o items))
  | .marker name => o.finishRecord name []
  | .wrapper name inner => do o.finish name (← capture o inner)
  | .unitCase type variant => o.finish type (.variant type variant .null)
  | .wrapperCase type variant inner => do
    o.finish type (.variant type variant (← capture o inner))
  | .tupleCase type variant items => do
    o.finish type (.variant type variant (.seq (← captureItems o items)))
  | .recordCase type variant fields => do
    o.finish type (.variant type variant (o.select variant (← captureFields o fields)))
  | .tagged tag inner => do .ok (.map [(Text.quote (Tag.shown tag), ← capture o inner)])
  | .broken message => .error (.unserializable message)
  | .keyless _ => .error .valueBeforeKey

def captureItems (o : Options) : List Value → Except Failure (List Node)
  | [] => .ok []
  | item :: rest => do .ok ((← capture o item) :: (← captureItems o rest))

def captureEntries (o : Options) : List (Value × Value) → Except Failure (List (String × Node))
  | [] => .ok []
  | (key, value) :: rest => do
    let key ← capture o key
    let value ← capture o value
    .ok ((key.inline, value) :: (← captureEntries o rest))

def captureFields (o : Options) : List (String × Value) → Except Failure (List (String × Node))
  | [] => .ok []
  | (field, value) :: rest => do
    .ok ((field, ← capture o value) :: (← captureFields o rest))

end

end TestBench.Diff.Options
