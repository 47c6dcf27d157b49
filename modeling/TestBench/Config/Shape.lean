import TestBench.Config.Tree

/-! The layout of a value beside its tree: which maps of the tree are records. Below lists there is
no shape. -/
namespace TestBench.Config

inductive Shape where
  | plain
  | map (entries : List (Tree × Shape))
  | record (fields : List (String × Shape))
  /-- what stands under a tag -/
  | variant (content : Shape)
  deriving Inhabited

namespace Shape

def isRecord : Shape → Bool
  | .record _ => true
  | _ => false

/-- The shape of what stands under a key. -/
def child (key : Tree) : Shape → Shape
  | .map entries => (Tree.find? key entries).getD .plain
  | .record fields => (key.text?.bind fun name => TestBench.find? name fields).getD .plain
  | _ => .plain

def content : Shape → Shape
  | .variant inner => inner
  | _ => .plain

mutual

def ofValue : Value → Except EncodeError Shape
  | .map entries => do .ok (.map (← ofEntries entries))
  | .record _ fields => do .ok (.record (← ofFields fields))
  | .wrapper _ inner => ofValue inner
  | .wrapperCase _ _ inner => do .ok (.variant (← ofValue inner))
  | .tupleCase .. => .ok (.variant .plain)
  | .recordCase _ _ fields => do .ok (.variant (.record (← ofFields fields)))
  | .tagged tag inner => do .ok (.map [(.text (Tag.shown tag), ← ofValue inner)])
  | .broken message => .error (.custom message)
  | .keyless _ => .error .valueBeforeKey
  | _ => .ok .plain

def ofEntries : List (Value × Value) → Except EncodeError (List (Tree × Shape))
  | [] => .ok []
  | (key, value) :: rest => do
    let key ← Tree.ofValue key
    let value ← ofValue value
    .ok ((key, value) :: (← ofEntries rest))

def ofFields : List (String × Value) → Except EncodeError (List (String × Shape))
  | [] => .ok []
  | (field, value) :: rest => do
    let value ← ofValue value
    .ok ((field, value) :: (← ofFields rest))

end

end Shape
end TestBench.Config
