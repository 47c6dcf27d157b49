import TestBench.Config.Shape
import TestBench.Number.Literal
import TestBench.Text.Blank

/-! Laying a source over a destination that holds defaults. Maps merge key by key, what stands
under the same tag merges, null says nothing, and anything else replaces what was there. -/
namespace TestBench.Config

-- powers are those of the core library, whatever else is in scope
attribute [local instance (1100)] instPowNat

structure MergeOptions where
  /-- record fields are found whatever their case, dashes and underscores -/
  normalizeKeys : Bool := true
  /-- scalars take the kind that the destination holds -/
  weaklyTyped : Bool := true
  deriving DecidableEq, Repr

def normalizeKey (key : String) : String :=
  String.ofList ((key.toList.filter fun c => c != '-' && c != '_').map Char.toLower)

/-- The destination key a source key stands for. -/
def findKey (normalize : Bool) (dest : List (Tree × Tree)) (key : Tree) : Option Tree :=
  if dest.any fun e => e.1.same key then some key
  else if normalize then
    key.text?.bind fun name =>
      (dest.find? fun e => (e.1.text?.map normalizeKey) == some (normalizeKey name)).map (·.1)
  else none

def parseNumber (s : String) : Option Tree :=
  let s := Text.trim s
  match Literal.integer? (2 ^ (63 : Nat)) s with
  | some n => some (.int n)
  | none => match Literal.unsigned? (2 ^ (64 : Nat)) s with
    | some n => some (.int n)
    | none => (Literal.float? .double s).map .float

def parseBool (s : String) : Option Bool :=
  let s := Text.lowerAscii (Text.trim s)
  if ["true", "yes", "on", "1"].contains s then some true
  else if ["false", "no", "off", "0"].contains s then some false
  else none

def numberText (x : Binary) : String := x.text .settingText .double

/-- A text as a number, where it is one. -/
def asNumber (s : String) : Tree := (parseNumber s).getD (.text s)

def asBool (s : String) : Tree :=
  match parseBool s with
  | some b => .bool b
  | none => .text s

/-- A scalar in the kind of what it replaces. -/
def coerceScalar : Tree → Tree → Tree
  | .int _, .text s => asNumber s
  | .float _, .text s => asNumber s
  | .text _, .int n => .text (toString n)
  | .text _, .float x => .text (numberText x)
  | .text _, .bool b => .text (toString b)
  | .bool _, .text s => asBool s
  | .bool _, .int n => .bool (n != 0)
  | .bool _, .float x => .bool (!x.isZero)
  | _, src => src

/-- A scalar that replaces a list becomes a list of one, its item of the kind of the first. -/
def coerceAlone (src : Tree) : Tree → Tree
  | .list (model :: _) => .list [coerceAlone src model]
  | .list [] => .list [src]
  | dest => coerceScalar dest src

mutual

/-- The source in the kind of what it replaces, where it can be read so. The items of a list take
the kind of the first item of the list they replace. -/
def coerce (dest : Tree) : Tree → Tree
  | .list src =>
    match dest with
    | .list (model :: _) => .list (coerceItems model src)
    | _ => .list src
  | .null => .null
  | .map entries => .map entries
  | .tagged tag inner => .tagged tag inner
  | src => coerceAlone src dest

def coerceItems (model : Tree) : List Tree → List Tree
  | [] => []
  | item :: rest => coerce model item :: coerceItems model rest

end

def MergeOptions.replace (o : MergeOptions) (dest src : Tree) : Tree :=
  if o.weaklyTyped then coerce dest src else src

mutual

/-- The destination with the source laid over it. -/
def merge (o : MergeOptions) (shape : Shape) (dest : Tree) : Tree → Tree
  | .null => dest
  | .map src =>
    match dest with
    | .map entries => .map (mergeEntries o shape entries src)
    | dest => o.replace dest (.map src)
  | .tagged tag src =>
    match dest with
    | .tagged own inner =>
      if Tag.same own tag then .tagged own (merge o shape.content inner src)
      else o.replace dest (.tagged tag src)
    | dest => o.replace dest (.tagged tag src)
  | src => o.replace dest src

def mergeEntries (o : MergeOptions) (shape : Shape) (dest : List (Tree × Tree)) :
    List (Tree × Tree) → List (Tree × Tree)
  | [] => dest
  | (key, value) :: rest =>
    let target := (findKey (o.normalizeKeys && shape.isRecord) dest key).getD key
    let merged := match Tree.find? target dest with
      | some existing => merge o (shape.child target) existing value
      | none => value
    mergeEntries o shape (Tree.put target merged dest) rest

end

end TestBench.Config
