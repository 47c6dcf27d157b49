import TestBench.Config.Tree

/-! Configuration that went through YAML text. The text itself is nobody's concern: what matters is
which values can be written, and what is read from the text that was written. -/
namespace TestBench.Config.Written

-- powers are those of the core library, whatever else is in scope
attribute [local instance (1100)] instPowNat

/-- A short float is written with its own shortest digits and read back as a double. -/
def widen (x : Binary) : Binary :=
  match x with
  | .finite negative m e =>
    if m = 0 then Format.double.convert x
    else
      let d := Decimal.shortest .single false m e
      Format.double.ofDecimal negative d.digits d.exponent
  | x => x

/-- The tag that is written: it begins with a mark and ends before a null character. -/
def writtenTag (variant : String) : String :=
  match variant.toList.takeWhile (· != '\x00') with
  | '!' :: rest => String.ofList ('!' :: rest)
  | tag => String.ofList ('!' :: tag)

/-- The tag that is read from the text. -/
def saidTag (variant : String) : String := Tag.bare (writtenTag variant)

/-- Inside a tag these stand for themselves where it is written, and end it where it is read. -/
def tagReadable (tag : String) : Bool := !tag.toList.any fun c => c == '[' || c == ']' || c == ','

/-- Whether a key swallows the beginning of the one-entry map it belongs to: the writer puts that
off until it has seen whether the key is a tag, and such a key makes it forget. -/
def swallows : Value → Bool
  | .map [_] => true
  | .wrapper _ inner => swallows inner
  | .wrapperCase .. => true
  | .tupleCase .. => true
  | .recordCase .. => true
  | .tagged .. => true
  | _ => false

def isPair : List (Value × Value) → Bool
  | [_] => true
  | _ => false

/-- What is open around the place that is written next, the innermost first. -/
inductive Frame where
  | item
  | key
  | value
  deriving DecidableEq, Repr

/-- After a value is complete: keys and values take turns. -/
def advance : List Frame → List Frame
  | .key :: rest => .value :: rest
  | .value :: rest => .key :: rest
  | frames => frames

/-- The end of a map. One whose beginning was lost ends what is open instead, if that is a map and
waits for a key. -/
def closeMap : List Frame → Except EncodeError (List Frame)
  | [] => .error (.unbalanced true)
  | .key :: rest => .ok (advance rest)
  | _ => .error (.unbalanced false)

mutual

/-- Writes a value and tells what is open afterwards. `pending` tells that a tag was just written
for it. -/
def write (pending : Bool) (frames : List Frame) : Value → Except EncodeError (List Frame)
  | .bytes _ => .error .bytes
  | .list items => writeItems frames items
  | .map entries => do
    let lost := !pending && isPair entries && entries.any fun e => swallows e.1
    closeMap (← writeEntries (if lost then frames else .key :: frames) entries)
  | .record _ fields => do closeMap (← writeFields (.key :: frames) fields)
  | .tuple _ items => writeItems frames items
  | .wrapper _ inner => write pending frames inner
  | .wrapperCase _ _ inner => if pending then .error .nestedTags else write true frames inner
  | .tupleCase _ _ items => if pending then .error .nestedTags else writeItems frames items
  | .recordCase _ _ fields =>
    if pending then .error .nestedTags
    else do closeMap (← writeFields (.key :: frames) fields)
  | .tagged _ inner => if pending then .error .nestedTags else write true frames inner
  | .broken message => .error (.custom message)
  | .keyless _ => .error .valueBeforeKey
  | _ => .ok (advance frames)

def writeItems (frames : List Frame) : List Value → Except EncodeError (List Frame)
  | [] => .ok (advance frames)
  | item :: rest => do
    let _ ← write false (.item :: frames) item
    writeItems frames rest

def writeEntries (frames : List Frame) :
    List (Value × Value) → Except EncodeError (List Frame)
  | [] => .ok frames
  | (key, value) :: rest => do
    writeEntries (← write false (← write false frames key) value) rest

def writeFields (frames : List Frame) :
    List (String × Value) → Except EncodeError (List Frame)
  | [] => .ok frames
  | (_, value) :: rest => do writeFields (← write false (advance frames) value) rest

end

mutual

/-- What the text of a value says, if it can be written. -/
def said : Value → Tree
  | .null => .null
  | .bool b => .bool b
  | .int n => .int n
  | .double x => .float x
  | .single x => .float (widen x)
  | .text s => .text s
  | .list items => .list (saidItems items)
  | .map entries => .map (saidEntries entries)
  | .record _ fields => .map (saidFields fields)
  | .tuple _ items => .list (saidItems items)
  | .marker _ => .null
  | .wrapper _ inner => said inner
  | .unitCase _ variant => .text variant
  | .wrapperCase _ variant inner => .tagged (saidTag variant) (said inner)
  | .tupleCase _ variant items => .tagged (saidTag variant) (.list (saidItems items))
  | .recordCase _ variant fields => .tagged (saidTag variant) (.map (saidFields fields))
  | .tagged tag inner => .tagged (saidTag tag) (said inner)
  | _ => .null

def saidItems : List Value → List Tree
  | [] => []
  | item :: rest => said item :: saidItems rest

def saidEntries : List (Value × Value) → List (Tree × Tree)
  | [] => []
  | (key, value) :: rest => (said key, said value) :: saidEntries rest

def saidFields : List (String × Value) → List (Tree × Tree)
  | [] => []
  | (field, value) :: rest => (.text field, said value) :: saidFields rest

end

def distinctKeys : List (Tree × Tree) → Bool
  | [] => true
  | (key, _) :: rest => !(rest.any fun e => e.1.same key) && distinctKeys rest

mutual

/-- Whether a text that says this can be read: integers of 64 bits, no key twice in a map, and
containers nested no deeper than `depth`. -/
def readable (depth : Nat) : Tree → Bool
  | .int n => -2 ^ (63 : Nat) ≤ n && n < 2 ^ (64 : Nat)
  | .list items =>
    match depth with
    | 0 => false
    | depth + 1 => itemsReadable depth items
  | .map entries =>
    match depth with
    | 0 => false
    | depth + 1 => distinctKeys entries && entriesReadable depth entries
  | .tagged tag inner => tagReadable tag && readable depth inner
  | _ => true

def itemsReadable (depth : Nat) : List Tree → Bool
  | [] => true
  | item :: rest => readable depth item && itemsReadable depth rest

def entriesReadable (depth : Nat) : List (Tree × Tree) → Bool
  | [] => true
  | (key, value) :: rest =>
    readable depth key && (readable depth value && entriesReadable depth rest)

end

end TestBench.Config.Written
