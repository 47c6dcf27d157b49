import TestBench.Number.Layout
import TestBench.Sorting
import TestBench.Tag
import TestBench.Value

/-! Configuration trees: plain data, maps whose keys may be any tree and which keep their order,
and values under a tag. Integers are those of 64 bits, signed or not. -/
namespace TestBench.Config

-- powers are those of the core library, whatever else is in scope
attribute [local instance (1100)] instPowNat

inductive Tree where
  | null
  | bool (b : Bool)
  | int (n : Int)
  | float (x : Binary)
  | text (s : String)
  | list (items : List Tree)
  | map (entries : List (Tree × Tree))
  | tagged (tag : String) (inner : Tree)
  deriving Inhabited

namespace Tree

mutual

/-- Equality of data: floats by value with every NaN alike, never a float and an integer, maps
whatever their order. -/
def same : Tree → Tree → Bool
  | .null, .null => true
  | .bool a, .bool b => a == b
  | .int a, .int b => a == b
  | .float a, .float b => a.same b
  | .text a, .text b => a == b
  | .list as, .list bs => sameItems as bs
  | .map as, .map bs => as.length == bs.length && entriesWithin as bs
  | .tagged s a, .tagged t b => Tag.same s t && same a b
  | _, _ => false

def sameItems : List Tree → List Tree → Bool
  | [], [] => true
  | a :: as, b :: bs => same a b && sameItems as bs
  | _, _ => false

def entriesWithin : List (Tree × Tree) → List (Tree × Tree) → Bool
  | [], _ => true
  | (key, a) :: rest, bs => (bs.any fun e => same key e.1 && same a e.2) && entriesWithin rest bs

end

def find? {α : Type} (key : Tree) (entries : List (Tree × α)) : Option α :=
  (entries.find? fun e => e.1.same key).map (·.2)

/-- Replaces the value under a key, which stays where it is; a new key goes to the end. -/
def put (key value : Tree) : List (Tree × Tree) → List (Tree × Tree)
  | [] => [(key, value)]
  | (k, v) :: rest => if k.same key then (k, value) :: rest else (k, v) :: put key value rest

/-- What stands under all tags. -/
def untag : Tree → Tree
  | .tagged _ inner => inner.untag
  | t => t

/-- The text a key consists of, tags left aside. -/
def text? (t : Tree) : Option String :=
  match t.untag with
  | .text s => some s
  | _ => none

mutual

/-- A tree as a value of its own. Reading a tag takes a mark off. -/
def toValue : Tree → Value
  | .null => .null
  | .bool b => .bool b
  | .int n => .int n
  | .float x => .double x
  | .text s => .text s
  | .list items => .list (itemsToValue items)
  | .map entries => .map (entriesToValue entries)
  | .tagged tag inner => .tagged (Tag.bare tag) inner.toValue

def itemsToValue : List Tree → List Value
  | [] => []
  | item :: rest => item.toValue :: itemsToValue rest

def entriesToValue : List (Tree × Tree) → List (Value × Value)
  | [] => []
  | (key, value) :: rest => (key.toValue, value.toValue) :: entriesToValue rest

end

end Tree

/-- Why a value cannot be encoded. -/
inductive EncodeError where
  | custom (message : String)
  | emptyTag
  | bytes
  | nestedTags
  /-- the written form of a map lost its beginning, at the top of the text or inside -/
  | unbalanced (top : Bool)
  | valueBeforeKey
  deriving DecidableEq, Repr

def EncodeError.message : EncodeError → String
  | .custom m => m
  | .emptyTag => "empty YAML tag is not allowed"
  | .bytes => "serialization and deserialization of bytes in YAML is not implemented"
  | .nestedTags => "serializing nested enums in YAML is not supported yet"
  | .unbalanced true => "expected DOCUMENT-START or STREAM-END"
  | .unbalanced false => "expected SCALAR, SEQUENCE-START, MAPPING-START, or ALIAS"
  | .valueBeforeKey => "map value serialized before its key"

namespace Tree

/-- Integers past 64 bits are kept as text. -/
def ofInt (n : Int) : Tree :=
  if -2 ^ (63 : Nat) ≤ n ∧ n < 2 ^ (64 : Nat) then .int n else .text (toString n)

def tag? (variant : String) : Except EncodeError String :=
  if variant.isEmpty then .error .emptyTag else .ok variant

mutual

/-- The tree of a value. Names of types are dropped; enumeration cases with content become tags. -/
def ofValue : Value → Except EncodeError Tree
  | .null => .ok .null
  | .bool b => .ok (.bool b)
  | .int n => .ok (ofInt n)
  | .double x => .ok (.float x)
  | .single x => .ok (.float (Format.double.convert x))
  | .text s => .ok (.text s)
  | .bytes data => .ok (.list (data.map fun b => .int b.toNat))
  | .list items => do .ok (.list (← ofItems items))
  | .map entries => do .ok (.map (← ofEntries [] entries))
  | .record _ fields => do .ok (.map (← ofFields [] fields))
  | .tuple _ items => do .ok (.list (← ofItems items))
  | .marker _ => .ok .null
  | .wrapper _ inner => ofValue inner
  | .unitCase _ variant => .ok (.text variant)
  | .wrapperCase _ variant inner => do
    let tag ← tag? variant
    .ok (.tagged tag (← ofValue inner))
  | .tupleCase _ variant items => do
    let tag ← tag? variant
    .ok (.tagged tag (.list (← ofItems items)))
  | .recordCase _ variant fields => do
    let tag ← tag? variant
    .ok (.tagged tag (.map (← ofFields [] fields)))
  | .tagged tag inner => do .ok (.tagged (Tag.bare tag) (← ofValue inner))
  | .broken message => .error (.custom message)
  | .keyless _ => .error .valueBeforeKey

def ofItems : List Value → Except EncodeError (List Tree)
  | [] => .ok []
  | item :: rest => do
    let item ← ofValue item
    .ok (item :: (← ofItems rest))

def ofEntries (done : List (Tree × Tree)) :
    List (Value × Value) → Except EncodeError (List (Tree × Tree))
  | [] => .ok done
  | (key, value) :: rest => do
    let key ← ofValue key
    let value ← ofValue value
    ofEntries (put key value done) rest

def ofFields (done : List (Tree × Tree)) :
    List (String × Value) → Except EncodeError (List (Tree × Tree))
  | [] => .ok done
  | (field, value) :: rest => do
    let value ← ofValue value
    ofFields (put (.text field) value done) rest

end

end Tree
end TestBench.Config
