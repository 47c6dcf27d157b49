import TestBench.Number.Layout
import TestBench.Sorting
import TestBench.Text.Quoted
import TestBench.Text.Utf8

/-! Comparable trees: what a value looks like to a comparison. -/
namespace TestBench.Diff

inductive Node where
  | null
  | bool (b : Bool)
  | int (n : Int)
  | float (x : Binary)
  | text (s : String)
  | bytes (data : List UInt8)
  | seq (items : List Node)
  /-- entries by rendered key -/
  | map (entries : List (String × Node))
  | record (name : String) (fields : List (String × Node))
  /-- an enumeration case; one without content carries `null` -/
  | variant (type name : String) (content : Node)
  /-- the text a formatter gave, and whether the formatted value was zero -/
  | formatted (name text : String) (zero : Bool)
  deriving Inhabited

namespace Node

mutual

/-- The zero value of its kind; a record is zero when all its fields are. -/
def isZero : Node → Bool
  | .null => true
  | .bool b => !b
  | .int n => n == 0
  | .float x => x.isZero
  | .text s => s.isEmpty
  | .bytes data => data.isEmpty
  | .seq items => items.isEmpty
  | .map entries => entries.isEmpty
  | .record _ fields => allZero fields
  | .variant .. => false
  | .formatted _ _ zero => zero

def allZero : List (String × Node) → Bool
  | [] => true
  | (_, node) :: rest => node.isZero && allZero rest

end

def field? (name : String) : Node → Option Node
  | .record _ fields => find? name fields
  | _ => none

def int? : Node → Option Int
  | .int n => some n
  | _ => none

def text? : Node → Option String
  | .text s => some s
  | _ => none

mutual

/-- Equality of content: an integer equals a float of the same value, any two NaNs are equal,
entries and fields are matched by name whatever their order, formatted values by their text. -/
def equivalent : Node → Node → Bool
  | .null, .null => true
  | .bool a, .bool b => a == b
  | .int a, .int b => a == b
  | .int a, .float b => b.toInt? == some a
  | .float a, .int b => a.toInt? == some b
  | .float a, .float b => a.same b
  | .text a, .text b => a == b
  | .bytes a, .bytes b => a == b
  | .seq a, .seq b => itemsEquivalent a b
  | .map a, .map b => a.length == b.length && entriesWithin a b
  | .record n a, .record m b => n == m && (a.length == b.length && entriesWithin a b)
  | .variant t n a, .variant u m b => t == u && (n == m && equivalent a b)
  | .formatted _ a _, .formatted _ b _ => a == b
  | _, _ => false

def itemsEquivalent : List Node → List Node → Bool
  | [], [] => true
  | a :: as, b :: bs => equivalent a b && itemsEquivalent as bs
  | _, _ => false

def entriesWithin : List (String × Node) → List (String × Node) → Bool
  | [], _ => true
  | (key, a) :: rest, bs =>
    (match find? key bs with
      | some b => equivalent a b
      | none => false) && entriesWithin rest bs

end

mutual

/-- Equality of trees as they stand, floats compared by value. -/
def identical : Node → Node → Bool
  | .null, .null => true
  | .bool a, .bool b => a == b
  | .int a, .int b => a == b
  | .float a, .float b => a.eq b
  | .text a, .text b => a == b
  | .bytes a, .bytes b => a == b
  | .seq a, .seq b => itemsIdentical a b
  | .map a, .map b => entriesIdentical a b
  | .record n a, .record m b => n == m && entriesIdentical a b
  | .variant t n a, .variant u m b => t == u && (n == m && identical a b)
  | .formatted n a z, .formatted m b w => n == m && (a == b && z == w)
  | _, _ => false

def itemsIdentical : List Node → List Node → Bool
  | [], [] => true
  | a :: as, b :: bs => identical a b && itemsIdentical as bs
  | _, _ => false

def entriesIdentical : List (String × Node) → List (String × Node) → Bool
  | [], [] => true
  | (k, a) :: as, (l, b) :: bs => k == l && (identical a b && entriesIdentical as bs)
  | _, _ => false

end

end Node
end TestBench.Diff
