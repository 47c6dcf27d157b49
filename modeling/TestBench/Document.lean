import TestBench.Number.Layout
import TestBench.Sorting
import TestBench.Value

/-! JSON documents and their compact text. -/
namespace TestBench

inductive Document where
  | null
  | bool (b : Bool)
  | int (n : Int)
  | float (x : Binary)
  | text (s : String)
  | list (items : List Document)
  /-- the fields by ascending name, each name once -/
  | object (fields : List (String × Document))
  deriving Inhabited

namespace Document

/-- The last of several fields of one name counts. -/
def ofFields (fields : List (String × Document)) : Document :=
  .object (sortBy keyLe (fields.foldl (fun done (name, d) => put name d done) []))

mutual

def toValue : Document → Value
  | .null => .null
  | .bool b => .bool b
  | .int n => .int n
  | .float x => .double x
  | .text s => .text s
  | .list items => .list (itemsToValue items)
  | .object fields => .map (fieldsToValue fields)

def itemsToValue : List Document → List Value
  | [] => []
  | item :: rest => toValue item :: itemsToValue rest

def fieldsToValue : List (String × Document) → List (Value × Value)
  | [] => []
  | (name, d) :: rest => (.text name, toValue d) :: fieldsToValue rest

end

def escapeChar (c : Char) : List Char :=
  match c with
  | '"' => ['\\', '"']
  | '\\' => ['\\', '\\']
  | '\x08' => ['\\', 'b']
  | '\x0c' => ['\\', 'f']
  | '\n' => ['\\', 'n']
  | '\r' => ['\\', 'r']
  | '\t' => ['\\', 't']
  | c =>
    if c.toNat < 32 then
      ['\\', 'u', '0', '0', Nat.digitChar (c.toNat / 16), Nat.digitChar (c.toNat % 16)]
    else [c]

def quoted (s : String) : String :=
  String.ofList ('"' :: s.toList.flatMap escapeChar ++ ['"'])

mutual

/-- No blanks; a number that is no number is null. -/
def compact : Document → String
  | .null => "null"
  | .bool b => toString b
  | .int n => toString n
  | .float (.finite negative m e) => Binary.text .settingText .double (.finite negative m e)
  | .float _ => "null"
  | .text s => quoted s
  | .list items => "[" ++ ",".intercalate (compactItems items) ++ "]"
  | .object fields => "\x7b" ++ ",".intercalate (compactFields fields) ++ "\x7d"

def compactItems : List Document → List String
  | [] => []
  | item :: rest => compact item :: compactItems rest

def compactFields : List (String × Document) → List String
  | [] => []
  | (name, d) :: rest => (quoted name ++ ":" ++ compact d) :: compactFields rest

end

end Document
end TestBench
