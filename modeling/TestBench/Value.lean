import TestBench.Number.Binary

/-! The values under test, as they describe themselves: plain data, named records and enumeration
cases. What a consumer makes of a name is its own affair. -/
namespace TestBench

inductive Value where
  | null
  | bool (b : Bool)
  | int (n : Int)
  | double (x : Binary)
  | single (x : Binary)
  | text (s : String)
  | bytes (data : List UInt8)
  | list (items : List Value)
  | map (entries : List (Value × Value))
  | record (name : String) (fields : List (String × Value))
  | tuple (name : String) (items : List Value)
  | marker (name : String)
  | wrapper (name : String) (inner : Value)
  | unitCase (type variant : String)
  | wrapperCase (type variant : String) (inner : Value)
  | tupleCase (type variant : String) (items : List Value)
  | recordCase (type variant : String) (fields : List (String × Value))
  /-- a configuration value under a tag -/
  | tagged (tag : String) (inner : Value)
  /-- a value that fails to describe itself -/
  | broken (message : String)
  /-- a map that gives a value without its key -/
  | keyless (inner : Value)
  deriving Inhabited

namespace Value

def ofText (entries : List (String × Value)) : Value :=
  .map (entries.map fun (k, v) => (.text k, v))

end Value
end TestBench
