import TestBench.Diff.Render

/-! What a comparison looks at: which record fields, and which types as formatted text. -/
namespace TestBench.Diff

/-- Why a value has no tree: it cannot describe itself, or a formatter gave up on it. -/
inductive Failure where
  | unserializable (message : String)
  | durationOverflow
  deriving DecidableEq, Repr

namespace Failure

def message : Failure → String
  | .unserializable m => m
  | .durationOverflow => "overflow in Duration::new"

def valueBeforeKey : Failure := .unserializable "map value serialized before its key"

end Failure

/-- Renders the tree of a value of some type. -/
abbrev Formatter := Node → Except Failure String

structure Options where
  unexported : Bool
  zero : Bool
  /-- formatters by type name, each name once -/
  formatters : List (String × Formatter)

/-- One change to the options of a comparison. -/
inductive Setting where
  | unexported
  | zero
  | formatter (type : String) (format : Formatter)

/-- The name a generic type is known by: its path and its parameters dropped. -/
def shortTypeName (full : String) : String :=
  let base := full.toList.takeWhile (· != '<')
  String.ofList (afterPath base base)
where
  /-- What follows the last double colon. -/
  afterPath (found : List Char) : List Char → List Char
    | ':' :: ':' :: rest => afterPath rest rest
    | _ :: rest => afterPath found rest
    | [] => found

namespace Options

def apply (o : Options) : Setting → Options
  | .unexported => { o with unexported := true }
  | .zero => { o with zero := true }
  | .formatter type format => { o with formatters := put type format o.formatters }

def formatter? (o : Options) (type : String) : Option Formatter := find? type o.formatters

/-- Fields whose name starts with an underscore are not exported. -/
def isUnexported (field : String) : Bool := field.toList.head? == some '_'

def keeps (o : Options) (field : String) (node : Node) : Bool :=
  (o.unexported || !isUnexported field) && (o.zero || !node.isZero)

end Options

def Setting.text : Setting → String
  | .unexported => "Unexported"
  | .zero => "Zero"
  | .formatter type _ => "Formatter(" ++ type ++ ")"

def Options.text (o : Options) : String :=
  let names := sortBy textLe (o.formatters.map (·.1))
  "DiffConfig \x7b include_unexported: " ++ toString o.unexported ++ ", include_zero: " ++
    toString o.zero ++ ", formatters: [" ++ ", ".intercalate (names.map Text.quote) ++ "] \x7d"

end TestBench.Diff
