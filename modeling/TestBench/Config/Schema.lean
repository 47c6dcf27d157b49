import TestBench.Config.Tree
import TestBench.Net.SubnetTable
import TestBench.Text.Quoted
import TestBench.Time.Span

/-! Types of configuration, and reading a tree as a value of a type. -/
namespace TestBench.Config

-- powers are those of the core library, whatever else is in scope
attribute [local instance (1100)] instPowNat

mutual

inductive Schema where
  /-- any tree, kept as it is -/
  | any
  | text
  | bool
  | char
  | unsigned (bits : Nat)
  | signed (bits : Nat)
  | double
  | duration
  | optional (inner : Schema)
  | list (item : Schema)
  | tuple (items : List Schema)
  /-- texts to values, sorted by text -/
  | table (value : Schema)
  /-- address prefixes to values, or one value for all addresses -/
  | subnets (value : Schema)
  /-- `strict` refuses fields it does not know -/
  | record (name : String) (strict : Bool) (fields : List (String × Schema))
  | choice (name : String) (variants : List (String × Content))

/-- What an enumeration case carries. -/
inductive Content where
  | nothing
  | single (inner : Schema)
  | items (items : List Schema)
  | fields (fields : List (String × Schema))

end

/-- What was met where something else was expected. -/
inductive Found where
  | bool (b : Bool)
  | int (n : Int)
  | float (x : Binary)
  | text (s : String)
  | unit
  | list
  | map
  | tagged
  | bareVariant
  deriving DecidableEq, Repr

inductive ReadError where
  | wrongType (found : Found) (expected : String)
  | wrongValue (found : Found) (expected : String)
  | wrongLength (length : Nat) (expected : String)
  | missingField (field : String)
  | duplicateField (field : String)
  | unknownField (field : String) (known : List String)
  | unknownVariant (variant : String) (known : List String)
  | durationOverflow
  /-- neither a subnet table nor a single value -/
  | noForm
  | tagInForm
  | badPrefix (e : Net.PrefixError)
  /-- what a type with a reader of its own has to say -/
  | custom (message : String)
  deriving DecidableEq, Repr

def tick (s : String) : String := "`" ++ s ++ "`"

def Found.describe : Found → String
  | .bool b => "boolean " ++ tick (toString b)
  | .int n => "integer " ++ tick (toString n)
  | .float x => "floating point " ++ tick (x.text .spelledOut .double)
  | .text s => "string " ++ Text.quote s
  | .unit => "unit value"
  | .list => "sequence"
  | .map => "map"
  | .tagged => "enum"
  | .bareVariant => "unit variant"

def oneOf : List String → String
  | [a] => tick a
  | [a, b] => tick a ++ " or " ++ tick b
  | names => "one of " ++ ", ".intercalate (names.map tick)

namespace ReadError

def message : ReadError → String
  | .wrongType found expected => "invalid type: " ++ found.describe ++ ", expected " ++ expected
  | .wrongValue found expected => "invalid value: " ++ found.describe ++ ", expected " ++ expected
  | .wrongLength n expected => "invalid length " ++ toString n ++ ", expected " ++ expected
  | .missingField field => "missing field " ++ tick field
  | .duplicateField field => "duplicate field " ++ tick field
  | .unknownField field known =>
    "unknown field " ++ tick field ++ ", expected " ++ oneOf known
  | .unknownVariant variant known =>
    "unknown variant " ++ tick variant ++ ", expected " ++ oneOf known
  | .durationOverflow => "overflow deserializing Duration"
  | .noForm => "data did not match any variant of untagged enum Repr"
  | .tagInForm => "untagged and internally tagged enums do not support enum input"
  | .badPrefix e => e.message
  | .custom message => message

end ReadError

abbrev Read := Except ReadError

namespace Read

def found : Tree → Found
  | .null => .unit
  | .bool b => .bool b
  | .int n => .int n
  | .float x => .float x
  | .text s => .text s
  | .list _ => .list
  | .map _ => .map
  | .tagged .. => .tagged

def mismatch {α : Type} (t : Tree) (expected : String) : Read α :=
  .error (.wrongType (found t) expected)

def text (t : Tree) : Read String :=
  match t.untag with
  | .text s => .ok s
  | t => mismatch t "a string"

def bool (t : Tree) : Read Bool :=
  match t.untag with
  | .bool b => .ok b
  | t => mismatch t "a boolean"

def char (t : Tree) : Read String :=
  match t.untag with
  | .text s => if s.length = 1 then .ok s else .error (.wrongValue (.text s) "a character")
  | t => mismatch t "a character"

/-- An integer `n` with `low ≤ n < high`. -/
def int (low high : Int) (expected : String) (t : Tree) : Read Int :=
  match t.untag with
  | .int n =>
    if low ≤ n ∧ n < high then .ok n else .error (.wrongValue (.int n) expected)
  | t => mismatch t expected

def unsigned (bits : Nat) (t : Tree) : Read Int := int 0 (2 ^ bits) ("u" ++ toString bits) t

def signed (bits : Nat) (t : Tree) : Read Int :=
  int (-2 ^ (bits - 1)) (2 ^ (bits - 1)) ("i" ++ toString bits) t

def double (t : Tree) : Read Binary :=
  match t.untag with
  | .int n => .ok (Format.double.ofInt n)
  | .float x => .ok x
  | t => mismatch t "f64"

/-- The items of a list; null stands for an empty one. -/
def items (expected : String) (t : Tree) : Read (List Tree) :=
  match t.untag with
  | .list items => .ok items
  | .null => .ok []
  | t => mismatch t expected

def entries (expected : String) (t : Tree) : Read (List (Tree × Tree)) :=
  match t.untag with
  | .map entries => .ok entries
  | .null => .ok []
  | t => mismatch t expected

def list {α : Type} (item : Tree → Read α) (t : Tree) : Read (List α) := do
  (← items "a sequence" t).mapM item

def table {α : Type} (value : Tree → Read α) (t : Tree) : Read (List (String × α)) := do
  let pairs ← (← entries "a map" t).mapM fun (key, t) => do
    let key ← text key
    .ok (key, ← value t)
  .ok (sortBy keyLe (pairs.foldl (fun done (key, a) => put key a done) []))

def fieldName (expected : String) (key : Tree) : Read String :=
  match key.untag with
  | .text s => .ok s
  | key => mismatch key expected

/-- Reads the fields it knows, in the order they come. -/
def known {α : Type} (expected : String) (strict : Bool) (names : List String)
    (field : String → Tree → Option (Read α)) (done : List (String × α)) :
    List (Tree × Tree) → Read (List (String × α))
  | [] => .ok done
  | (key, t) :: rest => do
    let name ← fieldName expected key
    match field name t with
    | some read =>
      if (find? name done).isSome then .error (.duplicateField name)
      else known expected strict names field (done ++ [(name, ← read)]) rest
    | none =>
      if strict then .error (.unknownField name names)
      else known expected strict names field done rest

def anyField : String := "field identifier"

def durationFields : List String := ["secs", "nanos"]

/-- A length of time in seconds and nanoseconds; surplus nanoseconds carry over. -/
def duration (t : Tree) : Read Span := do
  let field (name : String) (t : Tree) : Option (Read Int) :=
    if name = "secs" then some (unsigned 64 t)
    else if name = "nanos" then some (unsigned 32 t)
    else none
  let got ← known (oneOf durationFields) true durationFields field []
    (← entries "struct Duration" t)
  match find? "secs" got, find? "nanos" got with
  | none, _ => .error (.missingField "secs")
  | _, none => .error (.missingField "nanos")
  | some secs, some nanos =>
    match Span.ofParts? secs.toNat nanos.toNat with
    | some span => .ok span
    | none => .error .durationOverflow

mutual

/-- Whether a tag stands anywhere in a tree. -/
def holdsTag : Tree → Bool
  | .list items => itemsHoldTag items
  | .map entries => entriesHoldTag entries
  | .tagged .. => true
  | _ => false

def itemsHoldTag : List Tree → Bool
  | [] => false
  | item :: rest => holdsTag item || itemsHoldTag rest

def entriesHoldTag : List (Tree × Tree) → Bool
  | [] => false
  | (key, value) :: rest => holdsTag key || (holdsTag value || entriesHoldTag rest)

end

section Subnets

variable {α : Type} (ofNull : Option α) (value : Tree → Read α)

/-- A value that is there. Null is one only where it stands for one, not for an empty table. -/
def given? : Tree → Option α
  | .null => ofNull
  | t => (value t).toOption

def textPair? : Tree × Tree → Option (String × α)
  | (.text key, t) => (given? ofNull value t).map (key, ·)
  | _ => none

/-- The entries of a table keyed by texts, if it is one. -/
def textTable? : Tree → Option (List (String × α))
  | .map entries => entries.mapM (textPair? ofNull value)
  | _ => none

/-- A table from prefixes to values or, if it is none, a single value for all addresses. -/
def subnets (t : Tree) : Read (Net.SubnetTable α) :=
  if holdsTag t then .error .tagInForm
  else
    match textTable? ofNull value t with
    | some entries =>
      match Net.SubnetTable.ofTexts entries with
      | .ok table => .ok table
      | .error e => .error (.badPrefix e)
    | none =>
      match given? ofNull value t with
      | some single => .ok (.withDefault single)
      | none => .error .noForm

end Subnets

end Read

/-- A subnet table as it shows itself. -/
def subnetsToValue (table : Net.SubnetTable Value) : Value :=
  .wrapper "SubnetMap" (.ofText table.toTexts)

def durationToValue (span : Span) : Value :=
  .record "Duration" [("secs", .int span.seconds), ("nanos", .int span.subsecond)]

namespace Schema

/-- What a record holds for a field that is missing. -/
def absent : Schema → Option Value
  | .optional _ => some .null
  | _ => none

/-- What null stands for where a value is asked for: no choice, or itself as a tree. -/
def ofNull : Schema → Option Value
  | .any => some .null
  | .optional _ => some .null
  | _ => none

/-- The values of all fields in their own order. -/
def assemble (got : List (String × Value)) :
    List (String × Schema) → Read (List (String × Value))
  | [] => .ok []
  | (name, schema) :: rest => do
    let value ← match find? name got with
      | some v => .ok v
      | none => match schema.absent with
        | some v => .ok v
        | none => .error (.missingField name)
    .ok ((name, value) :: (← assemble got rest))

mutual

def read : Schema → Tree → Read Value
  | .any, t => .ok t.toValue
  | .text, t => do .ok (.text (← Read.text t))
  | .bool, t => do .ok (.bool (← Read.bool t))
  | .char, t => do .ok (.text (← Read.char t))
  | .unsigned bits, t => do .ok (.int (← Read.unsigned bits t))
  | .signed bits, t => do .ok (.int (← Read.signed bits t))
  | .double, t => do .ok (.double (← Read.double t))
  | .duration, t => do .ok (durationToValue (← Read.duration t))
  | .optional inner, t =>
    match t with
    | .null => .ok .null
    | t => read inner t
  | .list item, t => do .ok (.list (← Read.list (fun t => read item t) t))
  | .tuple items, t => do
    let expected := "a tuple of size " ++ toString items.length
    let given ← Read.items expected t
    .ok (.list (← readItems expected given.length given items))
  | .table value, t => do .ok (.ofText (← Read.table (fun t => read value t) t))
  | .subnets value, t => do
    .ok (subnetsToValue (← Read.subnets value.ofNull (fun t => read value t) t))
  | .record name strict fields, t => do
    let entries ← Read.entries ("struct " ++ name) t
    let got ← Read.known Read.anyField strict (fields.map (·.1))
      (fun field t => readField field t fields) [] entries
    .ok (.record name (← assemble got fields))
  | .choice name variants, t =>
    match t with
    | .tagged tag inner =>
      readVariant name (variants.map (·.1)) (Tag.bare tag) (some inner) variants
    | .text variant => readVariant name (variants.map (·.1)) variant none variants
    | t => Read.mismatch t "a Value::Tagged enum"

/-- Items in their places, no more and no fewer. -/
def readItems (expected : String) (length : Nat) : List Tree → List Schema → Read (List Value)
  | [], [] => .ok []
  | _ :: _, [] => .error (.wrongLength length "fewer elements in sequence")
  | [], _ :: _ => .error (.wrongLength length expected)
  | t :: given, schema :: rest => do
    let value ← read schema t
    .ok (value :: (← readItems expected length given rest))

def readField (field : String) (t : Tree) : List (String × Schema) → Option (Read Value)
  | [] => none
  | (name, schema) :: rest => if name = field then some (read schema t) else readField field t rest

def readVariant (type : String) (known : List String) (variant : String) (inner : Option Tree) :
    List (String × Content) → Read Value
  | [] => .error (.unknownVariant variant known)
  | (name, content) :: rest =>
    if name = variant then readContent type variant inner content
    else readVariant type known variant inner rest

def readContent (type variant : String) (inner : Option Tree) : Content → Read Value
  | .nothing =>
    match inner with
    | none => .ok (.unitCase type variant)
    | some .null => .ok (.unitCase type variant)
    | some t => Read.mismatch t "unit"
  | .single schema =>
    match inner with
    | none => .error (.wrongType .bareVariant "newtype variant")
    | some t => do .ok (.wrapperCase type variant (← read schema t))
  | .items schemas =>
    let expected := "tuple variant " ++ type ++ "::" ++ variant ++ " with " ++
      toString schemas.length ++ " elements"
    match inner with
    | none => .error (.wrongType .bareVariant "tuple variant")
    | some (.list []) => Read.mismatch .null expected
    | some (.list given) => do
      .ok (.tupleCase type variant (← readItems expected given.length given schemas))
    | some t => Read.mismatch t "tuple variant"
  | .fields fields =>
    match inner with
    | none => .error (.wrongType .bareVariant "struct variant")
    | some (.map entries) => do
      let got ← Read.known Read.anyField false (fields.map (·.1))
        (fun field t => readField field t fields) [] entries
      .ok (.recordCase type variant (← assemble got fields))
    | some t => Read.mismatch t "struct variant"

end

end Schema
end TestBench.Config
