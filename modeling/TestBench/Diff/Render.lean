import TestBench.Diff.Node

/-! Trees as text, on one line and on several. -/
namespace TestBench.Diff.Node

def floatText (x : Binary) : String := x.text .shown .double

def bytesText (data : List UInt8) : String := "b" ++ Text.quote (Text.decodeLossy data)

def braces (s : String) : String := "\x7b" ++ s ++ "\x7d"

mutual

def inline : Node → String
  | .null => "null"
  | .bool b => toString b
  | .int n => toString n
  | .float x => floatText x
  | .text s => Text.quote s
  | .bytes data => bytesText data
  | .seq items => "[" ++ ", ".intercalate (inlineItems items) ++ "]"
  | .map entries => braces (", ".intercalate (inlineEntries entries))
  | .record name fields => name ++ braces (", ".intercalate (inlineEntries fields))
  | .variant _ name .null => name
  | .variant _ name (.record _ fields) => name ++ braces (", ".intercalate (inlineEntries fields))
  | .variant _ name content => name ++ "(" ++ inline content ++ ")"
  | .formatted _ shown _ => shown

def inlineItems : List Node → List String
  | [] => []
  | item :: rest => inline item :: inlineItems rest

def inlineEntries : List (String × Node) → List String
  | [] => []
  | (key, node) :: rest => (key ++ ": " ++ inline node) :: inlineEntries rest

end

def mapFirst {α : Type} (f : α → α) : List α → List α
  | [] => []
  | a :: rest => f a :: rest

def mapLast {α : Type} (f : α → α) : List α → List α
  | [] => []
  | [a] => [f a]
  | a :: rest => a :: mapLast f rest

/-- The lines of a value inside another: a label on the first, a comma after the last. -/
def nested (label : String) (lines : List String) : List String :=
  (mapLast (· ++ ",") (mapFirst (label ++ ·) lines)).map ("  " ++ ·)

mutual

/-- Containers open and close on lines of their own, except empty ones. -/
def lines : Node → List String
  | .seq (item :: rest) => "[" :: linesOfItems (item :: rest) ++ ["]"]
  | .map (entry :: rest) => "\x7b" :: linesOfEntries (entry :: rest) ++ ["\x7d"]
  | .record name (field :: rest) =>
    (name ++ "\x7b") :: linesOfEntries (field :: rest) ++ ["\x7d"]
  | .variant _ name .null => [name]
  | .variant _ _ (.record name fields) => lines (.record name fields)
  | .variant _ name content =>
    mapLast (· ++ ")") (mapFirst (fun first => name ++ "(" ++ first) (lines content))
  | node => [inline node]

def linesOfItems : List Node → List String
  | [] => []
  | item :: rest => nested "" (lines item) ++ linesOfItems rest

def linesOfEntries : List (String × Node) → List String
  | [] => []
  | (key, node) :: rest => nested (key ++ ": ") (lines node) ++ linesOfEntries rest

end

end TestBench.Diff.Node
