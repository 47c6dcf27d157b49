import TestBench.Text.Utf8

/-! The first lines of a body that arrives in pieces. -/
namespace TestBench.Service

abbrev Bytes := List UInt8

def lineFeed : UInt8 := 0x0A

def carriageReturn : UInt8 := 0x0D

def dropEnd (b : UInt8) (bytes : Bytes) : Bytes :=
  if bytes.getLast? = some b then bytes.dropLast else bytes

/-- The text of a line without its end. -/
def lineText (line : Bytes) : String :=
  Text.decodeLossy (dropEnd carriageReturn (dropEnd lineFeed line))

/-- The first line with its line feed, and what follows. -/
def cutLine : Bytes → Option (Bytes × Bytes)
  | [] => none
  | b :: rest =>
    if b = lineFeed then some ([b], rest)
    else (cutLine rest).map fun (line, rest) => (b :: line, rest)

/-- At most `count` ended lines, and what is left. -/
def takeLines : Nat → Bytes → List String × Bytes
  | 0, pending => ([], pending)
  | count + 1, pending =>
    match cutLine pending with
    | none => ([], pending)
    | some (line, rest) =>
      match takeLines count rest with
      | (lines, rest) => (lineText line :: lines, rest)

/-- How a body ends: completely, or in an error after the pieces that did arrive. -/
structure Body where
  chunks : List Bytes
  broken : Bool
  deriving DecidableEq, Repr

/-- Reads on only while lines are wanted; an unended last line counts if the body is complete. -/
def readLines (broken : Bool) (count : Nat) (pending : Bytes) : List Bytes → List String
  | [] =>
    match takeLines count pending with
    | (lines, rest) =>
      if lines.length = count || broken || rest.isEmpty then lines else lines ++ [lineText rest]
  | chunk :: more =>
    match takeLines count pending with
    | (lines, rest) =>
      if lines.length = count then lines
      else lines ++ readLines broken (count - lines.length) (rest ++ chunk) more

namespace Body

def firstLines (b : Body) (count : Nat) : List String := readLines b.broken count [] b.chunks

/-- All bytes, if the body is complete. -/
def bytes? (b : Body) : Option Bytes := if b.broken then none else some b.chunks.flatten

end Body
end TestBench.Service
