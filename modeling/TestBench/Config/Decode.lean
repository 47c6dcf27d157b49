import TestBench.Config.Merge
import TestBench.Config.Schema
import TestBench.Config.Written

/-! Decoding a source configuration onto a value that holds the defaults. -/
namespace TestBench.Config

/-- The way a source takes: as the tree it is, or through text. -/
inductive Form where
  | native
  | yaml
  deriving DecidableEq, Repr

def Form.text : Form → String
  | .native => "native"
  | .yaml => "YAML"

inductive ConfigError where
  | encodeDestination (e : EncodeError)
  | encodeSource (e : EncodeError)
  /-- with what the parser says of the text -/
  | parseYaml (problem : String)
  | decode (e : ReadError)
  deriving DecidableEq, Repr

def ConfigError.message : ConfigError → String
  | .encodeDestination e => "failed to encode destination: " ++ e.message
  | .encodeSource e => "failed to encode source configuration: " ++ e.message
  | .parseYaml problem => "failed to parse YAML: " ++ problem
  | .decode e => "failed to decode configuration: " ++ e.message

/-- Text is read to this depth of lists and maps. -/
def depthLimit : Nat := 128

/-- What a parser says of the text of a value that it refuses. It names positions in the text, which
is not written out here. -/
abbrev Refusal := Value → String

def prepare (refusal : Refusal) (source : Value) : Form → Except ConfigError Tree
  | .native => (Tree.ofValue source).mapError .encodeSource
  | .yaml =>
    match Written.write false [] source with
    | .error e => .error (.encodeSource e)
    | .ok _ =>
      let t := Written.said source
      if Written.readable depthLimit t then .ok t else .error (.parseYaml (refusal source))

/-- How a type reads its values. -/
abbrev Reader := Tree → Read Value

/-- The destination after the decode; on an error it stays what it was. -/
def decodeOnto (o : MergeOptions) (read : Reader) (dest : Value) (source : Tree) :
    Except ConfigError Value := do
  let tree ← (Tree.ofValue dest).mapError .encodeDestination
  let shape ← (Shape.ofValue dest).mapError .encodeDestination
  (read (merge o shape tree source)).mapError .decode

end TestBench.Config
