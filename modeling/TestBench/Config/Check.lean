import TestBench.Case.Session
import TestBench.Config.Decode
import TestBench.Diff.Compare

/-! Checking that configurations decode as expected, each as it is and again through text. -/
namespace TestBench.Config

structure Expectation where
  description : String
  /-- the destination that holds the defaults -/
  initial : Value
  source : Option Value
  expected : Value
  /-- whether the decode is expected to fail -/
  error : Bool

/-- Merging as decoders do it unless told otherwise. -/
def defaultMerge : MergeOptions := ⟨true, true⟩

namespace Expectation

open Case (Step)

def fatal (title detail : String) : Step := .abort (.fatal (title ++ ":\n" ++ detail))

/-- What a decoded value gives rise to. -/
def compareSteps (options : Diff.Options) (got expected : Value) : List Step :=
  match options.diff got expected with
  | .error e => [.panic (.text e.message)]
  | .ok delta => if delta.isEmpty then [] else [fatal "Decode() (-got, +want)" delta]

def decodedSteps (e : Expectation) (options : Diff.Options) :
    Except ConfigError Value → List Step
  | .error failure => if e.error then [] else [fatal "Decode() error" failure.message]
  | .ok got =>
    (if e.error then [.error "Decode() did not error"] else []) ++
      compareSteps options got e.expected

/-- Without a source nothing is decoded onto the defaults. -/
def tree (e : Expectation) (refusal : Refusal) (form : Form) : Except ConfigError Tree :=
  match e.source with
  | some source => prepare refusal source form
  | none => .ok .null

def steps (e : Expectation) (refusal : Refusal) (read : Reader) (options : Diff.Options)
    (form : Form) : List Step :=
  match e.tree refusal form with
  | .error failure => [fatal (form.text ++ " source error") failure.message]
  | .ok t => e.decodedSteps options (decodeOnto defaultMerge read e.initial t)

def forms (e : Expectation) : List Form :=
  if e.source.isSome then [.native, .yaml] else [.native]

def title (e : Expectation) : Form → String
  | .native => e.description
  | .yaml => e.description ++ " (from YAML)"

end Expectation

open Case (Session)

section

variable (refusal : Refusal) (read : Reader) (options : Diff.Options)

def checkOne (s : Session) (e : Expectation) : Session :=
  e.forms.foldl (fun s form => s.run (e.title form) (e.steps refusal read options form)) s

def checkAll (s : Session) (es : List Expectation) : Session :=
  es.foldl (checkOne refusal read options) s

end

end TestBench.Config
