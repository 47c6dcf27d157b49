import TestBench.Document
import TestBench.Number.Literal
import TestBench.Text.Blank
import TestBench.Text.Utf8
import TestBench.Time.Span

/-! Settings that all cases of a run share, read from environment variables. -/
namespace TestBench.Case

-- powers are those of the core library, whatever else is in scope
attribute [local instance (1100)] instPowNat

structure Settings where
  /-- whether an unmet dependency fails a case instead of skipping it -/
  mandatory : Bool
  short : Bool
  resolveTimeout : Span
  connectDeadline : Span
  retryInterval : Span
  requestTimeout : Span
  deriving DecidableEq, Repr

/-- The variables that are set, with their raw bytes. -/
abbrev Environment := List (String × List UInt8)

namespace Environment

/-- The text of a variable; bytes that are no text count as unset. -/
def text? (env : Environment) (name : String) : Option String :=
  (find? name env).bind Text.decode?

def flag (env : Environment) (name : String) : Bool :=
  match env.text? name with
  | some s => !s.isEmpty
  | none => false

/-- A length of time in milliseconds; what is no number of 64 bits counts as unset. -/
def millis (env : Environment) (name : String) (default : Nat) : Span :=
  let given := (env.text? name).bind fun s => Literal.unsigned? (2 ^ (64 : Nat)) (Text.trim s)
  .ofMillis (given.getD default)

end Environment

namespace Settings

def mandatoryVariable : String := "CI_PROBEKIT_FUNCTIONAL_TESTS"

def ofEnvironment (env : Environment) : Settings where
  mandatory := env.flag mandatoryVariable
  short := env.flag "PROBEKIT_SHORT"
  resolveTimeout := env.millis "PROBEKIT_RESOLVE_TIMEOUT_MS" 100
  connectDeadline := env.millis "PROBEKIT_CONNECT_DEADLINE_MS" 1000
  retryInterval := env.millis "PROBEKIT_RETRY_INTERVAL_MS" 100
  requestTimeout := env.millis "PROBEKIT_REQUEST_TIMEOUT_MS" 30000

/-- Tells whether unmet dependencies are fatal. -/
def mandatoryLabel (s : Settings) : String :=
  mandatoryVariable ++ " is " ++ if s.mandatory then "set" else "not set"

def text (s : Settings) : String :=
  "HarnessConfig \x7b mandatory: " ++ toString s.mandatory ++
    ", short: " ++ toString s.short ++
    ", resolve_timeout: " ++ s.resolveTimeout.text ++
    ", connect_deadline: " ++ s.connectDeadline.text ++
    ", retry_interval: " ++ s.retryInterval.text ++
    ", request_timeout: " ++ s.requestTimeout.text ++ " \x7d"

def millisText (s : Span) : Document := .text (toString (s.nanos / 1000000))

/-- All settings, lengths of time in milliseconds as text. -/
def toDocument (s : Settings) : Document :=
  .ofFields
    [("mandatory", .bool s.mandatory), ("short", .bool s.short),
     ("resolve_timeout", millisText s.resolveTimeout),
     ("connect_deadline", millisText s.connectDeadline),
     ("retry_interval", millisText s.retryInterval),
     ("request_timeout", millisText s.requestTimeout)]

end Settings
end TestBench.Case
