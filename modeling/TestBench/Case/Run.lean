import TestBench.Case.Report
import TestBench.Case.Step
import TestBench.Text.Quoted

/-! Running one case: its body, then the cleanups it registered, the last one first. -/
namespace TestBench.Case

structure State where
  name : String
  settings : Settings
  failures : List String
  logs : List String
  skip : Option String
  /-- registered cleanups, the last registered first -/
  pending : List Cleanup
  events : List Event

namespace State

def start (settings : Settings) (name : String) : State where
  name := name
  settings := settings
  failures := []
  logs := []
  skip := none
  pending := []
  events := []

def fail (s : State) (message : String) : State :=
  { s with failures := s.failures ++ [message] }

def log (s : State) (message : String) : State := { s with logs := s.logs ++ [message] }

def see (s : State) (e : Event) : State := { s with events := s.events ++ [e] }

def register (s : State) (c : Cleanup) : State := { s with pending := c :: s.pending }

def failed (s : State) : Bool := !s.failures.isEmpty

def text (s : State) : String :=
  "TestCase \x7b name: " ++ Text.quote s.name ++ ", failed: " ++ toString s.failed ++ " \x7d"

end State

/-- What ends a body before its last step. -/
inductive Exit where
  | abort (a : Abort)
  | panic (payload : Payload)
  deriving DecidableEq, Repr

/-- A component that fails to start ends the body and is never stopped. -/
def startStop (s : State) (id : String) (start stop : Option Ending) : State × Option Exit :=
  match start with
  | none => (s.register (.stop id stop), none)
  | some .ok => ((s.see (.start id)).register (.stop id stop), none)
  | some (.error chain) =>
    (s.see (.start id), some (.abort (.fatal ("Start() error:\n" ++ chain.text))))
  | some (.panic payload) => (s.see (.start id), some (.panic payload))

def runStep (s : State) : Step → State × Option Exit
  | .log message => (s.log message, none)
  | .error message => (s.fail message, none)
  | .abort a => (s, some (.abort a))
  | .panic payload => (s, some (.panic payload))
  | .askFailed => (s.see (.failed s.failed), none)
  | .describe => (s.see (.described s.text), none)
  | .makeAborts message =>
    ((s.see (.aborting (.fatal message))).see (.aborting (.skip message)), none)
  | .showSettings => (s.see (.settings s.settings), none)
  | .register c => (s.register c, none)
  | .startStop id start stop => startStop s id start stop

/-- The first exit ends a body. -/
def runBody (s : State) : List Step → State × Option Exit
  | [] => (s, none)
  | step :: rest =>
    match runStep s step with
    | (s, none) => runBody s rest
    | (s, some exit) => (s, some exit)

/-- Within a cleanup an abort ends nothing; a panic ends the cleanup. -/
def runInside (s : State) : List Step → State × Option Payload
  | [] => (s, none)
  | step :: rest =>
    match runStep s step with
    | (s, some (.panic payload)) => (s, some payload)
    | (s, _) => runInside s rest

def runCleanup (s : State) : Cleanup → State × Ending
  | .plain id ending => (s.see (.cleanup id), ending)
  | .stop _ none => (s, .ok)
  | .stop id (some ending) =>
    (s.see (.stop id), match ending with
      | .error chain => .error (chain.within "Stop() error")
      | ending => ending)
  | .holding id steps ending =>
    match runInside (s.see (.cleanup id)) steps with
    | (s, none) => (s, ending)
    | (s, some payload) => (s, .panic payload)

/-- What the ending of a cleanup adds to the failures. -/
def Ending.failure? : Ending → Option String
  | .ok => none
  | .error chain => some chain.text
  | .panic payload => some ("cleanup panicked: " ++ payload.message)

def settle (s : State) (c : Cleanup) : State :=
  match runCleanup s c with
  | (s, ending) => match ending.failure? with
    | some message => s.fail message
    | none => s

def settleAll (s : State) (cs : List Cleanup) : State := cs.foldl settle s

def record (s : State) : Option Exit → State
  | none => s
  | some (.abort (.fatal message)) => s.fail message
  | some (.abort (.skip reason)) => { s with skip := some reason }
  | some (.panic payload) => s.fail ("panicked: " ++ payload.message)

def State.report (s : State) : Report := ⟨s.name, Outcome.of s.failures s.skip, s.logs⟩

/-- The last handle is gone: what is pending runs, and its failures go unheard. A cleanup that
holds a handle itself keeps the case alive, and then nothing runs. -/
def release (s : State) : State :=
  if s.pending.any Cleanup.holdsCase then s
  else settleAll { s with pending := [] } s.pending

/-- The cleanups registered so far run before the report is made, those they register after it. -/
def finish (s : State) (exit : Option Exit) : Report × State :=
  let s := record s exit
  let s := settleAll { s with pending := [] } s.pending
  (s.report, release s)

/-- A whole case, with its report and all that was seen of it. -/
def runCase (settings : Settings) (name : String) (body : List Step) : Report × List Event :=
  match runBody (.start settings name) body with
  | (s, exit) => match finish s exit with
    | (report, s) => (report, s.events)

/-- A case whose handle is given up without an end. -/
def abandonCase (settings : Settings) (name : String) (body : List Step) : List Event :=
  (release ((runBody (.start settings name) body).1.see (.dropping name))).events

end TestBench.Case
