import TestBench.Case.Step
import TestBench.Net.AddressText
import TestBench.Service.Retry

/-! Waiting for a service that a case depends on: look up its names, then dial until it answers. -/
namespace TestBench.Service

open Case (Abort Settings Step)

structure Target where
  name : String
  /-- host names, tried in order until one resolves -/
  candidates : List String
  port : Nat
  deriving DecidableEq, Repr

/-- How each look-up of a host and each attempt to connect to a server goes, by their numbers. -/
structure Network where
  /-- the addresses of a host -/
  lookup : String → Nat → Attempt String (List Net.Address)
  dial : String → Nat → Attempt String Unit

namespace Network

/-- A network without a route to anywhere: only address literals resolve, and nothing can be
reached. A failing connection takes a millisecond. -/
def isolated : Network where
  lookup host _ := ⟨⟨0⟩, .ok (Net.Address.parse? host).toList⟩
  dial _ _ := ⟨.ofMillis 1, .error "Network is unreachable (os error 101)"⟩

end Network

/-- A host and a port; IPv6 literals stand in brackets. -/
def joinHostPort (host : String) (port : Nat) : String :=
  (if (Net.V6.parse? host).isSome then "[" ++ host ++ "]" else host) ++ ":" ++ toString port

namespace Target

/-- What ends a case whose service is not there. -/
def unmet (settings : Settings) (message : String) : Abort :=
  let message := message ++ " (" ++ settings.mandatoryLabel ++ ")"
  if settings.mandatory then .fatal message else .skip message

def resolution (settings : Settings) (t : Target) : Retry where
  attemptTimeout := some settings.resolveTimeout
  deadline := none
  interval := ⟨0⟩
  maxAttempts := some t.candidates.length

/-- A host resolves when it has an address. -/
def resolve (host : String) : List Net.Address → Except String String
  | [] => .error ("no address for " ++ host)
  | _ :: _ => .ok host

/-- The look-up of the candidate in that place. -/
def lookupAttempt (net : Network) (t : Target) (i : Nat) : Attempt String String :=
  let host := t.candidates.getD i ""
  let a := net.lookup host i
  ⟨a.delay, a.outcome.bind (resolve host)⟩

def connection (settings : Settings) : Retry where
  attemptTimeout := none
  deadline := some settings.connectDeadline
  interval := settings.retryInterval
  maxAttempts := none

/-- In mandatory runs each failed attempt leaves a message; one that was cut off leaves none. -/
def connectLog (settings : Settings) (c : Call String Unit) : Option String :=
  match c.error? with
  | some (.failed e) => if settings.mandatory then some ("connect() error:\n" ++ e) else none
  | _ => none

/-- What a check did, and what it has to say. -/
structure Verdict where
  /-- the look-ups, numbered as the candidates -/
  lookups : List (Call String String)
  /-- the server that was dialled -/
  dialled : Option String
  dials : List (Call String Unit)
  /-- messages for the log of the case -/
  logs : List String
  /-- the server that is ready, or the end of the case -/
  server : Except Abort String

/-- The end of a case before anything was dialled. -/
def Verdict.undialled (lookups : List (Call String String)) (a : Abort) : Verdict :=
  ⟨lookups, none, [], [], .error a⟩

/-- The verdict once a server was dialled. -/
def connected (settings : Settings) (t : Target) (lookups : List (Call String String))
    (server : String) (ended : Ended String Unit) : Verdict where
  lookups := lookups
  dialled := some server
  dials := ended.calls
  logs := ended.calls.filterMap (connectLog settings)
  server := match ended.result with
    | .ok _ => .ok server
    | .error _ => .error (unmet settings (t.name ++ " is not running"))

/-- The verdict after the look-ups. -/
def resolved (settings : Settings) (net : Network) (rounds : Nat) (t : Target)
    (ended : Ended String String) : Option Verdict :=
  match ended.result with
  | .error _ =>
    some (.undialled ended.calls (unmet settings (t.name ++ " cannot be resolved")))
  | .ok host =>
    let server := joinHostPort host t.port
    ((connection settings).run (net.dial server) rounds).map
      (t.connected settings ended.calls server)

def shortSkip (t : Target) : Abort :=
  .skip ("Skip test with real " ++ t.name ++ " in short mode")

/-- The verdict, if dialling comes to an end within that many rounds. -/
def check (settings : Settings) (net : Network) (rounds : Nat) (t : Target) : Option Verdict :=
  if settings.short then some (.undialled [] t.shortSkip)
  else
    ((resolution settings t).run (t.lookupAttempt net) (t.candidates.length + 1)).bind
      (resolved settings net rounds t)

def Verdict.steps (v : Verdict) : List Step :=
  v.logs.map .log ++ match v.server with
    | .ok _ => []
    | .error a => [.abort a]

end Target
end TestBench.Service
