import TestBench.Case.Settings

/-! What a case does, step by step, and what can be seen of it. -/
namespace TestBench.Case

/-- The early end of a case that it asks for itself. -/
inductive Abort where
  | fatal (message : String)
  /-- a precondition is not met: the case neither passes nor fails -/
  | skip (reason : String)
  deriving DecidableEq, Repr

def Abort.text : Abort → String
  | .fatal message => "fatal: " ++ message
  | .skip reason => "skipped: " ++ reason

/-- What a panic carries. -/
inductive Payload where
  | text (message : String)
  | other
  deriving DecidableEq, Repr

def Payload.message : Payload → String
  | .text message => message
  | .other => "non-string panic payload"

/-- An error and its causes, the outermost first. -/
structure Chain where
  messages : List String
  deriving DecidableEq, Repr

namespace Chain

def text (c : Chain) : String := ": ".intercalate c.messages

def within (context : String) (c : Chain) : Chain := ⟨context :: c.messages⟩

end Chain

/-- How an action ends. -/
inductive Ending where
  | ok
  | error (chain : Chain)
  | panic (payload : Payload)
  deriving DecidableEq, Repr

/-- What an observer sees of a run, in order. -/
inductive Event where
  | opened (name : String)
  | dropping (name : String)
  | cleanup (id : String)
  | start (id : String)
  | stop (id : String)
  | failed (answer : Bool)
  | described (text : String)
  | aborting (a : Abort)
  | settings (s : Settings)
  deriving DecidableEq, Repr

def Event.text : Event → String
  | .opened name => "case " ++ name
  | .dropping name => "dropping " ++ name
  | .cleanup id => "cleanup " ++ id
  | .start id => "start " ++ id
  | .stop id => "stop " ++ id
  | .failed answer => "failed " ++ toString answer
  | .described text => text
  | .aborting a => a.text
  | .settings s => s.toDocument.compact

mutual

inductive Step where
  | log (message : String)
  | error (message : String)
  | abort (a : Abort)
  | panic (payload : Payload)
  | askFailed
  | describe
  /-- makes a fatal end and a skip without ending -/
  | makeAborts (message : String)
  | showSettings
  | register (c : Cleanup)
  /-- starts a component, to be stopped when the case ends; either phase may have nothing to do -/
  | startStop (id : String) (start stop : Option Ending)

/-- An action to run when the case ends. -/
inductive Cleanup where
  | plain (id : String) (ending : Ending)
  /-- stops a component -/
  | stop (id : String) (ending : Option Ending)
  /-- holds a handle on the case and works on it before it ends -/
  | holding (id : String) (steps : List Step) (ending : Ending)

end

def Cleanup.holdsCase : Cleanup → Bool
  | .holding .. => true
  | _ => false

end TestBench.Case
