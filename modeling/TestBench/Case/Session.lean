import TestBench.Case.Run

/-! Many cases, one after the other. -/
namespace TestBench.Case

/-- What becomes of a case: its report is kept, handed out, or never made. -/
inductive Use where
  | keep
  | apart
  | abandon
  deriving DecidableEq, Repr

structure Plan where
  name : String
  use : Use
  body : List Step

structure Session where
  settings : Settings
  reports : List Report
  apart : List Report
  events : List Event

namespace Session

def start (settings : Settings) : Session := ⟨settings, [], [], []⟩

def see (s : Session) (events : List Event) : Session := { s with events := s.events ++ events }

/-- Runs a case and keeps its report. It makes no difference whether the body is awaited or runs at
once, as only the steps that it takes are seen. -/
def run (s : Session) (name : String) (body : List Step) : Session :=
  match runCase s.settings name body with
  | (report, events) => { s with reports := s.reports ++ [report] }.see (.opened name :: events)

/-- Runs a case and hands out its report. -/
def runApart (s : Session) (name : String) (body : List Step) : Session :=
  match runCase s.settings name body with
  | (report, events) => { s with apart := s.apart ++ [report] }.see (.opened name :: events)

def add (s : Session) (p : Plan) : Session :=
  match p.use with
  | .keep => s.run p.name p.body
  | .apart => s.runApart p.name p.body
  | .abandon => s.see (.opened p.name :: abandonCase s.settings p.name p.body)

def runAll (settings : Settings) (plans : List Plan) : Session :=
  plans.foldl add (start settings)

end Session
end TestBench.Case
