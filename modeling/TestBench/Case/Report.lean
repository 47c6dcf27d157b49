import TestBench.Text.Blank

/-! What is known of a case once it has ended, and the summary of many. -/
namespace TestBench.Case

inductive Outcome where
  | passed
  | failed (messages : List String)
  | skipped (reason : String)
  deriving DecidableEq, Repr

namespace Outcome

/-- Any failure makes a case failed; only then a skip counts. -/
def of (failures : List String) (skip : Option String) : Outcome :=
  if failures.isEmpty then
    match skip with
    | some reason => .skipped reason
    | none => .passed
  else .failed failures

def failures : Outcome → List String
  | .failed messages => messages
  | _ => []

def reason? : Outcome → Option String
  | .skipped reason => some reason
  | _ => none

end Outcome

structure Report where
  name : String
  outcome : Outcome
  logs : List String
  deriving DecidableEq, Repr

namespace Report

def passed (r : Report) : Bool := r.outcome == .passed

def skipped (r : Report) : Bool := r.outcome.reason?.isSome

def failed (r : Report) : Bool :=
  match r.outcome with
  | .failed _ => true
  | _ => false

def failures (r : Report) : List String := r.outcome.failures

def summaryLines (r : Report) : List String :=
  match r.outcome with
  | .passed => ["✅ " ++ r.name ++ " - PASS"]
  | .skipped reason => ["⏭️  " ++ r.name ++ " - SKIP (" ++ reason ++ ")"]
  | .failed messages =>
    ("❌ " ++ r.name ++ " - FAIL (" ++ toString messages.length ++ " failures)") ::
      (messages.flatMap Text.lines).map ("   " ++ ·)

end Report

/-- A skipped case counts as neither passed nor failed. -/
def allPassed (reports : List Report) : Bool := reports.all fun r => !r.failed

def summaryLines (reports : List Report) : List String :=
  let count (p : Report → Bool) : String := toString (reports.filter p).length
  ["", "=== Probe Summary ==="] ++ reports.flatMap Report.summaryLines ++
    ["", "Results: " ++ count Report.passed ++ "/" ++ toString reports.length ++ " passed, " ++
      count Report.skipped ++ " skipped",
     if allPassed reports then "✅ All cases passed!"
     else "❌ " ++ count Report.failed ++ " cases failed"]

def summary (reports : List Report) : String :=
  String.join ((summaryLines reports).map (· ++ "\n"))

end TestBench.Case
