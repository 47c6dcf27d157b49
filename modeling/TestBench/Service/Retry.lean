import TestBench.Time.Span

/-! Trying again under bounds: per attempt, over all, and in number. Time is counted in nanoseconds
from the first attempt, and passes only in attempts and in the pauses between them. -/
namespace TestBench.Service

/-- The bounds of a retry. Instants are unbounded here, while a clock has a last one: where a
deadline lies beyond it, the sum of an instant and a length of time panics, which is left out. -/
structure Retry where
  attemptTimeout : Option Span
  deadline : Option Span
  interval : Span
  maxAttempts : Option Nat
  deriving DecidableEq, Repr

/-- How an attempt goes when nothing cuts it off. -/
structure Attempt (ε α : Type) where
  delay : Span
  outcome : Except ε α

inductive AttemptError (ε : Type) where
  | failed (e : ε)
  | timedOut (after : Span)
  deriving DecidableEq, Repr

def AttemptError.text : AttemptError String → String
  | .failed e => e
  | .timedOut after => "timed out after " ++ after.text

structure Exhausted (ε : Type) where
  attempts : Nat
  lastError : Option (AttemptError ε)
  deriving DecidableEq, Repr

def Exhausted.text (e : Exhausted String) : String :=
  "gave up after " ++ toString e.attempts ++ " attempts" ++
    match e.lastError with
    | some last => ": " ++ last.text
    | none => ""

/-- An attempt that was made. -/
structure Call (ε α : Type) where
  number : Nat
  started : Nat
  ended : Nat
  result : Except (AttemptError ε) α

def Call.error? {ε α : Type} (c : Call ε α) : Option (AttemptError ε) :=
  match c.result with
  | .ok _ => none
  | .error e => some e

/-- Between two attempts: the time, and the calls made, the last one first. -/
structure Progress (ε α : Type) where
  now : Nat
  calls : List (Call ε α)

structure Ended (ε α : Type) where
  result : Except (Exhausted ε) α
  elapsed : Nat
  /-- the calls made, the first one first -/
  calls : List (Call ε α)

namespace Retry

variable {ε α : Type}

def outOfAttempts (r : Retry) (made : Nat) : Bool :=
  match r.maxAttempts with
  | some most => most ≤ made
  | none => false

def outOfTime (r : Retry) (now : Nat) : Bool :=
  match r.deadline with
  | some d => d.nanos ≤ now
  | none => false

/-- The instant at which an attempt is cut off. -/
def bound (r : Retry) (started : Nat) : Option Nat :=
  match r.attemptTimeout, r.deadline with
  | some t, some d => some (min (started + t.nanos) d.nanos)
  | some t, none => some (started + t.nanos)
  | none, some d => some d.nanos
  | none, none => none

/-- An attempt that ends exactly at its bound is not cut off. -/
def call (r : Retry) (number started : Nat) (a : Attempt ε α) : Call ε α :=
  let natural : Call ε α := ⟨number, started, started + a.delay.nanos, a.outcome.mapError .failed⟩
  match r.bound started with
  | none => natural
  | some b =>
    if natural.ended ≤ b then natural
    else ⟨number, started, b, .error (.timedOut ⟨b - started⟩)⟩

/-- No pause follows the last attempt allowed. -/
def pause (r : Retry) (made : Nat) : Nat :=
  if r.outOfAttempts made then 0 else r.interval.nanos

def exhausted (p : Progress ε α) : Exhausted ε :=
  ⟨p.calls.length, p.calls.head?.bind Call.error?⟩

/-- One round: the end of the loop, or one more failed call and the pause after it. -/
def step (r : Retry) (script : Nat → Attempt ε α) (p : Progress ε α) :
    Ended ε α ⊕ Progress ε α :=
  if r.outOfAttempts p.calls.length || r.outOfTime p.now then
    .inl ⟨.error (exhausted p), p.now, p.calls.reverse⟩
  else
    let c := r.call p.calls.length p.now (script p.calls.length)
    let calls := c :: p.calls
    match c.result with
    | .ok value => .inl ⟨.ok value, c.ended, calls.reverse⟩
    | .error _ => .inr ⟨c.ended + r.pause calls.length, calls⟩

/-- The end of the loop, if it comes within that many rounds. -/
def runFrom (r : Retry) (script : Nat → Attempt ε α) : Nat → Progress ε α → Option (Ended ε α)
  | 0, _ => none
  | rounds + 1, p =>
    match r.step script p with
    | .inl ended => some ended
    | .inr p => runFrom r script rounds p

def run (r : Retry) (script : Nat → Attempt ε α) (rounds : Nat) : Option (Ended ε α) :=
  r.runFrom script rounds ⟨0, []⟩

/-- Rounds enough when every attempt or pause takes time, for a script whose first `known`
attempts matter. -/
def rounds (r : Retry) (known : Nat) : Nat :=
  known + r.maxAttempts.getD 0 + (r.deadline.map (·.nanos)).getD 0 + 1

end Retry
end TestBench.Service
