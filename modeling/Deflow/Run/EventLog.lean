import Deflow.Run.Event

/-!
# Keeping events

A reporter that keeps every event it is told of, and that may be made to refuse
one of them.
-/

namespace Deflow

/-- The events so far. -/
structure EventLog where
  /-- The latest first. -/
  events : List Event := []
  /-- The number of events behind which one is refused, and the reason. -/
  refusal : Option (Nat × OsError) := none
deriving DecidableEq, Repr

/-- The log with one more event. -/
def EventLog.push (log : EventLog) (event : Event) : EventLog :=
  { log with events := event :: log.events }

/-- Whether the next event is refused, and why. -/
def EventLog.refuses? (log : EventLog) : Option OsError :=
  match log.refusal with
  | some (number, reason) => if log.events.length = number then some reason else none
  | none => none

/-- The events in the order in which they happened. -/
def EventLog.inOrder (log : EventLog) : List Event :=
  log.events.reverse

/-- The reporter that keeps events in the state. -/
def Reporter.keeping [Monad m] : Reporter (StateT EventLog m) := fun event => do
  let log ← get
  match log.refuses? with
  | some reason => throw reason
  | none => set (log.push event)

end Deflow
