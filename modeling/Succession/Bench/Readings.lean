import Succession.Display.Features
import Succession.EventLoop.Feed
import Succession.Signal

/-!
# What is read off on a bench

Functions that show what a part of the process has come to when it is tried alone. No part of the
process calls them.
-/

namespace Succession

/-- The last component, if it is a name. -/
def Path.fileName? (p : Path) : Option Bytes :=
  match p.components.getLast? with
  | some (.normal name) => some name
  | _ => none

/-- The features as a number with one bit each. -/
def DisplayFeatures.bits (c : DisplayFeatures) : Nat :=
  (if c.keyboard then 1 else 0) + (if c.shape then 2 else 0) + if c.transparent then 4 else 0

namespace Signal

/-- What remains of a process after a signal. -/
structure Aftermath where
  /-- The signal that killed it. -/
  killedBy : Option Int
  /-- Whether its diagnostic log is still there. -/
  logLeft : Bool
deriving DecidableEq, Repr

/-- What remains of a process that handles only the aborting signals and raises one. -/
def raiseInCrashGuard (n : Int) : Aftermath :=
  match handling? n with
  | some .dieTidily => ⟨some n, false⟩
  | _ => if isIgnored false n then ⟨none, true⟩ else ⟨some n, true⟩

/-- The exit statuses that one round of the event loop records for the signals that have come: a
signal that is pending twice is delivered once, the lowest number first. -/
def roundStatuses (signals : List Int) : List Int :=
  ((terminating.mergeSort (· ≤ ·)).filter (· ∈ signals)).map exitStatus

end Signal

/-- Runs the loop with one round for each batch: the batch is put into the queue when the round is
idle. What is readable at the start stays so. The result also tells, for each round, how many events
had been dealt with by then. -/
def Feed.runBatches (s : Feed) (batches : List (List FeedEvent)) : List Nat × Feed :=
  let callbacks := source.calledFor Feed.readable s
  let (waits, final) := source.run (batches.map fun batch => ⟨callbacks, fun s => s.push batch⟩) s
  -- what had been dealt with when a round was idle was so too when the next wait began
  ((waits.drop 1 ++ [final]).map fun s => s.dispatched.length, final)

end Succession
