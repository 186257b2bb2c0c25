/-!
# Phases of a process

A process starts bootstrapping and from then on only moves forward, to restart or to shut down.
`Phase.enter` refuses a step back.
-/

namespace Succession

/-- How far a process has come. -/
inductive Phase
  | bootstrapping
  | negotiating
  | restoringOrder
  | reconcilingExistingWindows
  | running
  | restartRequested
  | shuttingDown
deriving DecidableEq, Repr, Inhabited

namespace Phase

/-- All phases in their order. -/
def all : List Phase :=
  [bootstrapping, negotiating, restoringOrder, reconcilingExistingWindows, running,
    restartRequested, shuttingDown]

/-- The place of the phase in the order. -/
def rank : Phase → Nat
  | bootstrapping => 0
  | negotiating => 1
  | restoringOrder => 2
  | reconcilingExistingWindows => 3
  | running => 4
  | restartRequested => 5
  | shuttingDown => 6

/-- The name of the phase. -/
def name : Phase → String
  | bootstrapping => "bootstrapping"
  | negotiating => "negotiating"
  | restoringOrder => "restoring-or-building-tree"
  | reconcilingExistingWindows => "reconciling-existing-windows"
  | running => "running"
  | restartRequested => "restart-requested"
  | shuttingDown => "shutting-down"

/-- Whether a process in phase `current` may enter `next`: staying is allowed, going back is not. -/
def mayEnter (current next : Phase) : Bool := current.rank ≤ next.rank

/-- The phase of a process in `current` after it was told to enter `next`. -/
def enter (current next : Phase) : Phase := if current.mayEnter next then next else current

end Phase

end Succession
