/-!
# Signals

Signals whose usual effect is to end the process stop the event loop, so that the process cleans
up and exits with a status that names the signal. Signals whose usual effect is a core dump let
the process die, but not before the diagnostic log is removed. All others have their usual effect.
-/

namespace Succession

/-- How the process deals with a signal that it handles. -/
inductive Handling
  | endLoop
  | dieTidily
deriving DecidableEq, Repr

namespace Signal

/-- The signals that end the event loop: hangup, interrupt, alarm, terminate and the first user
signal. -/
def terminating : List Int := [1, 2, 14, 15, 10]

/-- The signals that end the process at once with cleanup: quit, illegal instruction, abort,
arithmetic error and segmentation fault. -/
def aborting : List Int := [3, 4, 6, 8, 11]

/-- The signals that do nothing by themselves: child, continue, urgent data and window change. -/
def harmless : List Int := [17, 18, 23, 28]

/-- The signal of a broken pipe, which the process ignores. -/
def brokenPipe : Int := 13

/-- The signal of a bad memory access that is not a segmentation fault. A guard that every
process has swallows the first one and lets the next ones through. -/
def busError : Int := 7

/-- The signals that the threading library keeps for itself. -/
def reserved : List Int := [32, 33]

/-- Whether the threading library keeps the signal for itself: a process cannot send it to itself,
but another process can. -/
def isReserved (n : Int) : Bool := n ∈ reserved

/-- The greatest number of a signal. -/
def greatest : Int := 64

/-- How the process deals with a signal, if it handles it. -/
def handling? (n : Int) : Option Handling :=
  if n ∈ terminating then some .endLoop
  else if n ∈ aborting then some .dieTidily
  else none

/-- The exit status that names a signal, by the shells' rule. -/
def exitStatus (n : Int) : Int := 128 + n

/-- Whether there is a signal with the number that a process can send to itself. -/
def isSendable (n : Int) : Bool := 0 < n && n ≤ greatest && !isReserved n

/-- Whether an unhandled signal leaves the process running, `swallowed` telling whether the guard
has swallowed a bus error already. -/
def isIgnored (swallowed : Bool) (n : Int) : Bool :=
  !isSendable n || n ∈ harmless || n = brokenPipe || (n = busError && !swallowed)

end Signal

end Succession
