import Succession.Fault

/-!
# Draining a source of events

The display's events wait in a queue of the connection, which says nothing about whether more can
be read. The loop therefore drains the queue whenever the connection wakes it up, and once more
before each wait. A gate can take the events away from the loop and hand them to a modal routine;
opening the gate again drains the queue at once.

An `EventSource` is whatever has events to drain and a state `σ` in which they are dealt with.
Draining ends because each event lowers the backlog (`EventSource.Lawful`), the events that its
handling brings about included.
-/

namespace Succession

/-- Whether the loop may take events, and the watches on the connection, the latest last, each
with whether it wakes the loop up. -/
structure Gate where
  isOpen : Bool := true
  watches : List Bool := []
deriving DecidableEq, Repr, Inhabited

namespace Gate

/-- The gate with the latest watch turned on or off. -/
def toggleLatest (g : Gate) (on : Bool) : Gate :=
  if g.watches = [] then g else { g with watches := g.watches.dropLast ++ [on] }

/-- The gate with one more watch, which is on. -/
def addWatch (g : Gate) : Gate := { g with watches := g.watches ++ [true] }

/-- Whether the connection is watched. -/
def isWatched (g : Gate) : Bool := !g.watches.isEmpty

/-- How many watches wake the loop up when there is something to read. -/
def activeWatches (g : Gate) : Nat := g.watches.count true

end Gate

/-- What runs when a wait ends: the callback of one of the watches on the connection, or that of
something else that the loop watches. -/
inductive Callback (σ : Type)
  | connection
  | other (change : σ → σ)

/-- One round of the loop, beginning with a wait. -/
structure LoopRound (σ : Type) where
  /-- What runs when the wait ends, one after another. -/
  callbacks : List (Callback σ) := []
  /-- What is done at the end of the round, when the loop is idle. -/
  idle : σ → σ := id

/-- A source of events `ε`, and how a state `σ` deals with them. -/
structure EventSource (σ ε : Type) where
  /-- Takes the next event, if there is one. -/
  poll : σ → Except Fault (Option ε) × σ
  /-- Sends what is waiting to be sent. -/
  flush : σ → Except Fault Unit × σ
  /-- Whether the event only reports a failed request. -/
  isError : ε → Bool
  /-- Deals with an event. -/
  dispatch : ε → σ → σ
  /-- Learns that the connection is gone. -/
  failed : Fault → σ → σ
  gate : σ → Gate
  setGate : Gate → σ → σ
  /-- A bound on how many events draining takes. -/
  backlog : σ → Nat

namespace EventSource

variable {σ ε : Type}

/-- Each event lowers the backlog, the events that its handling brings about included. -/
structure Lawful (p : EventSource σ ε) : Prop where
  backlog_dispatch : ∀ {s s' : σ} {e : ε}, p.poll s = (.ok (some e), s') → p.isError e = false →
    p.backlog (p.dispatch e s') < p.backlog s
  backlog_error : ∀ {s s' : σ} {e : ε}, p.poll s = (.ok (some e), s') → p.isError e = true →
    p.backlog s' < p.backlog s

/-- Deals with at most `limit` events and then sends what is waiting. Events that only report a
failed request are dropped and not counted. -/
def drainUpTo (p : EventSource σ ε) : Nat → σ → Except Fault Nat × σ
  | 0, s => (.ok 0, s)
  | limit + 1, s =>
    match p.poll s with
    | (.error f, s) => (.error f, s)
    | (.ok none, s) =>
      match p.flush s with
      | (.ok (), s) => (.ok 0, s)
      | (.error f, s) => (.error f, s)
    | (.ok (some e), s) =>
      if p.isError e then drainUpTo p limit s
      else
        let (count, s) := drainUpTo p limit (p.dispatch e s)
        (count.map (· + 1), s)

/-- Deals with every event that is waiting, in order of arrival, and then sends what is waiting to
be sent. The result counts the events. -/
def drain (p : EventSource σ ε) (s : σ) : Except Fault Nat × σ :=
  p.drainUpTo (p.backlog s + 1) s

/-- Drains if the gate is open; a failure of the connection is reported. -/
def drainIfOpen (p : EventSource σ ε) (s : σ) : Nat × σ :=
  if (p.gate s).isOpen then
    match p.drain s with
    | (.ok count, s) => (count, s)
    | (.error f, s) => (0, p.failed f s)
  else (0, s)

/-- What the loop does before each wait. -/
def beforeWait (p : EventSource σ ε) (s : σ) : σ := (p.drainIfOpen s).2

/-- Opens or closes the gate. Opening it drains at once. -/
def setOpen (p : EventSource σ ε) (on : Bool) (s : σ) : σ :=
  let g := p.gate s
  if g.isOpen = on then s
  else
    let s := p.setGate ({ g with isOpen := on }.toggleLatest on) s
    if on then (p.drainIfOpen s).2 else s

/-- Starts to watch the connection. -/
def watch (p : EventSource σ ε) (s : σ) : σ := p.setGate (p.gate s).addWatch s

/-- The callbacks run, one after another. That of the connection is only told that there may be
something to read, and drains. -/
def attend (p : EventSource σ ε) : List (Callback σ) → σ → σ
  | [], s => s
  | .connection :: rest, s => attend p rest (p.drainIfOpen s).2
  | .other change :: rest, s => attend p rest (change s)

/-- The loop was woken up by `n` watches. -/
def wakeUp (p : EventSource σ ε) (n : Nat) (s : σ) : σ :=
  p.attend (List.replicate n .connection) s

/-- The callbacks that the connection calls for when a wait begins in a state. -/
def calledFor (p : EventSource σ ε) (readable : σ → Bool) (s : σ) : List (Callback σ) :=
  if readable s then List.replicate (p.gate s).activeWatches .connection else []

/-- One wait, which ends because of what is readable in the state it begins in. -/
def wait (p : EventSource σ ε) (readable : σ → Bool) (s : σ) : σ :=
  p.attend (p.calledFor readable s) s

/-- Rounds of the loop: a wait, the callbacks, a drain, then the idle action. The result also lists
the states in which the waits began. -/
def rounds (p : EventSource σ ε) : List (LoopRound σ) → σ → List σ × σ
  | [], s => ([], s)
  | r :: rest, s =>
    let (waits, final) := rounds p rest (r.idle (p.beforeWait (p.attend r.callbacks s)))
    (s :: waits, final)

/-- Runs the loop for some rounds, draining once before the first wait. -/
def run (p : EventSource σ ε) (rs : List (LoopRound σ)) (s : σ) : List σ × σ :=
  p.rounds rs (p.beforeWait s)

end EventSource

end Succession
