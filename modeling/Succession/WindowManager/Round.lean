import Succession.WindowManager.Display
import Succession.WindowManager.Service
import Succession.WindowManager.Shutdown
import Succession.Signal

/-!
# Rounds of the loop

The manager waits until something is ready, attends to everything that is, in the order in which
it was told, and drains the display before it waits again. A request to end is noted and takes
effect at the end of the round; until then the rest of the round goes on as if nothing had
happened.
-/

namespace Succession

/-- Something that the loop attends to. -/
inductive Ready
  | display
  /-- A client wants to connect to the listener at a descriptor. -/
  | listener (fd : Int)
  /-- There is something to read from the client at a descriptor. -/
  | client (fd : Int)
  /-- A signal that asks the process to end has come. -/
  | signal (number : Int)
deriving DecidableEq, Repr

namespace WindowManager

/-- The manager ends in order. It gives its channels up, removes what it would leave behind, sends
the display what is waiting to be sent, and removes its log. -/
def shutDown (m : WindowManager) (status : Int) : Remains :=
  let m := m.enter .shuttingDown
  let (files, _) :=
    Shutdown.removeState m.host.files m.holding.set.listeners.values m.restartSnapshot
  { host := { m.host with files := removeLog files m.logPath }
    display := m.connection.flush.2.server
    ending := .exited status }

/-- Attends to one thing. -/
def attend (m : WindowManager) : Ready → Except Departure WindowManager
  | .display => (events.wakeUp m.gate.activeWatches m).unlessFailed.mapError .ended
  | .listener fd => .ok (m.acceptWaiting fd)
  | .client fd => m.serveClient fd
  | .signal number => .ok (m.askToEnd (Signal.exitStatus number))

/-- Attends to several things, one after another. -/
def attendAll (m : WindowManager) : List Ready → Except Departure WindowManager
  | [] => .ok m
  | first :: rest =>
    match m.attend first with
    | .error departure => .error departure
    | .ok m => m.attendAll rest

/-- The end of a round: the display is drained, and the manager shuts down if it was asked to. -/
def endRound (m : WindowManager) : Except Departure WindowManager :=
  match (events.beforeWait m).unlessFailed with
  | .error remains => .error (.ended remains)
  | .ok m =>
    match m.exitStatus with
    | some status => .error (.ended (m.shutDown status))
    | none => .ok m

/-- One round, in which the listed things are ready. -/
def round (m : WindowManager) (ready : List Ready) : Except Departure WindowManager :=
  match m.attendAll ready with
  | .error departure => .error departure
  | .ok m => m.endRound

/-- Whether a client waits to connect to the listener at a descriptor. -/
def isCalled (m : WindowManager) (fd : Int) : Bool :=
  match m.holding.table.get? fd with
  | some ⟨.listener socket _, _⟩ => m.host.isCalled socket
  | _ => false

/-- Whether there is something to read from the client at a descriptor, its end included. -/
def isSpokenTo (m : WindowManager) (fd : Int) : Bool :=
  match m.connectionAt? fd with
  | some id =>
    let s := m.host.connections.get id
    !s.inbox.isEmpty || s.ended
  | none => false

/-- Everything that is ready: the display, then listeners, then clients. -/
def ready (m : WindowManager) : List Ready :=
  (if m.connection.isReadable && 0 < m.gate.activeWatches then [.display] else []) ++
    (m.holding.set.listeners.fds.filter m.isCalled).map .listener ++
    (m.holding.set.clients.fds.filter m.isSpokenTo).map .client

/-- A bound on how many rounds there is something ready without anything new from outside. -/
def workload (m : WindowManager) : Nat :=
  let reading (n : Nat) (e : Nat × Stream) := n + e.2.inbox.length + 2
  2 * (m.host.connections.entries.foldl reading 0 + m.host.waiting.length + 2)

end WindowManager

end Succession
