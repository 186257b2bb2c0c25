import Succession.Channel.Set
import Succession.CommandLine.Options
import Succession.RingLog
import Succession.Display.Features
import Succession.EventLoop.Source
import Succession.Process.Host
import Succession.Settings.Basic

/-!
# The window manager

The state of a running window manager, and the two ways in which it ends by itself: it gives up
because of a fault, or it shuts down in order. Which way it goes decides what it leaves behind.
-/

namespace Succession

/-- A running window manager. -/
structure WindowManager where
  host : Host
  connection : Connection
  /-- The whole command line, the program's name first. -/
  arguments : List Bytes
  options : Options := {}
  environment : Environment := {}
  settings : Settings := {}
  features : DisplayFeatures := default
  holding : Holding := {}
  order : WindowOrder := {}
  phase : Phase := .bootstrapping
  gate : Gate := {}
  /-- Where requests are expected, if anywhere. -/
  socketPath : Option Path := none
  /-- The path of the diagnostic log, if there is one. -/
  logPath : Option Path := none
  /-- The status to exit with, once it has been asked to end. -/
  exitStatus : Option Int := none
  /-- Why the display cannot be used any more. -/
  failure : Option Fault := none
  /-- Whether the guard has swallowed a bus error. -/
  swallowedBusError : Bool := false
deriving Inhabited

namespace WindowManager

/-- The manager in a later phase. -/
def enter (m : WindowManager) (phase : Phase) : WindowManager :=
  { m with phase := m.phase.enter phase }

/-- The files without the diagnostic log. -/
def removeLog (files : FileSystem) (log : Option Path) : FileSystem :=
  match log with
  | some p => RingLog.removeAt files p
  | none => files

/-- A process with a diagnostic log at `log` complains of a fault and exits with status 1. Of what
it leaves behind it removes the log alone. -/
def abandon (host : Host) (display : DisplayServer) (log : Option Path) (f : Fault) : Remains :=
  { host := { host with files := removeLog host.files log }
    display := display
    ending := .exited 1
    complaint := some f.message }

/-- The manager complains of a fault and exits. -/
def giveUp (m : WindowManager) (f : Fault) : Remains :=
  abandon m.host m.connection.server m.logPath f

/-- The manager, unless the display has failed. -/
def unlessFailed (m : WindowManager) : Except Remains WindowManager :=
  match m.failure with
  | some f => .error (m.giveUp f)
  | none => .ok m

/-- The manager is asked to end; the last of several requests counts. -/
def askToEnd (m : WindowManager) (status : Int) : WindowManager :=
  { m with exitStatus := some status }

/-- The number of the connection at a descriptor. -/
def connectionAt? (m : WindowManager) (fd : Int) : Option Nat :=
  match m.holding.table.get? fd with
  | some ⟨.stream id, _⟩ => some id
  | _ => none

end WindowManager

end Succession
