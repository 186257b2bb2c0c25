import Succession.ClientMode
import Succession.CommandLine.Parse
import Succession.WindowManager.Round
import Succession.WindowManager.Startup

/-!
# The life of a process

A process begins with an image, which may be replaced by others, and ends once. Between things
that happen to it from outside it is left alone until nothing is ready any more.
-/

namespace Succession

/-- A process. -/
inductive Process
  | running (m : WindowManager)
  | ended (remains : Remains)

namespace Process

/-- The status of a process whose command line was refused. -/
def usageStatus : Int := 2

/-- A process that only asks something of a running instance. -/
def ask (b : Birth) (options : Options) : Remains :=
  let display :=
    if (b.environment.path? WindowManager.displayVariable).isSome then some b.display else none
  let surroundings : ClientMode.Surroundings := ⟨b.host.files, b.environment, display, none⟩
  match ClientMode.run options surroundings with
  | none => { host := b.host, display := b.display, ending := .exited 0 }
  | some conduct =>
    { host := b.host
      display := conduct.display.getD b.display
      ending := .exited (if conduct.fault.isSome then 1 else 0)
      answers := conduct.output
      complaint := conduct.fault.map (·.message) }

/-- An image comes to life. -/
def launch (b : Birth) : Process :=
  match Options.parse b.arguments with
  | .error fault =>
    let status := if fault = .displayHelp then 0 else usageStatus
    .ended { host := b.host, display := b.display, ending := .exited status }
  | .ok options =>
    if options.isManagerMode then
      match WindowManager.start b options with
      | .error remains => .ended remains
      | .ok m => .running m
    else .ended (ask b options)

/-- What becomes of the process after a round. -/
def ofRound : Except Departure WindowManager → Process
  | .ok m => .running m
  | .error (.ended remains) => .ended remains
  | .error (.replaced next) => launch next

/-- Lets the process run for at most `limit` rounds while something is ready. -/
def settleUpTo : Nat → Process → Process
  | 0, p => p
  | _ + 1, .ended remains => .ended remains
  | limit + 1, .running m =>
    if m.ready = [] then .running m else settleUpTo limit (ofRound (m.round m.ready))

/-- Lets the process run until nothing is ready. -/
def settle : Process → Process
  | .ended remains => .ended remains
  | .running m => settleUpTo m.workload (.running m)

/-- What is outside the process. -/
def host : Process → Host
  | running m => m.host
  | ended remains => remains.host

/-- The process with what is outside it changed. -/
def onHost (p : Process) (f : Host → Host) : Process :=
  match p with
  | running m => .running { m with host := f m.host }
  | ended remains => .ended { remains with host := f remains.host }

/-- The display server. -/
def display : Process → DisplayServer
  | running m => m.connection.server
  | ended remains => remains.display

/-- The process with the display server changed. -/
def onDisplay (p : Process) (f : DisplayServer → DisplayServer) : Process :=
  match p with
  | running m =>
    .running { m with connection := { m.connection with server := f m.connection.server } }
  | ended remains => .ended { remains with display := f remains.display }

/-- The display server sends events. -/
def sendEvents (p : Process) (events : List DisplayEvent) : Process :=
  match p with
  | running m =>
    .running { m with connection := { m.connection with
      arriving := m.connection.arriving ++ events } }
  | ended remains => .ended remains

/-- How the process has ended, if it has. -/
def ending? : Process → Option Ending
  | running _ => none
  | ended remains => some remains.ending

/-- What the process had to complain of when it ended. -/
def complaint? : Process → Option String
  | running _ => none
  | ended remains => remains.complaint

/-- Whether the process has its end of a connection, or would have if it accepted it. -/
def holdsConnection (p : Process) (id : Nat) : Bool :=
  match p with
  | running m =>
    m.holding.table.refersTo (.stream id) ||
      m.host.waiting.any fun (socket, n) => n = id && m.holding.table.listensOn socket
  | ended _ => false

/-- Whether the process listens on a socket. -/
def listensOn (p : Process) (socket : Nat) : Bool :=
  match p with
  | running m => m.holding.table.listensOn socket
  | ended _ => false

/-- The process is killed by a signal. -/
def kill (m : WindowManager) (number : Int) (removesLog : Bool) : Remains :=
  let files := if removesLog then WindowManager.removeLog m.host.files m.logPath else m.host.files
  { host := { m.host with files := files }
    display := m.connection.server
    ending := .killed number }

/-- The process gets a signal. -/
def signal (p : Process) (number : Int) : Process :=
  match p with
  | .ended remains => .ended remains
  | .running m =>
    match Signal.handling? number with
    | some .endLoop => ofRound (m.round [.signal number])
    | some .dieTidily => .ended (kill m number true)
    | none =>
      if !Signal.isReserved number && Signal.isIgnored m.swallowedBusError number then
        .running { m with swallowedBusError := m.swallowedBusError || number = Signal.busError }
      else .ended (kill m number false)

end Process

end Succession
