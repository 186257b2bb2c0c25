import Succession.Fault.System
import Succession.Path

/-!
# Faults

Everything that can end an operation of the window manager with an error, and its wording.
A fault that means the connection to the display is gone is fatal wherever it turns up; the
others may be survivable.
-/

namespace Succession

/-- Why the display did not answer a request as hoped. -/
inductive ReplyCause
  /-- The connection broke while the answer was awaited. -/
  | disconnected
  /-- The display server answered with a protocol error. -/
  | refused
  /-- No more resource identifiers are left. -/
  | exhausted
deriving DecidableEq, Repr

/-- The wording of a missing answer. -/
def ReplyCause.message : ReplyCause → String
  | disconnected => "connection closed"
  | refused => "protocol error"
  | exhausted => "no resource identifiers left"

/-- Why an operation of the window manager failed. -/
inductive Fault
  /-- The display could not be opened. -/
  | connect (detail : String)
  /-- The connection to the display broke. -/
  | connection
  /-- A request was not answered. -/
  | reply (cause : ReplyCause)
  /-- A request that needs a fresh resource identifier was not answered. -/
  | replyOrId (cause : ReplyCause)
  /-- Another window manager holds the root window. -/
  | rootClaimed
  | eventLoop (message : String)
  | config (path : Path) (message : String)
  | snapshot (path : Path) (message : String)
  | channel (fd : Int) (message : String)
  | ipc (message : String)
  /-- The operating system refused an operation. -/
  | system (cause : SystemFault)
deriving DecidableEq, Repr

namespace Fault

/-- The wording of the fault. -/
def message : Fault → String
  | connect detail => "cannot open display: " ++ detail
  | connection => "display connection failed: connection closed"
  | reply cause => "display request failed: " ++ cause.message
  | replyOrId cause => "display request failed: " ++ cause.message
  | rootClaimed => "another window manager seems to be running"
  | eventLoop message => "event loop: " ++ message
  | config path message => "config " ++ path.display ++ ": " ++ message
  | snapshot path message => "snapshot " ++ path.display ++ ": " ++ message
  | channel fd message => "channel fd " ++ Numeral.render fd ++ ": " ++ message
  | ipc message => "ipc: " ++ message
  | system cause => cause.message

/-- Whether the fault means that the display connection is gone and nothing else can be done
on it. -/
def isDisconnection : Fault → Bool
  | connection => true
  | reply cause | replyOrId cause => cause = .disconnected
  | _ => false

end Fault

end Succession
