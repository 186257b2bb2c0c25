import Succession.Channel.Endpoint
import Succession.CommandLine.Options
import Succession.Display.Root
import Succession.Request.Exchange

/-!
# Asking a running instance

Started with a command, or with an option that asks something, the program does not become the
window manager but talks to the one that runs. It finds the socket in the environment or, failing
that, among the properties of the root window.
-/

namespace Succession.ClientMode

/-- Why a question was not answered. -/
inductive ClientFault
  | lookup (cause : Fault)
  | unreadableProperty (cause : Fault)
  | noInstance
  | exchange (cause : Exchange.ExchangeFault)
  | commandFailed
deriving DecidableEq, Repr

/-- The wording of the fault. -/
def ClientFault.message : ClientFault → String
  | lookup cause => "cannot look up the ipc socket: " ++ cause.message
  | unreadableProperty cause =>
    "failed to read the ipc socket path from the root window: " ++ cause.message
  | noInstance => "no running kestrel found (root window has no socket path)"
  | exchange cause => cause.message
  | commandFailed => "command failed"

/-- What the program sees of its surroundings. -/
structure Surroundings where
  files : FileSystem
  environment : Environment
  /-- The display server, if the environment names one. -/
  display : Option DisplayServer
  responder : Option Exchange.Responder

/-- What the program does: what it prints, how it ends, and what it asked of the others. -/
structure Conduct where
  output : List String := []
  fault : Option ClientFault := none
  received : Option Bytes := none
  display : Option DisplayServer := none

/-- The path of the running instance's socket. -/
def findSocket (s : Surroundings) : Except ClientFault Path × Option DisplayServer :=
  match s.environment.path? Endpoint.variableName with
  | some p => (.ok p, s.display)
  | none =>
    match s.display with
    | none =>
      -- the cause is told with the fault and once more behind it
      (.error (.lookup (.connect (Connection.noDisplay ++ ": " ++ Connection.noDisplay))), none)
    | some server =>
      match Connection.connect server with
      | .error f => (.error (.lookup f), some server)
      | .ok c =>
        match c.property Connection.socketProperty with
        | (.error f, c) => (.error (.unreadableProperty f), some c.server)
        | (.ok none, c) => (.error .noInstance, some c.server)
        | (.ok (some text), c) => (.ok (Path.ofString text), some c.server)

/-- Sends a command to the instance whose socket was found. -/
def request (s : Surroundings) (command : String) : Except ClientFault String × Conduct :=
  match findSocket s with
  | (.error f, display) => (.error f, { display := display })
  | (.ok socket, display) =>
    let outcome := Exchange.run s.files s.responder socket command
    ((match outcome.result with
      | .ok reply => .ok reply
      | .error f => .error (.exchange f)),
      { received := outcome.received, display := display })

/-- The words with blanks between them. -/
def joinWords (words : List String) : String := String.intercalate " " words

/-- Whether a reply reports an error. -/
def isErrorReply (reply : String) : Bool := "error:".toList.isPrefixOf reply.toList

/-- What the program does if its options ask for something; none if they ask for the window
manager itself. -/
def run (options : Options) (s : Surroundings) : Option Conduct :=
  if options.version then some { output := [versionText], display := s.display }
  else if options.moreVersion then
    let first := "Binary " ++ versionText
    match request s "version" with
    | (.error f, conduct) => some { conduct with output := [first], fault := some f }
    | (.ok reply, conduct) => some { conduct with output := [first, "Running " ++ reply] }
  else if options.socketPath then
    match findSocket s with
    | (.error f, display) => some { fault := some f, display := display }
    | (.ok p, display) => some { output := [p.display], display := display }
  else if options.command ≠ [] then
    match request s (joinWords options.command) with
    | (.error f, conduct) => some { conduct with fault := some f }
    | (.ok reply, conduct) =>
      some { conduct with
        output := [reply]
        fault := if isErrorReply reply then some .commandFailed else none }
  else none

end Succession.ClientMode
