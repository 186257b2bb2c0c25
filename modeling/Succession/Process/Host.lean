import Succession.Descriptor.Stream
import Succession.Descriptor.Table
import Succession.Display.Server
import Succession.Environment
import Succession.FileSystem.Operations
import Succession.Image.Exec

/-!
# The host of a process

What is outside a process image and outlives it: files, connections, which programs can be started,
and what becomes of a command line that is handed to the user's shell. A process image comes to life
with a table of descriptors, an environment and arguments, and it goes in one of two ways: another
image takes its place, or the process ends.
-/

namespace Succession

/-- What is outside a process image. -/
structure Host where
  files : FileSystem
  connections : StreamPool := {}
  /-- The connections that wait to be accepted, each behind the number of its socket, the oldest
  first. -/
  waiting : List (Nat × Nat) := []
  /-- The names under which programs can be started. -/
  programs : List Bytes := []
  /-- What the user's shell makes of the files when it runs a command line in an environment. -/
  perform : Environment → FileSystem → String → FileSystem := fun _ files _ => files
  /-- The number of the process. -/
  pid : Nat
deriving Inhabited

/-- What a fresh process image finds. -/
structure Birth where
  host : Host
  table : DescriptorTable := {}
  display : DisplayServer := {}
  environment : Environment := {}
  /-- The whole command line, the program's name first. -/
  arguments : List Bytes
deriving Inhabited

/-- How a process ends. -/
inductive Ending
  | exited (status : Int)
  | killed (signal : Int)
deriving DecidableEq, Repr

/-- What is left of a process that has ended. -/
structure Remains where
  host : Host
  display : DisplayServer
  ending : Ending
  /-- The lines that the process printed as answers to its command line. -/
  answers : List String := []
  /-- What the process had to complain of. -/
  complaint : Option String := none

/-- How a process image goes. -/
inductive Departure
  | replaced (next : Birth)
  | ended (remains : Remains)

namespace Host

/-- What keeps a program from being started, if anything does. -/
def refusal? (h : Host) (env : Environment) (program : Bytes) : Option SystemFault :=
  if program ∈ h.programs then none else some (Image.launchFault h.files env program)

/-- Whether a connection waits at a socket. -/
def isCalled (h : Host) (socket : Nat) : Bool := h.waiting.any fun (s, _) => s = socket

/-- A client connects to a socket; its connection waits to be accepted. -/
def call (h : Host) (socket : Nat) : Host :=
  { h with
    connections := h.connections.create.2
    waiting := h.waiting ++ [(socket, h.connections.next)] }

/-- The connections that wait at a socket, and the host without them in its queue. -/
def takeCallers (h : Host) (socket : Nat) : List Nat × Host :=
  ((h.waiting.filter fun (s, _) => s = socket).map (·.2),
    { h with waiting := h.waiting.filter fun (s, _) => s ≠ socket })

/-- The host with a connection changed. -/
def modifyConnection (h : Host) (id : Nat) (f : Stream → Stream) : Host :=
  { h with connections := h.connections.modify id f }

end Host

end Succession
