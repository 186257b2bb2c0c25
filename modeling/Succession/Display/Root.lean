import Succession.Display.Connection
import Succession.Path
import Succession.Window.RootChild

/-!
# The root window

The window manager claims the root window, takes windows over, and leaves its socket's path and
its process number as properties of the root window, where other programs find them.
-/

namespace Succession.Connection

/-- The property that holds the path of the socket. -/
def socketProperty : Bytes := Bytes.ofString "KESTREL_SOCKET_PATH"

/-- The property that holds the number of the process. -/
def pidProperty : Bytes := Bytes.ofString "KESTREL_PID"

/-- The events of the root window that the manager selects: property changes and changes of the
structure of the window and below it, the latter as their only receiver. -/
def rootMask : Nat := 0x400000 + 0x100000 + 0x80000 + 0x20000

/-- The events of a client's window that the manager selects: property and structure changes. -/
def clientMask : Nat := 0x400000 + 0x20000

/-- The root window. -/
def root (c : Connection) : WindowId := c.server.screen.root

/-- Becomes the window manager of the display, unless there is one. -/
def seizeRoot (c : Connection) : Except Fault Unit × Connection :=
  match c.ask (.selectEvents c.root rootMask) with
  | (.reply _, c) => (.ok (), c)
  | (.refused, c) => (.error .rootClaimed, c)
  | (.disconnected, c) => (.error .connection, c)

/-- The fault of an answer that is no reply. -/
def replyFault : Answer → Fault
  | .disconnected => .reply .disconnected
  | _ => .reply .refused

/-- Makes the name of a property known. -/
def intern (c : Connection) (name : Bytes) : Except Fault Unit × Connection :=
  match c.ask (.internAtom name) with
  | (.reply _, c) => (.ok (), c)
  | (answer, c) => (.error (replyFault answer), c)

/-- Publishes the path of the socket, if there is one, and the process number. -/
def publish (c : Connection) (socket : Option Path) (pid : Nat) :
    Except Fault Unit × Connection :=
  match c.intern pidProperty with
  | (.error f, c) => (.error f, c)
  | (.ok (), c) =>
    let c := c.sendUnawaited (.changeProperty c.root pidProperty (.word pid))
    match c.intern socketProperty with
    | (.error f, c) => (.error f, c)
    | (.ok (), c) =>
      match socket with
      | some p =>
        (.ok (), c.sendUnawaited (.changeProperty c.root socketProperty (.bytes p.bytes)))
      | none => (.ok (), c.sendUnawaited (.deleteProperty c.root socketProperty))

/-- The text of a property of the root window; an empty one counts as none. -/
def property (c : Connection) (name : Bytes) : Except Fault (Option String) × Connection :=
  match c.intern name with
  | (.error f, c) => (.error f, c)
  | (.ok (), c) =>
    match c.ask (.getProperty c.root name) with
    | (.reply (.property []), c) => (.ok none, c)
    | (.reply (.property value), c) => (.ok (some (Utf8.lossy value)), c)
    | (.reply _, c) => (.ok none, c)
    | (answer, c) => (.error (replyFault answer), c)

/-- Watches a client's window and shows it, without waiting. -/
def adopt (c : Connection) (w : WindowId) : Connection :=
  (c.sendUnawaited (.selectEvents w clientMask)).sendUnawaited (.mapWindow w)

/-- Keeps other clients from being served. -/
def grab (c : Connection) : Connection := c.sendUnawaited .grabServer

/-- Lets other clients be served again, at once. -/
def ungrab (c : Connection) : Except Fault Unit × Connection :=
  (c.sendUnawaited .ungrabServer).flush

/-- Waits until everything that was sent is dealt with; all events of it are here then. -/
def sync (c : Connection) : Except Fault Unit × Connection :=
  match c.ask .synchronize with
  | (.reply _, c) => (.ok (), c)
  | (answer, c) => (.error (replyFault answer), c)

/-- Asks for the attributes of windows without waiting. -/
def askAttributes (c : Connection) : List WindowId → List (WindowId × Nat) × Connection
  | [] => ([], c)
  | w :: rest =>
    let (number, c) := c.send (.getWindowAttributes w) true
    let (numbers, c) := c.askAttributes rest
    ((w, number) :: numbers, c)

/-- Waits for the attributes of windows. One that is gone is passed over. -/
def awaitAttributes (c : Connection) :
    List (WindowId × Nat) → Except Fault (List RootChild) × Connection
  | [] => (.ok [], c)
  | (w, number) :: rest =>
    match c.await number with
    | (.disconnected, c) => (.error .connection, c)
    | (.reply (.attributes overrideRedirect viewable), c) =>
      let (others, c) := c.awaitAttributes rest
      (others.map (⟨w, overrideRedirect, viewable⟩ :: ·), c)
    | (_, c) => c.awaitAttributes rest

/-- The children of the root window in stacking order. -/
def rootChildren (c : Connection) : Except Fault (List RootChild) × Connection :=
  match c.ask (.queryTree c.root) with
  | (.reply (.children windows), c) =>
    let (numbers, c) := c.askAttributes windows
    c.awaitAttributes numbers
  | (.reply _, c) => (.ok [], c)
  | (answer, c) => (.error (replyFault answer), c)

end Succession.Connection
