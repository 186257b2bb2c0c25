import Succession.Display.Event
import Succession.Display.Request
import Succession.Display.Screen

/-!
# A display server

A display server in so far as a window manager can tell: what it holds, what it answers to each
request, and which events it sends. Its behaviour in trouble is part of its state: requests that
it refuses, and one at which it drops the connection.
-/

namespace Succession

/-- A child of the root window as the server knows it. -/
structure ServerWindow where
  id : WindowId
  overrideRedirect : Bool := false
  viewable : Bool := true
  /-- Whether the window is gone by the time its attributes are asked for. -/
  vanished : Bool := false
deriving DecidableEq, Repr

/-- What reached the server. -/
inductive ServerRecord
  | connect
  | request (r : DisplayRequest)
deriving DecidableEq, Repr

/-- The state of a display server. -/
structure DisplayServer where
  screen : Screen := {}
  /-- The keyboard extension, if there is one, and whether it supports the version asked for. -/
  keyboard : Option Bool := none
  /-- The version of the shape extension, if there is one. -/
  shape : Option (Nat × Nat) := none
  windows : List ServerWindow := []
  /-- Whether another window manager holds the root window. -/
  rootClaimed : Bool := false
  /-- The requests that are refused, by name. -/
  refusals : List String := []
  /-- The request, by name, at which the connection is dropped. -/
  closeAt : Option String := none
  /-- Whether connecting is refused. -/
  refusesConnections : Bool := false
  properties : List (Bytes × Bytes) := []
  /-- The events that are sent once a client has claimed the root window. -/
  onClaim : List DisplayEvent := []
  /-- The events that are sent once a client has grabbed the server. -/
  onGrab : List DisplayEvent := []
  /-- Whether the client is connected. -/
  connected : Bool := false
  /-- What reached the server, the latest last. -/
  log : List ServerRecord := []
deriving DecidableEq, Repr, Inhabited

namespace DisplayServer

/-- The lowest byte first: the four bytes of a number. -/
def wordBytes (n : Nat) : Bytes :=
  [UInt8.ofNat n, UInt8.ofNat (n / 256), UInt8.ofNat (n / 65536), UInt8.ofNat (n / 16777216)]

/-- The bytes of a property's value. -/
def valueBytes : PropertyValue → Bytes
  | .bytes content => content
  | .word n => wordBytes n

/-- The server without a property. -/
def dropProperty (s : DisplayServer) (name : Bytes) : DisplayServer :=
  { s with properties := s.properties.filter fun (n, _) => n ≠ name }

/-- The answer to a request that is neither refused nor cut off, and the server afterwards. -/
def carryOut (s : DisplayServer) : DisplayRequest → Answer × DisplayServer
  | .selectEvents w _ =>
    if w = s.screen.root && s.rootClaimed then (.refused, s) else (.reply .done, s)
  | .getWindowAttributes w =>
    match s.windows.find? fun v => v.id = w with
    | some v =>
      if v.vanished then (.refused, s) else (.reply (.attributes v.overrideRedirect v.viewable), s)
    | none => (.refused, s)
  | .queryTree _ => (.reply (.children (s.windows.map (·.id))), s)
  | .changeProperty _ name value =>
    let s := s.dropProperty name
    (.reply .done, { s with properties := s.properties ++ [(name, valueBytes value)] })
  | .deleteProperty _ name => (.reply .done, s.dropProperty name)
  | .getProperty _ name => (.reply (.property ((s.properties.lookup name).getD [])), s)
  | .queryExtension name =>
    (.reply (.extension (if name = "XKEYBOARD" then s.keyboard.isSome else s.shape.isSome)), s)
  | .useKeyboardExtension => (.reply (.keyboard (s.keyboard.getD false)), s)
  | .queryShapeVersion =>
    match s.shape with
    | some (major, minor) => (.reply (.version major minor), s)
    | none => (.refused, s)
  | .mapWindow _ | .internAtom _ | .grabServer | .ungrabServer | .createColormap _ _ _
  | .selectKeyboardEvents | .synchronize => (.reply .done, s)

/-- The events that a request brings about when it is carried out. -/
def eventsOf (s : DisplayServer) : DisplayRequest → List DisplayEvent
  | .selectEvents w _ => if w = s.screen.root then s.onClaim else []
  | .grabServer => s.onGrab
  | _ => []

/-- The server after a request has reached it. A request without effect is not worth a record. -/
def record (s : DisplayServer) (r : DisplayRequest) : DisplayServer :=
  if r = .synchronize then s else { s with log := s.log ++ [.request r] }

/-- Deals with a request: the answer and the events it sends. -/
def serve (s : DisplayServer) (r : DisplayRequest) : Answer × List DisplayEvent × DisplayServer :=
  if !s.connected then (.disconnected, [], s)
  else
    let s := s.record r
    if s.closeAt = some r.name then (.disconnected, [], { s with connected := false })
    else if r.name ∈ s.refusals then (.refused, [], s)
    else
      match s.carryOut r with
      | (.reply reply, after) => (.reply reply, s.eventsOf r, after)
      | (answer, after) => (answer, [], after)

/-- Accepts a connection, if it does. -/
def accept? (s : DisplayServer) : Option DisplayServer :=
  if s.refusesConnections then none
  else some { s with connected := true, log := s.log ++ [.connect] }

end DisplayServer

end Succession
