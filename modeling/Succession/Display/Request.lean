import Succession.Text.Utf8
import Succession.Window.Order

/-!
# Requests to the display

What the window manager asks of the display server, and the answers. Names of properties stand for
the numbers that the server gives to them.
-/

namespace Succession

/-- The value of a property. -/
inductive PropertyValue
  | bytes (content : Bytes)
  /-- One number of thirty-two bits. -/
  | word (n : Nat)
deriving DecidableEq, Repr

/-- A request to the display server. -/
inductive DisplayRequest
  | selectEvents (window : WindowId) (mask : Nat)
  | getWindowAttributes (window : WindowId)
  | mapWindow (window : WindowId)
  | queryTree (window : WindowId)
  | internAtom (name : Bytes)
  | changeProperty (window : WindowId) (name : Bytes) (value : PropertyValue)
  | deleteProperty (window : WindowId) (name : Bytes)
  | getProperty (window : WindowId) (name : Bytes)
  | grabServer
  | ungrabServer
  | createColormap (id : Nat) (window : WindowId) (visual : Nat)
  | queryExtension (name : String)
  | useKeyboardExtension
  | selectKeyboardEvents
  | queryShapeVersion
  /-- A request without effect, sent for its reply alone. -/
  | synchronize
deriving DecidableEq, Repr

/-- What the display server answers. -/
inductive DisplayReply
  /-- The request has no reply of its own and was carried out. -/
  | done
  | attributes (overrideRedirect viewable : Bool)
  | children (windows : List WindowId)
  | property (value : Bytes)
  | extension (present : Bool)
  | keyboard (supported : Bool)
  | version (major minor : Nat)
deriving DecidableEq, Repr

/-- What waiting for an answer leads to. -/
inductive Answer
  | reply (r : DisplayReply)
  /-- The server answered with a protocol error. -/
  | refused
  /-- The connection broke. -/
  | disconnected
deriving DecidableEq, Repr

namespace DisplayRequest

/-- The name of the request in the protocol. -/
def name : DisplayRequest → String
  | selectEvents _ _ => "change_window_attributes"
  | getWindowAttributes _ => "get_window_attributes"
  | mapWindow _ => "map_window"
  | queryTree _ => "query_tree"
  | internAtom _ => "intern_atom"
  | changeProperty _ _ _ => "change_property"
  | deleteProperty _ _ => "delete_property"
  | getProperty _ _ => "get_property"
  | grabServer => "grab_server"
  | ungrabServer => "ungrab_server"
  | createColormap _ _ _ => "create_colormap"
  | queryExtension _ => "query_extension"
  | useKeyboardExtension => "xkb_use_extension"
  | selectKeyboardEvents => "xkb_select_events"
  | queryShapeVersion => "shape_query_version"
  | synchronize => "get_input_focus"

/-- A part of a request as it is sent. -/
inductive Part
  | number (n : Nat)
  | flag (b : Bool)
  | bytes (content : Bytes)
deriving DecidableEq, Repr

/-- The code of a number among the types of properties. -/
def cardinalType : Nat := 6

/-- The code of a string among the types of properties. -/
def stringType : Nat := 31

/-- The number that says which attribute of a window is changed: its event mask. -/
def eventMaskAttribute : Nat := 2048

/-- The parts of the request after its name. A property replaces what it held before; names are
made known even if they are new; colormaps begin empty; of the keyboard the core device is asked
for its new, mapped and changed state, with all parts of the map. -/
def parts : DisplayRequest → List Part
  | selectEvents w mask => [.number w.toNat, .number eventMaskAttribute, .number mask]
  | getWindowAttributes w | mapWindow w | queryTree w => [.number w.toNat]
  | internAtom name => [.bytes name, .flag false]
  | changeProperty w name (.word n) =>
    [.number w.toNat, .bytes name, .number 0, .number cardinalType, .number 32, .number n]
  | changeProperty w name (.bytes v) =>
    [.number w.toNat, .bytes name, .number 0, .number stringType, .number 8, .bytes v]
  | deleteProperty w name | getProperty w name => [.number w.toNat, .bytes name]
  | grabServer | ungrabServer | queryShapeVersion | synchronize => []
  | createColormap id w visual => [.number 0, .number id, .number w.toNat, .number visual]
  | queryExtension name => [.bytes (Bytes.ofString name)]
  | useKeyboardExtension => [.number 1, .number 0]
  | selectKeyboardEvents => [256, 7, 0, 7, 255, 255].map .number

/-- Whether the server replies to the request. -/
def hasReply : DisplayRequest → Bool
  | selectEvents _ _ | mapWindow _ | changeProperty _ _ _ | deleteProperty _ _ | grabServer
  | ungrabServer | createColormap _ _ _ | selectKeyboardEvents => false
  | _ => true

end DisplayRequest

end Succession
