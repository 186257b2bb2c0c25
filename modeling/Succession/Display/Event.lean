import Succession.Window.Order

/-!
# Events of the display

What the display server tells the window manager without being asked. Errors of requests that
nobody waits for arrive as events too.
-/

namespace Succession

/-- An event of the display. -/
inductive DisplayEvent
  /-- A client asks for its window to be shown. -/
  | mapRequest (window : WindowId)
  /-- A window was hidden, as reported on the window `event`. -/
  | unmap (event window : WindowId)
  /-- A window is gone, as reported on the window `event`. -/
  | destroy (event window : WindowId)
  /-- Any other event. -/
  | other
  /-- A request failed. -/
  | error (code : Nat)
deriving DecidableEq, Repr

/-- Whether the event reports a failed request. -/
def DisplayEvent.isError : DisplayEvent → Bool
  | error _ => true
  | _ => false

end Succession
