import Succession.Display.Event
import Succession.Fault

/-!
# The order follows the display

A window becomes managed when it asks to be shown and can be adopted, and it stops being managed
when it is hidden or gone. That a window was hidden counts only where it is reported on the root
window: the same is reported on the window itself too.

How a window is adopted is left open: `adopt` watches it and shows it, in a state `σ`.
-/

namespace Succession.WindowOrder

variable {σ : Type}

/-- Manages a window that asks to be shown. One that is managed already is left alone, and one
that cannot be adopted stays unmanaged. -/
def accept (adopt : WindowId → σ → Except Fault Unit × σ) (w : WindowId) (order : WindowOrder)
    (s : σ) : WindowOrder × σ :=
  if order.isManaged w then (order, s)
  else
    match adopt w s with
    | (.ok (), s) => (order.manage w, s)
    | (.error _, s) => (order, s)

/-- The order after an event, where `root` is the root window. -/
def follow (root : WindowId) (adopt : WindowId → σ → Except Fault Unit × σ) (e : DisplayEvent)
    (order : WindowOrder) (s : σ) : WindowOrder × σ :=
  match e with
  | .mapRequest w => order.accept adopt w s
  | .unmap event w => if event = root then (order.release w, s) else (order, s)
  | .destroy _ w => (order.release w, s)
  | .other | .error _ => (order, s)

end Succession.WindowOrder
