import Succession.Window.Order

/-!
# Windows that exist already

What the window manager learns of the children of the root window when it starts.
-/

namespace Succession

/-- A child of the root window. -/
structure RootChild where
  window : WindowId
  overrideRedirect : Bool
  viewable : Bool
deriving DecidableEq, Repr

/-- Whether the window is one to manage: it can be seen and does not ask to be left alone. -/
def RootChild.isEligible (w : RootChild) : Bool := w.viewable && !w.overrideRedirect

end Succession
