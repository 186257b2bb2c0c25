import Succession.Window.Order

/-!
# Screens and visuals

A screen offers visuals at several depths. For windows with transparency the window manager looks
for the first true-color visual with thirty-two bits.
-/

namespace Succession

/-- A way to turn pixel values into colors. -/
structure VisualType where
  id : Nat
  /-- The class of the visual; true color is class 4. -/
  kind : Nat
deriving DecidableEq, Repr

/-- The visuals of one depth. -/
structure DepthVisuals where
  depth : Nat
  visuals : List VisualType
deriving DecidableEq, Repr

/-- What a display says about its screen. -/
structure Screen where
  root : WindowId := 1
  rootDepth : Nat := 24
  rootVisual : Nat := 33
  defaultColormap : Nat := 32
  depths : List DepthVisuals := []
deriving DecidableEq, Repr, Inhabited

/-- Depth, visual and colormap of the windows that the manager creates. -/
structure VisualChoice where
  depth : Nat
  visual : Nat
  colormap : Nat
deriving DecidableEq, Repr, Inhabited

namespace Screen

/-- The class of true-color visuals. -/
def trueColor : Nat := 4

/-- The depth of visuals with transparency. -/
def transparentDepth : Nat := 32

/-- The first true-color visual with thirty-two bits, with its depth. -/
def findTransparent (depths : List DepthVisuals) : Option (Nat × Nat) :=
  (depths.filter fun d => d.depth = transparentDepth).findSome? fun d =>
    (d.visuals.find? fun v => v.kind = trueColor).map fun v => (d.depth, v.id)

/-- The choice that needs nothing but the root window. -/
def rootChoice (s : Screen) : VisualChoice := ⟨s.rootDepth, s.rootVisual, s.defaultColormap⟩

end Screen

end Succession
