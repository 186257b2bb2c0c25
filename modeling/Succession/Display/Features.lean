import Succession.Display.Connection

/-!
# Features of the display

At the start the window manager finds out which optional features the display has. A feature that
is missing, or that the display refuses, is done without; a broken connection stops the
negotiation, and so does the lack of a resource identifier. It is written against a `Dialogue`,
which any connection can offer.
-/

namespace Succession

/-- What is known of the display's optional features. -/
structure DisplayFeatures where
  keyboard : Bool
  shape : Bool
  transparent : Bool
  visual : VisualChoice
deriving DecidableEq, Repr, Inhabited

/-- A way to talk to a display: requests are sent without waiting, and each one's answer can be
waited for later. -/
structure Dialogue (σ : Type) where
  /-- Sends a request and gives its number. -/
  send : DisplayRequest → σ → Nat × σ
  /-- Waits for the answer to the request with a number. -/
  await : Nat → σ → Answer × σ
  /-- Sends a request and waits for its answer. -/
  ask : DisplayRequest → σ → Answer × σ
  /-- A fresh resource identifier, or why there is none: none is left, or the display was to be
  asked for more and did not answer. -/
  fresh : σ → Except ReplyCause Nat × σ

namespace DisplayFeatures

/-- Whether a version of the shape extension has shapes for input: from 1.1 on. -/
def shapeHasInput (major minor : Nat) : Bool := 1 < major || (major = 1 && 1 ≤ minor)

variable {σ : Type}

/-- Whether an extension is there; here even a refusal means that the connection is of no use. -/
def extensionPresent : Answer → Except Fault Bool
  | .reply (.extension present) => .ok present
  | _ => .error .connection

/-- The reply to an optional request; a refusal counts as none. -/
def optional : Answer → Except Fault (Option DisplayReply)
  | .reply r => .ok (some r)
  | .refused => .ok none
  | .disconnected => .error .connection

/-- Whether the keyboard extension can be used, given the number of the request that asks whether
it is there. -/
def exploreKeyboard (d : Dialogue σ) (query : Nat) (s : σ) : Except Fault Bool × σ :=
  let (answer, s) := d.await query s
  match extensionPresent answer with
  | .error f => (.error f, s)
  | .ok false => (.ok false, s)
  | .ok true =>
    let (answer, s) := d.ask .useKeyboardExtension s
    match optional answer with
    | .error f => (.error f, s)
    | .ok (some (.keyboard true)) =>
      let (answer, s) := d.ask .selectKeyboardEvents s
      ((optional answer).map Option.isSome, s)
    | .ok _ => (.ok false, s)

/-- Whether the shape extension can be used, given the number of the request that asks whether it
is there. -/
def exploreShape (d : Dialogue σ) (query : Nat) (s : σ) : Except Fault Bool × σ :=
  let (answer, s) := d.await query s
  match extensionPresent answer with
  | .error f => (.error f, s)
  | .ok false => (.ok false, s)
  | .ok true =>
    let (answer, s) := d.ask .queryShapeVersion s
    match optional answer with
    | .error f => (.error f, s)
    | .ok (some (.version major minor)) => (.ok (shapeHasInput major minor), s)
    | .ok _ => (.ok false, s)

/-- The transparent visual with a colormap of its own, if there is one. -/
def exploreVisual (d : Dialogue σ) (screen : Screen) (s : σ) :
    Except Fault (Option VisualChoice) × σ :=
  match Screen.findTransparent screen.depths with
  | none => (.ok none, s)
  | some (depth, visual) =>
    let (id, s) := d.fresh s
    match id with
    | .error cause => (.error (.replyOrId cause), s)
    | .ok id =>
      let (answer, s) := d.ask (.createColormap id screen.root visual) s
      ((optional answer).map fun reply => reply.map fun _ => ⟨depth, visual, id⟩, s)

/-- Finds out which optional features the display has. The questions for both extensions are sent
before either answer is waited for. -/
def explore (d : Dialogue σ) (screen : Screen) (s : σ) : Except Fault DisplayFeatures × σ :=
  let (keyboardQuery, s) := d.send (.queryExtension "XKEYBOARD") s
  let (shapeQuery, s) := d.send (.queryExtension "SHAPE") s
  match exploreKeyboard d keyboardQuery s with
  | (.error f, s) => (.error f, s)
  | (.ok keyboard, s) =>
    match exploreShape d shapeQuery s with
    | (.error f, s) => (.error f, s)
    | (.ok shape, s) =>
      match exploreVisual d screen s with
      | (.error f, s) => (.error f, s)
      | (.ok visual, s) =>
        (.ok ⟨keyboard, shape, visual.isSome, visual.getD screen.rootChoice⟩, s)

end DisplayFeatures

/-- A connection to a display server offers a dialogue. It does not run out of identifiers. -/
def Connection.dialogue : Dialogue Connection where
  send r c := c.send r true
  await n c := c.await n
  ask r c := c.ask r
  fresh c := let (id, c) := c.freshResource; (.ok id, c)

end Succession
