import Succession.Display.Root
import Succession.WindowManager.Basic
import Succession.Takeover.Basic
import Succession.Window.Following

/-!
# The manager and the display

The manager is what the display's events go to, and the party that takes over the windows that
exist when it starts. Both end: dealing with an event sends requests, but brings no new events
(`events_lawful`, `takeover_lawful`).
-/

namespace Succession.WindowManager

/-- Watches a window and shows it. The requests are only collected, which does not fail. -/
def watchAndShow (w : WindowId) (c : Connection) : Except Fault Unit × Connection :=
  (.ok (), c.adopt w)

/-- Deals with an event. -/
def followEvent (e : DisplayEvent) (m : WindowManager) : WindowManager :=
  let (order, connection) := m.order.follow m.connection.root watchAndShow e m.connection
  { m with order := order, connection := connection }

/-- The manager with the outcome of something done on its connection. -/
def onConnection {α : Type} (m : WindowManager) (outcome : Except Fault α × Connection) :
    Except Fault α × WindowManager :=
  (outcome.1, { m with connection := outcome.2 })

/-- The manager as the one to whom the display's events go. -/
def events : EventSource WindowManager DisplayEvent where
  poll m := m.onConnection m.connection.poll
  flush m := m.onConnection m.connection.flush
  isError := DisplayEvent.isError
  dispatch := followEvent
  failed f m := { m with failure := some f }
  gate := WindowManager.gate
  setGate g m := { m with gate := g }
  backlog m := m.connection.backlog

/-- Makes a window managed that exists already. -/
def takeWindow (w : WindowId) (m : WindowManager) : Except Fault Unit × WindowManager :=
  match watchAndShow w m.connection with
  | (.ok (), c) => (.ok (), { m with order := m.order.manage w, connection := c })
  | (.error f, c) => (.error f, { m with connection := c })

/-- Whether an event asks for a window to be shown. -/
def isMapRequest : DisplayEvent → Bool
  | .mapRequest _ => true
  | _ => false

/-- The manager as the one that takes over the windows that exist. -/
def takeover : Takeover.Party WindowManager DisplayEvent where
  grab m := (.ok (), { m with connection := m.connection.grab })
  ungrab m := m.onConnection m.connection.ungrab
  sync m := m.onConnection m.connection.sync
  poll m := m.onConnection m.connection.poll
  children m := m.onConnection m.connection.rootChildren
  isMapRequest := isMapRequest
  isManaged w m := m.order.isManaged w
  claim := takeWindow
  honour := followEvent
  backlog m := m.connection.backlog

theorem backlog_adopt (c : Connection) (w : WindowId) : (c.adopt w).backlog = c.backlog := rfl

theorem backlog_followEvent (e : DisplayEvent) (m : WindowManager) :
    (followEvent e m).connection.backlog = m.connection.backlog := by
  have admitted (w : WindowId) :
      (m.order.accept watchAndShow w m.connection).2.backlog = m.connection.backlog := by
    unfold WindowOrder.accept
    split
    · rfl
    · exact backlog_adopt _ _
  cases e with
  | mapRequest w => exact admitted w
  | unmap event w =>
    simp only [followEvent, WindowOrder.follow]
    split <;> rfl
  | destroy event w => rfl
  | other => rfl
  | error code => rfl

theorem backlog_poll {m m' : WindowManager} {e : DisplayEvent}
    (h : m.onConnection m.connection.poll = (.ok (some e), m')) :
    m'.connection.backlog < m.connection.backlog := by
  have parts := Prod.mk.inj h
  have polled : m.connection.poll = (.ok (some e), m.connection.poll.2) :=
    Prod.ext parts.1 rfl
  rw [← parts.2]
  exact Connection.backlog_poll polled

/-- Dealing with the display's events ends. -/
theorem events_lawful : events.Lawful where
  backlog_dispatch := by
    intro m m' e h _
    exact Nat.lt_of_le_of_lt (Nat.le_of_eq (backlog_followEvent e m')) (backlog_poll h)
  backlog_error := by
    intro m m' e h _
    exact backlog_poll h

/-- Taking the events of the display ends. -/
theorem takeover_lawful : takeover.Lawful where
  backlog_poll := by
    intro m m' e h
    exact backlog_poll h
  backlog_honour := by
    intro e m
    exact Nat.le_of_eq (backlog_followEvent e m)

end Succession.WindowManager
