import Succession.Proofs.EventLoop.Accounting
import Succession.Proofs.Takeover.Settlement
import Succession.Proofs.Window.SlotOrder
import Succession.Proofs.WindowManager.TakeoverOrder

/-!
# The queue of the display

The events of a connection wait in the order in which they came: those that have been read, and
behind them those that are still to be read. Whatever is done on the connection only puts events
behind them, polls apart, which take the first. So no event gets lost between the display and the
manager, in the loop (`events_queueing`) as under the grab (`takeover_keeps`).
-/

namespace Succession

namespace Connection

/-- The events that have come, in order. -/
def waiting (c : Connection) : List DisplayEvent := c.received ++ c.arriving

theorem waiting_transmitOne (c : Connection) (o : Outgoing) :
    c.waiting <+: (c.transmitOne o).waiting := by
  simp only [transmitOne, waiting]
  split
  · rw [← List.append_assoc]
    exact List.prefix_append _ _
  · rw [List.append_assoc, ← List.append_assoc]
    exact List.prefix_append _ _

theorem waiting_transmit (c : Connection) : c.waiting <+: c.transmit.waiting := by
  have all (requests : List Outgoing) (c : Connection) :
      c.waiting <+: (requests.foldl transmitOne c).waiting := by
    induction requests generalizing c with
    | nil => exact List.prefix_rfl
    | cons o rest ih => exact (waiting_transmitOne c o).trans (ih _)
  exact all c.outgoing { c with outgoing := [] }

theorem waiting_readArriving (c : Connection) : c.readArriving.waiting = c.waiting :=
  List.append_nil _

theorem waiting_flush (c : Connection) : c.waiting <+: c.flush.2.waiting := by
  rw [flush]
  split
  · exact List.prefix_rfl
  · split
    · exact List.prefix_rfl
    · exact waiting_transmit c

theorem waiting_transmitted (c : Connection) : c.waiting <+: c.transmit.readArriving.waiting := by
  rw [waiting_readArriving]
  exact waiting_transmit c

theorem waiting_await (c : Connection) (number : Nat) :
    c.waiting <+: (c.await number).2.waiting := by
  rw [await]
  split
  · exact List.prefix_rfl
  · exact waiting_transmitted c

theorem waiting_check (c : Connection) (number : Nat) :
    c.waiting <+: (c.check number).2.waiting := by
  have sent : c.waiting <+: (c.send .synchronize true).2.transmit.readArriving.waiting :=
    waiting_transmitted (c.send .synchronize true).2
  simp only [check]
  split <;> exact sent

theorem waiting_ask (c : Connection) (r : DisplayRequest) : c.waiting <+: (c.ask r).2.waiting := by
  simp only [ask]
  split
  · exact waiting_await (c.send r true).2 _
  · exact waiting_check (c.send r true).2 _

theorem waiting_sync (c : Connection) : c.waiting <+: c.sync.2.waiting := by
  have asked := waiting_ask c .synchronize
  rw [sync]
  split <;> next same =>
    rw [same] at asked
    exact asked

theorem waiting_askAttributes (c : Connection) (windows : List WindowId) :
    (c.askAttributes windows).2.waiting = c.waiting := by
  induction windows generalizing c with
  | nil => rfl
  | cons w rest ih => exact ih (c.send (.getWindowAttributes w) true).2

theorem waiting_awaitAttributes (c : Connection) (numbers : List (WindowId × Nat)) :
    c.waiting <+: (c.awaitAttributes numbers).2.waiting := by
  induction numbers generalizing c with
  | nil => exact List.prefix_rfl
  | cons entry rest ih =>
    obtain ⟨w, number⟩ := entry
    have awaited := waiting_await c number
    rw [awaitAttributes]
    split <;> next same =>
      rw [same] at awaited
      first
        | exact awaited
        | exact awaited.trans (ih _)

theorem waiting_rootChildren (c : Connection) : c.waiting <+: c.rootChildren.2.waiting := by
  have asked := waiting_ask c (.queryTree c.root)
  rw [rootChildren]
  split
  · next windows d same =>
    rw [same] at asked
    have listed := waiting_awaitAttributes (d.askAttributes windows).2 (d.askAttributes windows).1
    rw [waiting_askAttributes] at listed
    exact asked.trans listed
  all_goals
    next same =>
      rw [same] at asked
      exact asked

/-- A poll takes the first event, and finds none only if there is none. -/
theorem waiting_poll {c d : Connection} {outcome : Except Fault (Option DisplayEvent)}
    (polled : c.poll = (outcome, d)) :
    c.waiting = takenBy outcome ++ d.waiting ∧ (outcome = .ok none → d.waiting = []) := by
  unfold poll at polled
  split at polled
  · next read =>
    cases polled
    rw [waiting, read]
    exact ⟨rfl, nofun⟩
  · next unread =>
    split at polled
    · cases polled
      exact ⟨rfl, nofun⟩
    · split at polled
      · next arrived =>
        cases polled
        rw [waiting, unread, arrived, waiting, List.append_nil]
        exact ⟨rfl, nofun⟩
      · next nothing =>
        cases polled
        rw [waiting, unread, nothing]
        exact ⟨rfl, fun _ => rfl⟩

end Connection

namespace WindowManager

open Takeover (windowOf)

/-- The events that have come for the manager, in order. -/
def waiting (m : WindowManager) : List DisplayEvent := m.connection.waiting

theorem waiting_followEvent (e : DisplayEvent) (m : WindowManager) :
    (followEvent e m).waiting = m.waiting := by
  have admitted (w : WindowId) :
      (m.order.accept watchAndShow w m.connection).2.waiting = m.waiting := by
    unfold WindowOrder.accept
    split <;> rfl
  cases e with
  | mapRequest w => exact admitted w
  | unmap event w =>
    simp only [followEvent, WindowOrder.follow]
    split <;> rfl
  | destroy event w => rfl
  | other => rfl
  | error code => rfl

theorem waiting_poll {m m' : WindowManager} {outcome : Except Fault (Option DisplayEvent)}
    (polled : m.onConnection m.connection.poll = (outcome, m')) :
    m.waiting = takenBy outcome ++ m'.waiting ∧ (outcome = .ok none → m'.waiting = []) := by
  cases polled
  exact Connection.waiting_poll rfl

/-- In the loop no event of the display gets lost. -/
theorem events_queueing : events.Queueing waiting where
  inOrder polled := (waiting_poll polled).1 ▸ List.prefix_rfl
  exhausted polled := (waiting_poll polled).2 rfl
  flush m := Connection.waiting_flush m.connection
  dispatch e m := waiting_followEvent e m ▸ List.prefix_rfl
  failed _ _ := List.prefix_rfl
  setGate _ _ := List.prefix_rfl
  keepsGate := {
    poll _ := rfl
    flush _ := rfl
    dispatch _ _ := rfl
    failed _ _ := rfl }
  gate_setGate _ _ := rfl

/-! ## Under the grab -/

theorem isManaged_manage {order : WindowOrder} {v w : WindowId} :
    (order.manage w).isManaged v = true ↔ v = w ∨ order.isManaged v = true := by
  simp only [WindowOrder.isManaged, decide_eq_true_eq, WindowOrder.mem_manage]

/-- A window whose request is honoured is managed, and no other window is affected. -/
theorem isManaged_mapRequest {m : WindowManager} {v w : WindowId} :
    (followEvent (.mapRequest v) m).order.isManaged w = true ↔
      w = v ∨ m.order.isManaged w = true := by
  rw [order_mapRequest]
  exact isManaged_manage

theorem takeover_settles : takeover.Settles windowOf := by
  intro m call m' did w settled
  cases call with
  | claim v outcome =>
    cases did
    obtain rfl := List.mem_singleton.mp settled
    exact isManaged_manage.mpr (.inl rfl)
  | honour e =>
    obtain ⟨request, rfl⟩ := did
    cases e with
    | mapRequest v =>
      exact isManaged_mapRequest.mpr (.inl (List.mem_singleton.mp settled))
    | _ => cases request
  | _ => cases settled

/-- Under the grab no event of the display gets lost, and no window is given up. -/
theorem takeover_keeps : takeover.Keeps waiting where
  inOrder := by
    intro m call m' did
    cases call with
    | grab outcome =>
      cases did
      exact List.prefix_rfl
    | ungrab outcome =>
      cases did
      exact Connection.waiting_flush (m.connection.sendUnawaited .ungrabServer)
    | sync outcome =>
      cases did
      exact Connection.waiting_sync m.connection
    | poll outcome =>
      obtain ⟨queue, _⟩ := waiting_poll did
      exact queue ▸ List.prefix_rfl
    | query outcome =>
      cases did
      exact Connection.waiting_rootChildren m.connection
    | claim w outcome =>
      cases did
      exact List.prefix_rfl
    | honour e =>
      obtain ⟨_, rfl⟩ := did
      exact waiting_followEvent e m ▸ List.prefix_rfl
  stays := by
    intro m call m' w did managed
    cases call with
    | claim v outcome =>
      cases did
      exact isManaged_manage.mpr (.inr managed)
    | honour e =>
      obtain ⟨request, rfl⟩ := did
      cases e with
      | mapRequest v => exact isManaged_mapRequest.mpr (.inr managed)
      | _ => cases request
    | _ =>
      cases did
      exact managed

/-- The manager claims and honours as a takeover expects it to. -/
theorem takeover_fair : takeover.Fair waiting windowOf where
  inOrder := takeover_keeps.inOrder
  exhausted polled := (waiting_poll polled).2 rfl
  manages := by
    intro m call m' did clean w
    have unchanged : m.order.isManaged w = true ↔ m.order.isManaged w = true ∨ w ∈ [] :=
      (or_iff_left List.not_mem_nil).symm
    cases call with
    | claim v outcome =>
      cases did
      exact isManaged_manage.trans ((or_congr_left List.mem_singleton.symm).trans or_comm)
    | honour e =>
      obtain ⟨request, rfl⟩ := did
      cases e with
      | mapRequest v =>
        exact isManaged_mapRequest.trans ((or_congr_left List.mem_singleton.symm).trans or_comm)
      | _ => cases request
    | _ =>
      cases did
      exact unchanged

end WindowManager

end Succession
