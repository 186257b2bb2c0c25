import Succession.Proofs.Takeover.Stages
import Succession.WindowManager.Display

/-!
# What the takeover does to the window order

Every window that becomes managed while the existing windows are taken over does so through
`WindowOrder.manage`: first those whose requests are honoured, then those that are claimed
(`run_order`).
-/

namespace Succession.WindowManager

open Takeover (Report)

theorem order_onConnection {α : Type} (m : WindowManager) (outcome : Except Fault α × Connection) :
    (m.onConnection outcome).2.order = m.order := rfl

theorem manage_of_isManaged {order : WindowOrder} {w : WindowId}
    (managed : order.isManaged w = true) : order.manage w = order := by
  rw [WindowOrder.manage, if_pos managed]

/-- Honouring a request to show a window manages it. -/
theorem order_mapRequest (w : WindowId) (m : WindowManager) :
    (followEvent (.mapRequest w) m).order = m.order.manage w := by
  simp only [followEvent, WindowOrder.follow, WindowOrder.accept]
  split
  · next managed => exact (manage_of_isManaged managed).symm
  · rfl

theorem order_followEvent {e : DisplayEvent} (request : isMapRequest e = true) (m : WindowManager) :
    ∃ w, (followEvent e m).order = m.order.manage w := by
  cases e with
  | mapRequest w => exact ⟨w, order_mapRequest w m⟩
  | _ => cases request

theorem order_takeWindow (w : WindowId) (m : WindowManager) :
    (takeWindow w m).2.order = m.order.manage w := rfl

/-- The events under the grab manage the windows that ask for it. -/
theorem drainUpTo_order {limit : Nat} {before after : Report} {m m' : WindowManager}
    (drained : takeover.drainUpTo limit before m = (.ok after, m')) :
    ∃ requested : List WindowId, m'.order = requested.foldl WindowOrder.manage m.order ∧
      after.mapRequests = before.mapRequests + requested.length ∧
      after.claimed = before.claimed := by
  induction limit generalizing before m with
  | zero =>
    cases drained
    exact ⟨[], rfl, rfl, rfl⟩
  | succ limit ih =>
    rw [Takeover.Party.drainUpTo] at drained
    have kept : (takeover.poll m).2.order = m.order := order_onConnection m m.connection.poll
    rcases polled : takeover.poll m with ⟨outcome, next⟩
    rw [polled] at drained kept
    simp only at kept
    rw [← kept]
    cases outcome with
    | error f => cases drained
    | ok event =>
      cases event with
      | none =>
        cases drained
        exact ⟨[], rfl, rfl, rfl⟩
      | some e =>
        simp only at drained
        split at drained
        · next request =>
          obtain ⟨w, managed⟩ := order_followEvent request next
          obtain ⟨requested, order, count, claimed⟩ := ih drained
          refine ⟨w :: requested, ?_, ?_, claimed⟩
          · rw [order, List.foldl_cons, ← managed]
            rfl
          · rw [count, List.length_cons]
            simp only
            omega
        · obtain ⟨requested, order, count, claimed⟩ := ih drained
          exact ⟨requested, order, count, claimed⟩

/-- Claiming manages the windows that the report lists. -/
theorem claimAll_order {windows : List RootChild} {before after : Report} {m m' : WindowManager}
    (claimed : takeover.claimAll windows before m = (.ok after, m')) :
    ∃ taken : List WindowId, m'.order = taken.foldl WindowOrder.manage m.order ∧
      after.mapRequests = before.mapRequests ∧ after.claimed = before.claimed ++ taken := by
  induction windows generalizing before m with
  | nil =>
    cases claimed
    exact ⟨[], rfl, rfl, (List.append_nil _).symm⟩
  | cons w rest ih =>
    rw [Takeover.Party.claimAll] at claimed
    split at claimed
    · obtain ⟨taken, order, requests, listed⟩ := ih claimed
      exact ⟨taken, order, requests, listed⟩
    · rcases claim : takeover.claim w.window m with ⟨outcome, next⟩
      have managed : next.order = m.order.manage w.window := by
        rw [← order_takeWindow w.window m]
        exact congrArg (fun r => r.2.order) claim.symm
      rw [claim] at claimed
      cases outcome with
      | error f => cases claimed
      | ok _ =>
        obtain ⟨taken, order, requests, listed⟩ := ih claimed
        refine ⟨w.window :: taken, ?_, requests, ?_⟩
        · rw [order, managed, List.foldl_cons]
        · rw [listed, List.append_assoc]
          rfl

/-- A takeover that succeeds has managed the windows of the honoured requests and then those it
reports as claimed. -/
theorem run_order {m m' : WindowManager} {report : Report}
    (taken : takeover.run m = (.ok report, m')) :
    ∃ requested : List WindowId, report.mapRequests = requested.length ∧
      m'.order = (requested ++ report.claimed).foldl WindowOrder.manage m.order := by
  obtain ⟨grabbed, done, grab, under, release⟩ := Takeover.Party.run_ok taken
  obtain ⟨synced, drained, listed, before, windows, sync, drain, children, claims⟩ :=
    Takeover.Party.underGrab_ok under
  obtain ⟨requested, first, count, none⟩ := drainUpTo_order drain
  obtain ⟨claimed, second, same, report⟩ := claimAll_order claims
  -- the other stages leave the order alone
  have atGrab : grabbed.order = m.order := congrArg (fun r => r.2.order) grab.symm
  have atSync : synced.order = grabbed.order := congrArg (fun r => r.2.order) sync.symm
  have atQuery : listed.order = drained.order := congrArg (fun r => r.2.order) children.symm
  have atRelease : m'.order = done.order := congrArg (fun r => r.2.order) release.symm
  refine ⟨requested, ?_, ?_⟩
  · rw [same, count]
    exact Nat.zero_add _
  · rw [report, none, List.nil_append, List.foldl_append, atRelease, second, atQuery, first, atSync,
      atGrab]

end Succession.WindowManager
