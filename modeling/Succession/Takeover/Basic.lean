import Succession.Fault
import Succession.Window.RootChild

/-!
# Taking over the windows that exist

When the window manager starts there may be windows already, and events about them from a time
when nobody listened. It grabs the server, waits for all events, drops them (requests to show a
window apart, which are honoured), claims every manageable window that is not managed yet, and
releases the grab, which happens even when something fails on the way.

The display and the manager's side of it are given by a `Takeover.Party`.
-/

namespace Succession.Takeover

/-- A display with events `ε`, together with the manager that takes its windows over. -/
structure Party (σ ε : Type) where
  grab : σ → Except Fault Unit × σ
  ungrab : σ → Except Fault Unit × σ
  /-- Waits until all earlier events have come. -/
  sync : σ → Except Fault Unit × σ
  /-- Takes the next event, if there is one. -/
  poll : σ → Except Fault (Option ε) × σ
  /-- The children of the root window in stacking order. -/
  children : σ → Except Fault (List RootChild) × σ
  /-- Whether the event asks for a window to be shown. -/
  isMapRequest : ε → Bool
  isManaged : WindowId → σ → Bool
  /-- Makes a window managed. -/
  claim : WindowId → σ → Except Fault Unit × σ
  /-- Does what an event asks for. -/
  honour : ε → σ → σ
  /-- A bound on how many events can be taken. -/
  backlog : σ → Nat

/-- What was done. -/
structure Report where
  claimed : List WindowId := []
  mapRequests : Nat := 0
  discarded : Nat := 0
  skipped : Nat := 0
deriving DecidableEq, Repr, Inhabited

namespace Party

variable {σ ε : Type}

/-- Each event lowers the backlog, and honouring one does not raise it. -/
structure Lawful (p : Party σ ε) : Prop where
  backlog_poll : ∀ {s s' : σ} {e : ε}, p.poll s = (.ok (some e), s') →
    p.backlog s' < p.backlog s
  backlog_honour : ∀ (e : ε) (s : σ), p.backlog (p.honour e s) ≤ p.backlog s

/-- Takes at most `limit` events: requests to show a window are honoured, others dropped. -/
def drainUpTo (p : Party σ ε) : Nat → Report → σ → Except Fault Report × σ
  | 0, report, s => (.ok report, s)
  | limit + 1, report, s =>
    match p.poll s with
    | (.error f, s) => (.error f, s)
    | (.ok none, s) => (.ok report, s)
    | (.ok (some e), s) =>
      if p.isMapRequest e then
        drainUpTo p limit { report with mapRequests := report.mapRequests + 1 } (p.honour e s)
      else drainUpTo p limit { report with discarded := report.discarded + 1 } s

/-- Claims the windows that are manageable and not managed yet. -/
def claimAll (p : Party σ ε) : List RootChild → Report → σ → Except Fault Report × σ
  | [], report, s => (.ok report, s)
  | w :: rest, report, s =>
    if !w.isEligible || p.isManaged w.window s then
      claimAll p rest { report with skipped := report.skipped + 1 } s
    else
      match p.claim w.window s with
      | (.error f, s) => (.error f, s)
      | (.ok (), s) => claimAll p rest { report with claimed := report.claimed ++ [w.window] } s

/-- What is done under the grab. -/
def underGrab (p : Party σ ε) (s : σ) : Except Fault Report × σ :=
  match p.sync s with
  | (.error f, s) => (.error f, s)
  | (.ok (), s) =>
    match p.drainUpTo (p.backlog s + 1) {} s with
    | (.error f, s) => (.error f, s)
    | (.ok report, s) =>
      match p.children s with
      | (.error f, s) => (.error f, s)
      | (.ok windows, s) => p.claimAll windows report s

/-- Takes the windows over. Of several faults the first counts; the grab is released in any
case. -/
def run (p : Party σ ε) (s : σ) : Except Fault Report × σ :=
  match p.grab s with
  | (.error f, s) => (.error f, s)
  | (.ok (), s) =>
    let (outcome, s) := p.underGrab s
    match outcome, p.ungrab s with
    | .error f, (_, s) => (.error f, s)
    | .ok _, (.error f, s) => (.error f, s)
    | .ok report, (.ok (), s) => (.ok report, s)

end Party

end Succession.Takeover
