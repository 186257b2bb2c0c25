import Succession.Proofs.EventLoop.Frame
import Succession.Proofs.Takeover.Frame
import Succession.WindowManager.Display

/-!
# The display leaves the clients alone

Dealing with events, and taking windows over, leaves alone all that is outside the manager's process
and its channels (`clientSide_beforeWait`, `clientSide_wakeUp`, `clientSide_run`).
-/

namespace Succession

namespace WindowManager

/-- What the clients have to do with: what is outside the process, and the channels. -/
def clientSide (m : WindowManager) : Host × Holding := (m.host, m.holding)

theorem events_preserves : events.Preserves clientSide where
  poll _ := rfl
  flush _ := rfl
  dispatch _ _ := rfl
  failed _ _ := rfl

theorem takeover_preserves : takeover.Preserves clientSide where
  grab _ := rfl
  ungrab _ := rfl
  sync _ := rfl
  poll _ := rfl
  children _ := rfl
  claim _ _ := rfl
  honour _ _ := rfl

theorem clientSide_beforeWait (m : WindowManager) :
    (events.beforeWait m).clientSide = m.clientSide := events_preserves.beforeWait m

theorem clientSide_wakeUp (n : Nat) (m : WindowManager) :
    (events.wakeUp n m).clientSide = m.clientSide := events_preserves.wakeUp n m

theorem clientSide_run (m : WindowManager) : (takeover.run m).2.clientSide = m.clientSide :=
  takeover_preserves.run m

end WindowManager

end Succession
