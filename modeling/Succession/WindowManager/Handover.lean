import Succession.Channel.Endpoint
import Succession.WindowManager.Basic
import Succession.Window.Persistence

/-!
# Handing over to the next image

On a request to restart the manager writes its order to a snapshot, keeps its channels open, and
replaces its image by a fresh one of the same program. That it cannot write the snapshot is no
reason to stay; that no image can be started ends the process, as nothing can be undone by then.
-/

namespace Succession.WindowManager

/-- Where the manager keeps the snapshot of a restart. -/
def restartSnapshot (m : WindowManager) : Path :=
  Snapshot.pathFor (Endpoint.runtimeDirectory m.environment) m.host.pid

/-- Writes the snapshot of a restart, as far as that can be done, and gives its path if it was
written. -/
def saveOrder (m : WindowManager) : Option Path × WindowManager :=
  let p := m.restartSnapshot
  let (made, files) := Snapshot.prepareDirectory m.host.files p
  let m := { m with host := { m.host with files := files } }
  match made, Snapshot.persist files p m.order with
  | .ok (), .ok written => (some p, { m with host := { m.host with files := written } })
  | _, _ => (none, m)

/-- What the next image finds, as far as this one decides. -/
def successor (m : WindowManager) (env : Environment) (launch : Image.Launch) : Birth :=
  { host := m.host
    table := m.holding.afterExec.table
    display := { m.connection.server with connected := false }
    environment := env
    arguments := launch.commandLine }

/-- The manager is replaced at the request of the client at `requester`. -/
def replaceImage (m : WindowManager) (requester : Option Int) : Departure :=
  let (snapshot, m) := (m.enter .restartRequested).saveOrder
  let (manifest, holding, _) := m.holding.handOff
  let continuation := requester.filter manifest.lists
  let m := { m with holding := holding, connection := m.connection.flush.2 }
  match Image.next m.arguments snapshot with
  | .error f => .ended (m.giveUp f)
  | .ok launch =>
    let refused := m.host.refusal? m.environment launch.program
    match Image.exec refused m.environment launch manifest continuation with
    | .error f => .ended (m.giveUp f)
    | .ok env => .replaced (m.successor env launch)

end Succession.WindowManager
