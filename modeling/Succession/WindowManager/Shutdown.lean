import Succession.Channel.Set
import Succession.Window.Persistence

/-!
# Leaving nothing behind

A process that exits removes the socket paths that it owns, and a snapshot that a restart left
when it did not happen. A supervisor's socket paths stay.
-/

namespace Succession.Shutdown

/-- Removes the paths of the listeners that own theirs, as far as that can be done. -/
def removeSockets (fs : FileSystem) : List Listener → FileSystem
  | [] => fs
  | l :: rest =>
    match l.path with
    | some p =>
      if l.removesPath then removeSockets ((fs.removeFile p).toOption.getD fs) rest
      else removeSockets fs rest
    | none => removeSockets fs rest

/-- Removes what the process would leave behind: its sockets and a snapshot at `leftover`. -/
def removeState (fs : FileSystem) (listeners : List Listener) (leftover : Path) :
    FileSystem × List Notice :=
  let fs := removeSockets fs listeners
  if fs.exists? leftover then Snapshot.remove fs leftover else (fs, [])

end Succession.Shutdown
