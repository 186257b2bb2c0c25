import Succession.FileSystem.Operations
import Succession.Journal
import Succession.Window.Snapshot

/-!
# Keeping the window order on disk

The order is written to a snapshot file before a restart and read back after it. A snapshot that
the process owns is removed after use, together with its directory if that is empty then. A
snapshot that cannot be used is no reason to stop: a fresh order is begun.
-/

namespace Succession.Snapshot

/-- The rights of the directory of a snapshot. -/
def directoryMode : Nat := 0o700

/-- Where the process with a number keeps its snapshot. -/
def pathFor (runtimeDirectory : Path) (pid : Nat) : Path :=
  (runtimeDirectory.join (Path.ofString ("kestrel-restart." ++ Numeral.render pid))).join
    (Path.ofString "restart-state.json")

/-- Makes the directory for a snapshot. -/
def prepareDirectory (fs : FileSystem) (p : Path) : Except SystemFault Unit × FileSystem :=
  match p.parent? with
  | some directory => fs.createDirectories directoryMode directory
  | none => (.ok (), fs)

/-- Writes the snapshot of a window order. -/
def persist (fs : FileSystem) (p : Path) (order : WindowOrder) : Except Fault FileSystem :=
  match fs.writeFile p (encode (ofOrder order)) with
  | .ok written => .ok written
  | .error cause => .error (.snapshot p ("failed to write: " ++ cause.message))

/-- The order that a snapshot file holds. -/
def restore (fs : FileSystem) (p : Path) : Except Fault WindowOrder :=
  match fs.contentAt p with
  | .error cause => .error (.snapshot p ("failed to read: " ++ cause.message))
  | .ok content =>
    match decode content with
    | .error fault => .error (.snapshot p fault.message)
    | .ok windows => .ok (WindowOrder.ofSnapshot windows)

/-- Restores an order from a snapshot file, in place of all that it held. A snapshot that cannot be
used leaves the order as it is. -/
def restoreInto (order : WindowOrder) (fs : FileSystem) (p : Path) :
    Except Fault Unit × WindowOrder :=
  match restore fs p with
  | .ok restored => (.ok (), restored)
  | .error fault => (.error fault, order)

/-- The file system without the directory of a snapshot, if it can be removed. -/
def removeDirectoryOf (fs : FileSystem) (p : Path) : FileSystem :=
  match p.parent? with
  | none => fs
  | some directory =>
    match fs.removeDirectory directory with
    | .ok removed => removed
    | .error _ => fs

/-- Removes a snapshot file and its directory; that there is none is no problem. -/
def remove (fs : FileSystem) (p : Path) : FileSystem × List Notice :=
  match fs.removeFile p with
  | .ok removed => (removeDirectoryOf removed p, [])
  | .error .notFound => (removeDirectoryOf fs p, [])
  | .error cause => (removeDirectoryOf fs p, [.snapshotLeft p cause])

/-- What the use of a snapshot leads to. -/
structure Consumption where
  used : Bool
  order : WindowOrder
  files : FileSystem
  notices : List Notice
deriving Repr

/-- Takes the order from a snapshot, if one is given and can be used, and else clears it. With
`delete` the snapshot goes either way. -/
def consume (fs : FileSystem) (snapshot : Option Path) (delete : Bool)
    (order : WindowOrder := {}) : Consumption :=
  match snapshot with
  | none => ⟨false, order.apply .clear, fs, []⟩
  | some p =>
    let (used, order, notices) :=
      match restoreInto order fs p with
      | (.ok (), order) => (true, order, [])
      | (.error fault, order) => (false, order.apply .clear, [Notice.freshStart fault])
    if delete then
      let (files, more) := remove fs p
      ⟨used, order, files, notices ++ more⟩
    else ⟨used, order, fs, notices⟩

end Succession.Snapshot
