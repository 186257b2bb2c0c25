import Succession.FileSystem.Cursor

/-!
# The diagnostic log

The log is a file of bounded size. Records are written one after another; when the next one would
pass the limit, writing starts over at the beginning of the file, so that the newest records
overwrite the oldest. A record larger than the whole log is cut to fit.
-/

namespace Succession

/-- The log's open file, how many bytes were written since it last started over, and the limit. -/
structure RingLog where
  file : FileCursor
  limit : Nat
  written : Nat := 0
deriving DecidableEq, Repr

namespace RingLog

/-- The limit where none is chosen: 25 MiB. -/
def defaultLimit : Nat := 25 * 1024 * 1024

/-- Where the log of a process with this number is kept: in shared memory if the system has it. -/
def pathFor (fs : FileSystem) (temporary : Path) (pid : Nat) : Path :=
  let shared := Path.ofString "/dev/shm"
  let directory := if fs.isDirectory shared then shared else temporary
  directory.join (Path.ofString ("kestrel-log-" ++ Numeral.render pid))

/-- Starts an empty log at a path. -/
def create (fs : FileSystem) (p : Path) (limit : Nat) :
    Except SystemFault (RingLog × FileSystem) := do
  let (file, created) ← FileCursor.create fs p
  return (⟨file, limit, 0⟩, created)

/-- The content of the log's file. -/
def content (log : RingLog) (fs : FileSystem) : Bytes := log.file.content fs

/-- The log that starts over at the beginning of its file. -/
def wrap (log : RingLog) : RingLog := { log with file := log.file.seek 0, written := 0 }

/-- The log that a record is to be written to: it starts over if the record would pass the
limit. -/
def makeRoom (log : RingLog) (record : Bytes) : RingLog :=
  if log.limit < log.written + record.length then log.wrap else log

/-- Writes bytes where the log stands, and counts them. -/
def append (log : RingLog) (fs : FileSystem) (bytes : Bytes) : RingLog × FileSystem :=
  let (file, fs) := log.file.write fs bytes
  ({ log with file := file, written := log.written + bytes.length }, fs)

/-- Writes a record, cut to the limit. All of it is reported as written, even what was cut. -/
def write (log : RingLog) (fs : FileSystem) (record : Bytes) :
    Nat × RingLog × FileSystem :=
  (record.length, (log.makeRoom record).append fs (record.take log.limit))

/-- Removes what stands at the path of a log, if that can be done. -/
def removeAt (fs : FileSystem) (p : Path) : FileSystem :=
  match fs.removeFile p with
  | .ok removed => removed
  | .error _ => fs

end RingLog

end Succession
