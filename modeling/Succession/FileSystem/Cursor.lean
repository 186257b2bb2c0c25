import Succession.FileSystem.Operations

/-!
# Writing to an open file

A file that is open for writing has a position, at which the next bytes go. Writing moves the
position behind them.
-/

namespace Succession

/-- A file that is open for writing and the position in it. -/
structure FileCursor where
  location : Location
  position : Nat := 0
deriving DecidableEq, Repr

namespace FileCursor

/-- Opens the file that a path means at its beginning, making it if there is none; it is then
empty. -/
def create (fs : FileSystem) (p : Path) : Except SystemFault (FileCursor × FileSystem) := do
  let (location, created) ← fs.createFile p
  return (⟨location, 0⟩, created)

/-- The file with another position. -/
def seek (file : FileCursor) (position : Nat) : FileCursor := { file with position }

/-- The content of the file; none once the file is gone. -/
def content (file : FileCursor) (fs : FileSystem) : Bytes :=
  match fs.lookup file.location with
  | some (.file bytes) => bytes
  | _ => []

/-- The content with `bytes` in place of what it has from a position on. Zeros fill the gap if the
content ends before. -/
def overwrite (content : Bytes) (position : Nat) (bytes : Bytes) : Bytes :=
  if bytes = [] then content
  else
    content.take position ++ List.replicate (position - content.length) 0 ++ bytes ++
      content.drop (position + bytes.length)

/-- Writes bytes at the position. Once the file is gone nobody can see them. -/
def write (file : FileCursor) (fs : FileSystem) (bytes : Bytes) : FileCursor × FileSystem :=
  (file.seek (file.position + bytes.length),
    match fs.lookup file.location with
    | some (.file content) =>
      fs.put file.location (.file (overwrite content file.position bytes))
    | _ => fs)

end FileCursor

end Succession
