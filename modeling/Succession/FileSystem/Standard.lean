import Succession.FileSystem.Operations

/-!
# A usual system

A file system with the directories that programs rely on, an empty working directory, a file of the
system's own, and ways to lay out files in it.
-/

namespace Succession.FileSystem

/-- An entry to lay out. -/
inductive Layout
  | file (content : Bytes)
  | directory
  /-- A socket that nobody listens on. -/
  | socket
  | symlink (target : Path)
deriving DecidableEq, Repr

/-- The locations of the usual directories. -/
def usualDirectories : List Location :=
  [["bin"], ["dev"], ["dev", "shm"], ["proc"], ["tmp"], ["usr"], ["usr", "bin"], ["work"]].map
    (·.map Bytes.ofString)

/-- A file that the system itself keeps. Nobody can remove it. -/
def systemFile : Location := ["proc", "version"].map Bytes.ofString

/-- The usual directories with nothing in them but a file of the system's; the last is the working
directory. -/
def standard : FileSystem :=
  { entries := usualDirectories.map (fun loc => (loc, .directory defaultMode)) ++
      [(systemFile, .file (Bytes.ofString "Linux version\n"))]
    working := [Bytes.ofString "work"]
    refusals := [⟨.remove, systemFile, .notPermitted⟩] }

/-- The changed file system, or the old one if the change failed. -/
def orSame (fs : FileSystem) (changed : Except SystemFault FileSystem) : FileSystem :=
  changed.toOption.getD fs

/-- Lays out an entry at a path, making the directories above it. -/
def layOut (fs : FileSystem) (p : Path) (entry : Layout) : FileSystem :=
  let fs :=
    match p.parent? with
    | some directory => (fs.createDirectories defaultMode directory).2
    | none => fs
  match entry with
  | .file content => fs.orSame (fs.writeFile p content)
  | .directory => (fs.createDirectories defaultMode p).2
  | .socket => fs.orSame ((fs.bind p).map (·.2))
  | .symlink target => fs.orSame (fs.createSymlink target p)

/-- The standard file system with entries laid out in it, one after another. -/
def ofLayouts (entries : List (Path × Layout)) : FileSystem :=
  entries.foldl (fun fs (p, entry) => fs.layOut p entry) .standard

end Succession.FileSystem
