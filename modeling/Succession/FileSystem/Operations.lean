import Succession.FileSystem.Resolve

/-!
# Operations on files and directories

Reading, writing, making and removing entries. An operation that fails leaves the file system as
it was, apart from the directories that `createDirectories` has made on the way. Whether the system
refuses an access is asked last: a refusal is reported where nothing else is in the way.
-/

namespace Succession.FileSystem

/-- The content of the file that a path means. -/
def contentAt (fs : FileSystem) (p : Path) : Except SystemFault Bytes := do
  let loc ← resolve fs p
  match fs.lookup loc with
  | none => .error .notFound
  | some (.file content) => fs.unlessRefused .read loc content
  | some (.directory _) => .error .isDirectory
  | some (.socket _) => .error .noDevice
  | some (.symlink _) => .error .symlinkLoop

/-- The content of the file that a path means, if it is text. -/
def textAt (fs : FileSystem) (p : Path) : Except SystemFault String := do
  match Utf8.decode? (← contentAt fs p) with
  | some text => .ok text
  | none => .error .notText

/-- Where writing to a path makes a file: a symbolic link at its end stands for its target. -/
def placeOfFile (fs : FileSystem) : Nat → Location → Path → Except SystemFault Location
  | links, base, p => do
    let place ← place { fs with working := base } p
    match place.last with
    | .self | .up => .error .isDirectory
    | .name name =>
      let loc := place.directory ++ [name]
      match fs.lookup loc with
      | some (.symlink target) =>
        if place.asDirectory then .error .isDirectory
        else
          match links with
          | 0 => .error .symlinkLoop
          | links + 1 => placeOfFile fs links place.directory target
      | some (.directory _) => .error .isDirectory
      | some (.socket _) => if place.asDirectory then .error .isDirectory else .error .noDevice
      | _ => if place.asDirectory then .error .isDirectory else .ok loc

/-- Opens the file that a path means for writing, making it if there is none; it is then empty.
The result names its location. -/
def createFile (fs : FileSystem) (p : Path) : Except SystemFault (Location × FileSystem) := do
  let loc ← placeOfFile fs maxLinks fs.working p
  fs.unlessRefused .write loc (loc, fs.put loc (.file []))

/-- Makes the content of the file that a path means. -/
def writeFile (fs : FileSystem) (p : Path) (content : Bytes) : Except SystemFault FileSystem := do
  let loc ← placeOfFile fs maxLinks fs.working p
  fs.unlessRefused .write loc (fs.put loc (.file content))

/-- Removes the entry that a path names, which may be anything but a directory. -/
def removeFile (fs : FileSystem) (p : Path) : Except SystemFault FileSystem := do
  let place ← place fs p
  match place.last with
  | .self | .up => .error .isDirectory
  | .name name =>
    let loc := place.directory ++ [name]
    match fs.lookup loc with
    | none => .error .notFound
    | some (.directory _) => .error .isDirectory
    | some _ =>
      if place.asDirectory then .error .notDirectory
      else fs.unlessRefused .remove loc (fs.erase loc)

/-- Removes the empty directory that a path names. -/
def removeDirectory (fs : FileSystem) (p : Path) : Except SystemFault FileSystem := do
  let place ← place fs p
  match place.last with
  | .self => if p.names.all (· = []) then .error .busy else .error .invalidArgument
  | .up => .error .notEmpty
  | .name name =>
    let loc := place.directory ++ [name]
    match fs.lookup loc with
    | none => .error .notFound
    | some (.directory _) =>
      if fs.isEmptyAt loc then fs.unlessRefused .remove loc (fs.erase loc) else .error .notEmpty
    | some _ => .error .notDirectory

/-- Makes a directory. -/
def createDirectory (fs : FileSystem) (mode : Nat) (p : Path) :
    Except SystemFault FileSystem := do
  let place ← place fs p
  match place.last with
  | .self | .up => .error .alreadyExists
  | .name name =>
    let loc := place.directory ++ [name]
    match fs.lookup loc with
    | none => fs.unlessRefused .make loc (fs.put loc (.directory mode))
    | some _ => .error .alreadyExists

/-- Makes a directory and those above it that are missing, at most `depth` of them. A failure may
leave some of them made. -/
def createDirectoriesUpTo (mode : Nat) :
    Nat → FileSystem → Path → Except SystemFault Unit × FileSystem
  | depth, fs, p =>
    if p.components = [] then (.ok (), fs)
    else
      match createDirectory fs mode p with
      | .ok made => (.ok (), made)
      | .error .notFound =>
        match depth, p.parent? with
        | depth + 1, some above =>
          match createDirectoriesUpTo mode depth fs above with
          | (.ok (), made) =>
            match createDirectory made mode p with
            | .ok all => (.ok (), all)
            | .error cause => if isDirectory made p then (.ok (), made) else (.error cause, made)
          | (.error cause, made) => (.error cause, made)
        | _, _ => (.error .notFound, fs)
      | .error cause => if isDirectory fs p then (.ok (), fs) else (.error cause, fs)

/-- Makes a directory and all those above it that are missing. That it exists already is no
failure; nor is an empty path, which stands for the working directory. -/
def createDirectories (fs : FileSystem) (mode : Nat) (p : Path) :
    Except SystemFault Unit × FileSystem :=
  createDirectoriesUpTo mode p.bytes.length fs p

/-- Makes a symbolic link at a path. -/
def createSymlink (fs : FileSystem) (target p : Path) : Except SystemFault FileSystem := do
  let place ← place fs p
  match place.last with
  | .self | .up => .error .alreadyExists
  | .name name =>
    let loc := place.directory ++ [name]
    match fs.lookup loc with
    | none =>
      if place.asDirectory then .error .notFound
      else fs.unlessRefused .make loc (fs.put loc (.symlink target))
    | some _ => .error .alreadyExists

/-- The length of a socket's path from which it is too long. -/
def maxSocketPath : Nat := 108

/-- What is wrong with the spelling of a socket's path. -/
def checkSocketPath (p : Path) : Except SystemFault Unit :=
  if Bytes.nul ∈ p.bytes then .error .nulInSocketPath
  else if maxSocketPath ≤ p.bytes.length then .error .socketPathTooLong
  else .ok ()

/-- Binds a new socket to a path and gives its number. The empty path binds it to no place at
all. -/
def bind (fs : FileSystem) (p : Path) : Except SystemFault (Nat × FileSystem) := do
  checkSocketPath p
  let fresh := { fs with nextSocket := fs.nextSocket + 1 }
  if p.bytes = [] then return (fs.nextSocket, fresh)
  let place ← place fs p
  match place.last with
  | .self | .up => .error .addressInUse
  | .name name =>
    let loc := place.directory ++ [name]
    match fs.lookup loc with
    | some _ => .error .addressInUse
    | none =>
      if place.asDirectory then .error .notFound
      else fs.unlessRefused .make loc (fs.nextSocket, fresh.put loc (.socket fs.nextSocket))

/-- The number of the socket that a connection to a path reaches, where `listening` tells which
sockets somebody listens on. -/
def connect (fs : FileSystem) (listening : Nat → Bool) (p : Path) : Except SystemFault Nat := do
  checkSocketPath p
  if p.bytes = [] then .error .invalidArgument
  match ← stat fs p with
  | .socket id => if listening id then .ok id else .error .connectionRefused
  | _ => .error .connectionRefused

/-- The path of a location below the directory `base`, seen from there. -/
def relative? (base loc : Location) : Option Path :=
  match base.isPrefixOf? loc with
  | some (name :: rest) => some ⟨Bytes.intercalate Path.separator (name :: rest)⟩
  | _ => none

/-- The entries below the working directory with their paths from there, in the order of the
paths. -/
def listing (fs : FileSystem) : List (Path × Node) :=
  let below := fs.entries.filterMap fun (loc, node) =>
    (relative? fs.working loc).map fun p => (p, node)
  below.mergeSort fun a b => Bytes.le a.1.bytes b.1.bytes

end Succession.FileSystem
