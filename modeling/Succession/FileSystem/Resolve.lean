import Succession.FileSystem.Basic

/-!
# Resolving paths

A path leads from the root or the working directory through directories to an entry; symbolic
links on the way stand for their targets. `resolve` finds the entry that a path means, following a
link at its end as well. Operations that make or remove an entry need its place instead: `place`
finds the directory and leaves the last name as it is.
-/

namespace Succession.FileSystem

/-- The longest name of an entry. -/
def maxName : Nat := 255

/-- The length from which a path is too long. -/
def maxPath : Nat := 4096

/-- How many symbolic links one path may lead through. -/
def maxLinks : Nat := 40

/-- The names that a path leads through; a slash at the end asks for a directory, as `.` does. -/
def steps (p : Path) : List Bytes :=
  let names := p.names.filter (· ≠ [])
  if p.bytes.getLast? = some Path.separator then names ++ [Path.dot] else names

/-- Where a path starts, seen from the directory `base`. -/
def origin (base : Location) (p : Path) : Location := if p.isAbsolute then [] else base

/-- Where following some names leads. -/
inductive Step
  | arrived (loc : Location)
  | failed (cause : SystemFault)
  /-- A symbolic link stands on the way, in directory `loc`, and `rest` comes after it. -/
  | link (loc : Location) (target : Path) (rest : List Bytes)
deriving DecidableEq, Repr

/-- Follows names from the directory `loc` to the entry at their end or to the first symbolic
link. -/
def follow (fs : FileSystem) (loc : Location) : List Bytes → Step
  | [] => .arrived loc
  | name :: rest =>
    if name = Path.dot then follow fs loc rest
    else if name = Path.dotDot then follow fs loc.dropLast rest
    else if maxName < name.length then .failed .nameTooLong
    else
      match fs.lookup (loc ++ [name]) with
      | none => .failed .notFound
      | some (.directory _) => follow fs (loc ++ [name]) rest
      | some (.symlink target) => .link loc target rest
      | some _ => if rest = [] then .arrived (loc ++ [name]) else .failed .notDirectory

/-- Follows names and up to `links` symbolic links. -/
def walk (fs : FileSystem) : Nat → Location → List Bytes → Except SystemFault Location
  | links, loc, names =>
    match follow fs loc names with
    | .arrived found => .ok found
    | .failed cause => .error cause
    | .link here target rest =>
      match links with
      | 0 => .error .symlinkLoop
      | links + 1 => walk fs links (origin here target) (steps target ++ rest)

/-- What is wrong with the spelling of a path. -/
def checkSpelling (p : Path) : Except SystemFault Unit :=
  if Bytes.nul ∈ p.bytes then .error .nulInFileName
  else if p.bytes = [] then .error .notFound
  else if maxPath ≤ p.bytes.length then .error .nameTooLong
  else .ok ()

/-- The location of the entry that a path means. -/
def resolve (fs : FileSystem) (p : Path) : Except SystemFault Location := do
  checkSpelling p
  walk fs maxLinks (origin fs.working p) (steps p)

/-- The last part of a path. -/
inductive LastName
  /-- The path ends in no name of its own: the root, or `.`. -/
  | self
  | up
  | name (n : Bytes)
deriving DecidableEq, Repr

/-- Where a path places an entry: in an existing directory, under a name. -/
structure Place where
  directory : Location
  last : LastName
  /-- Whether the path ends in a slash. -/
  asDirectory : Bool
deriving DecidableEq, Repr

/-- The place that a path names; all but its last name must exist. -/
def place (fs : FileSystem) (p : Path) : Except SystemFault Place := do
  checkSpelling p
  let names := p.names.filter (· ≠ [])
  let directory ← walk fs maxLinks (origin fs.working p)
    (if names.length ≤ 1 then [] else names.dropLast ++ [Path.dot])
  let asDirectory := p.bytes.getLast? = some Path.separator
  match names.getLast? with
  | none => return ⟨directory, .self, asDirectory⟩
  | some name =>
    if name = Path.dot then return ⟨directory, .self, asDirectory⟩
    else if name = Path.dotDot then return ⟨directory, .up, asDirectory⟩
    else if maxName < name.length then .error .nameTooLong
    else return ⟨directory, .name name, asDirectory⟩

/-- The entry that a path means. -/
def stat (fs : FileSystem) (p : Path) : Except SystemFault Node := do
  let loc ← resolve fs p
  match fs.lookup loc with
  | some node => .ok node
  | none => .error .notFound

/-- Whether a path means an entry. A symbolic link to nothing means none. -/
def exists? (fs : FileSystem) (p : Path) : Bool := (stat fs p).toBool

/-- Whether a path means a directory. -/
def isDirectory (fs : FileSystem) (p : Path) : Bool :=
  match stat fs p with
  | .ok node => node.isDirectory
  | .error _ => false

end Succession.FileSystem
