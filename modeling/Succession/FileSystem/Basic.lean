import Succession.Fault.System
import Succession.Lookup
import Succession.Path

/-!
# The file system

A file system is a set of entries, each at a location: the names on the way to it from the root.
A process sees it from its working directory. The root itself always exists.

What the process may not do the system refuses, location by location. The rights behind that are not
modelled, only what comes of them: for each location the accesses that are refused, and with which
fault. Searching a directory is never refused, and neither is connecting to a socket.
-/

namespace Succession

/-- The names that lead from the root to an entry. -/
abbrev Location := List Bytes

/-- What an entry is. -/
inductive Node
  | file (content : Bytes)
  | directory (mode : Nat)
  /-- A socket; the number tells apart all sockets that were ever bound. -/
  | socket (id : Nat)
  | symlink (target : Path)
deriving DecidableEq, Repr

/-- Whether the entry is a directory. -/
def Node.isDirectory : Node → Bool
  | directory _ => true
  | _ => false

/-- What a process may do with the entry at a location. -/
inductive Access
  | read
  /-- To open a file for writing, or to make one. -/
  | write
  /-- To make a directory, a link or a socket. -/
  | make
  | remove
deriving DecidableEq, Repr

/-- The system refuses an access: a right is missing, the entry is in use, or it may only be
read. -/
structure Refusal where
  access : Access
  location : Location
  cause : SystemFault
deriving DecidableEq, Repr

/-- The entries of a file system as a process sees it. -/
structure FileSystem where
  entries : List (Location × Node) := []
  /-- Where relative paths start. -/
  working : Location := []
  /-- The number of the next socket. -/
  nextSocket : Nat := 0
  refusals : List Refusal := []
deriving DecidableEq, Repr, Inhabited

namespace FileSystem

/-- The rights of a directory that is made without saying which. -/
def defaultMode : Nat := 0o755

/-- The entry at a location. -/
def lookup (fs : FileSystem) (loc : Location) : Option Node :=
  if loc = [] then some (.directory defaultMode) else fs.entries.lookup loc

/-- The file system without the entry at a location. -/
def erase (fs : FileSystem) (loc : Location) : FileSystem :=
  { fs with entries := fs.entries.filter fun (l, _) => l ≠ loc }

/-- The file system with an entry at a location, in place of any other there. -/
def put (fs : FileSystem) (loc : Location) (node : Node) : FileSystem :=
  { fs with entries := (fs.erase loc).entries ++ [(loc, node)] }

/-- Whether no entry stands directly below a location. -/
def isEmptyAt (fs : FileSystem) (loc : Location) : Bool :=
  fs.entries.all fun (l, _) => l.dropLast ≠ loc

/-- Why the system refuses an access, if it does. -/
def refusal? (fs : FileSystem) (access : Access) (loc : Location) : Option SystemFault :=
  (fs.refusals.find? fun r => r.access = access && r.location = loc).map (·.cause)

/-- What an access comes to that nothing else stands against. -/
def unlessRefused (fs : FileSystem) (access : Access) (loc : Location) {α : Type} (a : α) :
    Except SystemFault α :=
  match fs.refusal? access loc with
  | some cause => .error cause
  | none => .ok a

/-- The system lets a process have an access. -/
abbrev Permits (fs : FileSystem) (access : Access) (loc : Location) : Prop :=
  fs.refusal? access loc = none

theorem unlessRefused_eq_ok {fs : FileSystem} {access : Access} {loc : Location} {α : Type}
    {a b : α} : fs.unlessRefused access loc a = .ok b ↔ fs.Permits access loc ∧ b = a := by
  unfold unlessRefused
  cases refused : fs.refusal? access loc with
  | some cause => simp [Permits, refused]
  | none => simp [Permits, refused, eq_comm]

theorem unlessRefused_of_permits {fs : FileSystem} {access : Access} {loc : Location}
    (permitted : fs.Permits access loc) {α : Type} (a : α) :
    fs.unlessRefused access loc a = .ok a :=
  unlessRefused_eq_ok.mpr ⟨permitted, rfl⟩

/-- Removing one entry leaves every other as it was. -/
theorem lookup_erase_ne (fs : FileSystem) {loc other : Location} (h : other ≠ loc) :
    (fs.erase loc).lookup other = fs.lookup other := by
  unfold lookup erase
  split
  · rfl
  · exact lookup_filter_ne _ h

theorem lookup_erase_self (fs : FileSystem) {loc : Location} (h : loc ≠ []) :
    (fs.erase loc).lookup loc = none := by
  unfold lookup erase
  rw [if_neg h]
  exact lookup_filter_self _ _

/-- Placing an entry leaves every other as it was. -/
theorem lookup_put_ne (fs : FileSystem) {loc other : Location} (node : Node) (h : other ≠ loc) :
    (fs.put loc node).lookup other = fs.lookup other := by
  have differs : (other == loc) = false := by simpa using h
  unfold lookup put erase
  split
  · rfl
  · rw [List.lookup_append, lookup_filter_ne _ h]
    simp [List.lookup_cons, differs]

theorem lookup_put_self (fs : FileSystem) {loc : Location} (node : Node) (h : loc ≠ []) :
    (fs.put loc node).lookup loc = some node := by
  unfold lookup put erase
  rw [if_neg h, List.lookup_append, lookup_filter_self]
  simp

end FileSystem

end Succession
