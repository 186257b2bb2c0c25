import Succession.Descriptor.Map
import Succession.Fault.System
import Succession.Path

/-!
# The descriptor table

The descriptors of a process, each a number that refers to an open file. Several may refer to the
same one. What is marked at a descriptor is its own: it may be marked to be closed when the process
replaces its image; all others stay open across the replacement. Whether using it blocks is marked
at the open file, and so all descriptors that refer to the file have it in common. There is no limit
to the descriptors of a process.
-/

namespace Succession

/-- What a descriptor refers to. The numbers tell apart the open files of a kind: two descriptors
refer to the same one if they are duplicates. -/
inductive OpenFile
  | file (id : Nat)
  /-- A listening socket, with the path it is bound to. -/
  | listener (socket : Nat) (address : Option Path)
  /-- One end of a connection. -/
  | stream (id : Nat)
  /-- A socket for datagrams, which listens to nobody. -/
  | datagram (id : Nat)
deriving DecidableEq, Repr

/-- Whether the open file is a socket. -/
def OpenFile.isSocket : OpenFile → Bool
  | file _ => false
  | _ => true

/-- Whether the open file is a socket that accepts connections. -/
def OpenFile.isListening : OpenFile → Bool
  | listener _ _ => true
  | _ => false

/-- An entry of the table. -/
structure Descriptor where
  target : OpenFile
  closeOnExec : Bool := true
deriving DecidableEq, Repr

/-- The open descriptors of a process. -/
structure DescriptorTable where
  map : FdMap Descriptor := {}
  /-- The open files whose use does not block. -/
  nonblocking : List OpenFile := []
deriving DecidableEq, Repr, Inhabited

namespace DescriptorTable

/-- What stands at a number. -/
def get? (t : DescriptorTable) (fd : Int) : Option Descriptor := t.map.get? fd

/-- Whether a number is open. -/
def isOpen (t : DescriptorTable) (fd : Int) : Bool := (t.get? fd).isSome

/-- The table with a descriptor placed at a number; what stood there is closed. -/
def put (t : DescriptorTable) (fd : Int) (d : Descriptor) : DescriptorTable :=
  { t with map := t.map.insert fd d }

/-- The table with a number closed. -/
def close (t : DescriptorTable) (fd : Int) : DescriptorTable := { t with map := t.map.erase fd }

/-- Marks a descriptor to be closed or kept when the image is replaced. -/
def setCloseOnExec (t : DescriptorTable) (fd : Int) (on : Bool) :
    Except SystemFault DescriptorTable :=
  match t.get? fd with
  | none => .error .badDescriptor
  | some d => .ok (t.put fd { d with closeOnExec := on })

/-- Whether a descriptor is closed when the image is replaced. -/
def closesOnExec (t : DescriptorTable) (fd : Int) : Except SystemFault Bool :=
  match t.get? fd with
  | none => .error .badDescriptor
  | some d => .ok d.closeOnExec

/-- Whether a number is open and using it does not block. -/
def isNonblocking (t : DescriptorTable) (fd : Int) : Bool :=
  (t.get? fd).any fun d => d.target ∈ t.nonblocking

/-- The table with the open file behind a descriptor made nonblocking, if there is one. -/
def setNonblocking (t : DescriptorTable) (fd : Int) : DescriptorTable :=
  match t.get? fd with
  | none => t
  | some d => { t with nonblocking := d.target :: t.nonblocking }

/-- The table with a descriptor of the process's own making placed at a number: it is closed when
the image is replaced, and using it does not block. -/
def putOwn (t : DescriptorTable) (fd : Int) (target : OpenFile) : DescriptorTable :=
  (t.put fd ⟨target, true⟩).setNonblocking fd

/-- A second descriptor for the same open file, to be closed when the image is replaced. -/
def duplicate (t : DescriptorTable) (fd : Int) : Except SystemFault Descriptor :=
  match t.get? fd with
  | none => .error .badDescriptor
  | some d => .ok { d with closeOnExec := true }

/-- The table after the image was replaced. -/
def afterExec (t : DescriptorTable) : DescriptorTable :=
  { t with map := t.map.filter fun _ d => !d.closeOnExec }

/-- Whether some descriptor refers to an open file. -/
def refersTo (t : DescriptorTable) (target : OpenFile) : Bool :=
  t.map.values.any fun d => d.target = target

/-- Whether some descriptor is a listener on a socket. -/
def listensOn (t : DescriptorTable) (socket : Nat) : Bool :=
  t.map.values.any fun d =>
    match d.target with
    | .listener id _ => id = socket
    | _ => false

/-- The first number from `start` on that is not open, looking at `limit` of them. -/
def firstFree (t : DescriptorTable) : Nat → Int → Int
  | 0, start => start
  | limit + 1, start => if t.isOpen start then firstFree t limit (start + 1) else start

end DescriptorTable

end Succession
