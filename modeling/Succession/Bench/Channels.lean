import Succession.Channel.Endpoint
import Succession.Channel.Activation
import Succession.Channel.Set
import Succession.Descriptor.Stream

/-!
# A bench for channels

A process that holds channels and whose descriptors can be placed at will: files, listeners,
connections with a peer at hand, and datagram sockets. It shows what becomes of the channels when
they are handed over, adopted and closed.
-/

namespace Succession

/-- What can be placed at a descriptor. -/
inductive Placement
  | file
  | datagram
  | stream
  | listener (path : Path)
deriving DecidableEq, Repr

/-- A process on the bench. -/
structure Bench where
  holding : Holding := {}
  files : FileSystem
  pool : StreamPool := {}
  /-- The manifest of the last handoff. -/
  last : Manifest := {}
  /-- Every descriptor that was ever placed. -/
  placed : List Int := []
  /-- The number of the next file or datagram socket. -/
  next : Nat := 0
  /-- The connections whose near ends were placed, by descriptor, the latest first. -/
  peers : List (Int × Nat) := []
deriving Repr

namespace Bench

/-- Places a descriptor. -/
def put (b : Bench) (fd : Int) (d : Descriptor) : Bench :=
  { b with
    holding := { b.holding with table := b.holding.table.put fd d }
    placed := if fd ∈ b.placed then b.placed else b.placed ++ [fd]
    next := b.next + 1 }

/-- Places something that nobody owns, in blocking mode. -/
def place (b : Bench) (fd : Int) (what : Placement) (closeOnExec : Bool) : Bench :=
  match what with
  | .file => b.put fd ⟨.file b.next, closeOnExec⟩
  | .datagram => b.put fd ⟨.datagram b.next, closeOnExec⟩
  | .stream =>
    let (id, pool) := b.pool.create
    { b with pool := pool, peers := (fd, id) :: b.peers }.put fd ⟨.stream id, closeOnExec⟩
  | .listener p =>
    match b.files.bind p with
    | .ok (id, files) =>
      { b with files := files }.put fd ⟨.listener id (Endpoint.addressFor p), closeOnExec⟩
    | .error _ => b

/-- Binds a listener at a path, places it at a descriptor and adds it to the set. -/
def bind (b : Bench) (fd : Int) (p : Path) (origin : Provenance) : Except Fault Unit × Bench :=
  match Endpoint.create b.files p with
  | (.error f, files) => (.error f, { b with files := files })
  | (.ok id, files) =>
    let b := { b with files := files }.put fd ⟨.listener id (Endpoint.addressFor p), true⟩
    let table := b.holding.table.setNonblocking fd
    (.ok (), { b with holding := Holding.putListener ⟨b.holding.set, table⟩ fd ⟨origin, some p⟩ })

/-- Takes the descriptors that the environment announces to the process with number `pid`, and
adopts them, or closes them if they are to be dropped. -/
def takeActivation (b : Bench) (env : Environment) (pid : Nat) (drop : Bool) :
    List Int × Bench × List Notice :=
  let (fds, notices) := Activation.announced (env.text? Activation.pidVariable)
    (env.text? Activation.countVariable) pid
  let (taken, table, more) := Holding.receiveAnnounced b.holding.table fds
  if drop then
    (taken, { b with holding := ⟨b.holding.set, taken.foldl DescriptorTable.close table⟩ },
      notices ++ more)
  else
    let (_, holding, last) := Holding.adoptSupervised ⟨b.holding.set, table⟩ taken
    (taken, { b with holding := holding }, notices ++ more ++ last)

/-- The peer of a connection sends bytes; none if the near end is closed. -/
def peerWrite? (b : Bench) (fd : Int) (bytes : Bytes) : Option Bench := do
  let id ← b.peers.lookup fd
  if b.holding.table.refersTo (.stream id) then
    return { b with pool := b.pool.modify id fun s => s.receive bytes }
  else none

/-- The peer of a connection closes its end. -/
def peerClose (b : Bench) (fd : Int) : Bench :=
  match b.peers.lookup fd with
  | some id => { b with pool := b.pool.modify id Stream.closePeer }
  | none => b

/-- How many bytes one read of a client takes at most. -/
def readLimit : Nat := 8192

/-- What a read of a client leads to. -/
inductive ClientRead
  | noClient
  | wouldBlock
  | ended
  /-- The lines that came out, unless the rest was too long. -/
  | lines (l : Option (List String))
deriving DecidableEq, Repr

/-- Reads from a client into its line buffer. -/
def clientRead (b : Bench) (fd : Int) : ClientRead × Bench :=
  match b.holding.set.clients.get? fd with
  | none => (.noClient, b)
  | some client =>
    match b.holding.table.get? fd with
    | some ⟨.stream id, _⟩ =>
      let (outcome, stream) := (b.pool.get id).read readLimit
      let b := { b with pool := b.pool.modify id fun _ => stream }
      match outcome with
      | .wouldBlock => (.wouldBlock, b)
      | .ended => (.ended, b)
      | .data bytes =>
        let (lines, buffer) := client.lines.push bytes
        (.lines lines,
          { b with holding := { b.holding with set := b.holding.set.setLines fd buffer } })
    | _ => (.wouldBlock, b)

end Bench

end Succession
