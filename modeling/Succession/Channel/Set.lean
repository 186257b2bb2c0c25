import Succession.Channel.Manifest
import Succession.Descriptor.Table
import Succession.Journal
import Succession.Request.PartialLine

/-!
# Channels

The sockets that a process is responsible for: listeners, where clients connect, and the clients
themselves. The set owns their descriptors. Before the image is replaced every descriptor is kept
open and listed in a manifest; the next image checks each entry before it owns the descriptor.
-/

namespace Succession

/-- A socket where clients connect. -/
structure Listener where
  origin : Provenance
  path : Option Path := none
deriving DecidableEq, Repr

/-- Whether the process removes the listener's path in the end. A supervisor's path is not its
own. -/
def Listener.removesPath (l : Listener) : Bool :=
  l.origin ≠ .activation && l.path.isSome

/-- A client that is connected. -/
structure Client where
  origin : Provenance
  lines : PartialLine := {}
deriving DecidableEq, Repr

/-- The channels of a process. -/
structure Channels where
  listeners : FdMap Listener := {}
  clients : FdMap Client := {}
deriving DecidableEq, Repr, Inhabited

/-- Channels together with the descriptor table they stand in. -/
structure Holding where
  set : Channels := {}
  table : DescriptorTable := {}
deriving DecidableEq, Repr, Inhabited

namespace Channels

/-- Whether a descriptor belongs to a channel. -/
def owns (s : Channels) (fd : Int) : Bool := s.listeners.contains fd || s.clients.contains fd

/-- How many channels there are. -/
def size (s : Channels) : Nat := s.listeners.size + s.clients.size

/-- Whether a listener serves a path. -/
def serves (s : Channels) (p : Path) : Bool :=
  s.listeners.values.any fun l => l.path.any fun q => q.same p

/-- The path of the first listener that has one. -/
def primaryPath? (s : Channels) : Option Path := s.listeners.values.findSome? (·.path)

/-- The set with a client's partial line changed. -/
def setLines (s : Channels) (fd : Int) (lines : PartialLine) : Channels :=
  { s with clients := s.clients.modify fd fun c => { c with lines := lines } }

/-- The entries of all channels, the listeners first. -/
def entries (s : Channels) : List ManifestEntry :=
  s.listeners.entries.map (fun (fd, l) => ⟨fd, .listener, l.origin, l.path⟩) ++
    s.clients.entries.map fun (fd, c) => ⟨fd, .client, c.origin, none⟩

end Channels

namespace Holding

/-- Adds a listener. One that the set had at the descriptor is dropped, and so the descriptor is
closed. -/
def putListener (h : Holding) (fd : Int) (l : Listener) : Holding :=
  ⟨{ h.set with listeners := h.set.listeners.insert fd l },
    if h.set.listeners.contains fd then h.table.close fd else h.table⟩

/-- Adds a client. One that the set had at the descriptor is dropped, and so the descriptor is
closed. -/
def putClient (h : Holding) (fd : Int) (c : Client) : Holding :=
  ⟨{ h.set with clients := h.set.clients.insert fd c },
    if h.set.clients.contains fd then h.table.close fd else h.table⟩

/-- Removes a client, which closes its descriptor. -/
def eraseClient (h : Holding) (fd : Int) : Holding :=
  if h.set.clients.contains fd then
    ⟨{ h.set with clients := h.set.clients.erase fd }, h.table.close fd⟩
  else h

/-- Keeps the descriptors of entries open when the image is replaced, and lists those for which
that succeeded. -/
def keepOpen (table : DescriptorTable) :
    List ManifestEntry → List ManifestEntry × DescriptorTable × List Notice
  | [] => ([], table, [])
  | e :: rest =>
    match table.setCloseOnExec e.fd false with
    | .error cause =>
      let (kept, table, notices) := keepOpen table rest
      (kept, table, .channelLost e.fd e.role.label cause :: notices)
    | .ok table =>
      let (kept, table, notices) := keepOpen table rest
      (e :: kept, table, notices)

/-- Makes every channel survive the replacement of the image, and lists them. -/
def handOff (h : Holding) : Manifest × Holding × List Notice :=
  let (kept, table, notices) := keepOpen h.table h.set.entries
  (⟨kept⟩, ⟨h.set, table⟩, notices)

/-- What keeps a descriptor from being a channel of a role. -/
def roleProblem? (table : DescriptorTable) (fd : Int) (role : Role) : Option String :=
  match table.get? fd with
  | none => some ("fstat failed: " ++ SystemFault.badDescriptor.message)
  | some d =>
    if !d.target.isSocket then some "not a socket"
    else
      match role, d.target.isListening with
      | .listener, false => some "listed as listener but not listening"
      | .client, true => some "listed as client but listening"
      | _, _ => none

/-- What keeps an entry of a manifest from being adopted. -/
def entryProblem? (table : DescriptorTable) (e : ManifestEntry) : Option String :=
  if e.fd < 0 then some "negative descriptor"
  else if !table.isOpen e.fd then some ("not open: " ++ SystemFault.badDescriptor.message)
  else roleProblem? table e.fd e.role

/-- The origin of a channel after it was handed over. -/
def adoptedOrigin : Provenance → Provenance
  | .activation => .activation
  | _ => .inherited

/-- Owns the descriptor of an entry that has no problem. -/
def own (h : Holding) (e : ManifestEntry) : Holding :=
  let marked := h.table.setCloseOnExec e.fd true
  let table := (marked.toOption.getD h.table).setNonblocking e.fd
  let origin := adoptedOrigin e.origin
  match e.role with
  | .listener => putListener ⟨h.set, table⟩ e.fd ⟨origin, e.path⟩
  | .client => putClient ⟨h.set, table⟩ e.fd ⟨origin, {}⟩

/-- Adopts an entry, if it has no problem. -/
def adopt (h : Holding) (e : ManifestEntry) : Except Fault Holding :=
  match entryProblem? h.table e with
  | some problem => .error (.channel e.fd problem)
  | none => .ok (h.own e)

/-- Adopts entries one after another; `seen` holds the descriptors of earlier entries. A
descriptor that was named before or is owned already is passed over. The result counts the
entries that were adopted. -/
def adoptEntries (seen : List Int) (h : Holding) :
    List ManifestEntry → Nat × Holding × List Notice
  | [] => (0, h, [])
  | e :: rest =>
    if e.fd ∈ seen ∨ h.set.owns e.fd then
      let (count, h, notices) := adoptEntries (e.fd :: seen) h rest
      (count, h, .duplicateChannel e.fd :: notices)
    else
      match h.adopt e with
      | .ok h =>
        let (count, h, notices) := adoptEntries (e.fd :: seen) h rest
        (count + 1, h, notices)
      | .error fault =>
        let (count, h, notices) := adoptEntries (e.fd :: seen) h rest
        (count, h, .channelSkipped fault :: notices)

/-- Adopts the channels of a manifest and counts them. -/
def adoptAll (h : Holding) (m : Manifest) : Nat × Holding × List Notice :=
  adoptEntries [] h m.channels

/-- Adopts a descriptor as a client, unless it is owned already. -/
def adoptClient (h : Holding) (fd : Int) : Except Fault Holding :=
  if h.set.owns fd then .ok h else h.adopt ⟨fd, .client, .inherited, none⟩

/-- The path that a listener at a descriptor is bound to. -/
def addressOf? (table : DescriptorTable) (fd : Int) : Option Path :=
  match table.get? fd with
  | some ⟨.listener _ address, _⟩ => address
  | _ => none

/-- Adopts a supervisor's descriptors as listeners and counts them; one that is no listener is
closed. -/
def adoptSupervised (h : Holding) : List Int → Nat × Holding × List Notice
  | [] => (0, h, [])
  | fd :: rest =>
    match roleProblem? h.table fd .listener with
    | some problem =>
      let (count, h, notices) := adoptSupervised ⟨h.set, h.table.close fd⟩ rest
      (count, h, .activationRejected fd problem :: notices)
    | none =>
      let listener : Listener := ⟨.activation, addressOf? h.table fd⟩
      let (count, h, notices) :=
        adoptSupervised (putListener ⟨h.set, h.table.setNonblocking fd⟩ fd listener) rest
      (count + 1, h, notices)

/-- Takes the announced descriptors that are open, and marks them to stay open when the image is
replaced. -/
def receiveAnnounced (table : DescriptorTable) :
    List Int → List Int × DescriptorTable × List Notice
  | [] => ([], table, [])
  | fd :: rest =>
    match table.setCloseOnExec fd false with
    | .error _ =>
      let (taken, table, notices) := receiveAnnounced table rest
      (taken, table, .activationNotOpen fd :: notices)
    | .ok table =>
      let (taken, table, notices) := receiveAnnounced table rest
      (fd :: taken, table, notices)

/-- The image is replaced: the set is forgotten, and the table keeps what stays open. -/
def afterExec (h : Holding) : Holding := ⟨{}, h.table.afterExec⟩

/-- Gives all channels up and closes their descriptors. -/
def closeAll (h : Holding) : Holding :=
  let owned := h.set.listeners.fds ++ h.set.clients.fds
  ⟨{}, owned.foldl DescriptorTable.close h.table⟩

end Holding

end Succession
