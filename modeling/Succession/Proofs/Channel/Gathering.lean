import Succession.Channel.Endpoint
import Succession.Proofs.Channel.Handoff
import Succession.Proofs.Channel.ManifestText

/-!
# Where the paths of channels come from

A process comes by its channels in four ways: it binds listeners, adopts a supervisor's sockets,
adopts what a manifest lists, and accepts clients (`Holding.Gathered`). A manifest is text, and so
are the paths in it. A path that a listener was bound to, by this process or by the supervisor, may
hold any bytes, and only such a path can keep the channels from being listed
(`Holding.Gathered.accounted`, `Holding.encode_iff`).
-/

namespace Succession

namespace Holding

/-! ## 1. Gathering channels -/

/-- Binds a listener's socket to a descriptor. -/
def listenAt (h : Holding) (fd : Int) (socket : Nat) (p : Path) : Holding :=
  putListener ⟨h.set, h.table.putOwn fd (.listener socket (Endpoint.addressFor p))⟩ fd
    ⟨.localBind, some p⟩

/-- Takes a connection as a client. -/
def welcome (h : Holding) (fd : Int) (id : Nat) : Holding :=
  putClient ⟨h.set, h.table.putOwn fd (.stream id)⟩ fd ⟨.localBind, {}⟩

/-- What a process can have come to hold that began with the table `t` and no channels; the list
holds the paths that it has bound.

* `bind`: a listener at a path where a socket could be made.
* `supervise`: a supervisor's listeners, at descriptors that were handed to the process.
* `inherit`: what a manifest lists, as far as it can be adopted.
* `accept` and `greet`: a client that has called, and the one that waits to be told of a restart.
* `read` and `drop`: a client has said part of a line, or is gone. -/
inductive Gathered (t : DescriptorTable) : List Path → Holding → Prop
  | empty : Gathered t [] ⟨{}, t⟩
  | bind {bound : List Path} {h : Holding} {files files' : FileSystem} {p : Path} {socket : Nat}
      (fd : Int) : Gathered t bound h → Endpoint.create files p = (.ok socket, files') →
      Gathered t (p :: bound) (h.listenAt fd socket p)
  | supervise {bound : List Path} {h : Holding} (fds : List Int) : Gathered t bound h →
      Gathered t bound (h.adoptSupervised fds).2.1
  | inherit {bound : List Path} {h : Holding} {raw : String} {m : Manifest} : Gathered t bound h →
      Manifest.decode raw = .ok m → Gathered t bound (h.adoptAll m).2.1
  | accept {bound : List Path} {h : Holding} (fd : Int) (id : Nat) : Gathered t bound h →
      Gathered t bound (h.welcome fd id)
  | greet {bound : List Path} {h h' : Holding} {fd : Int} : Gathered t bound h →
      h.adoptClient fd = .ok h' → Gathered t bound h'
  | read {bound : List Path} {h : Holding} (fd : Int) (lines : PartialLine) : Gathered t bound h →
      Gathered t bound { h with set := h.set.setLines fd lines }
  | drop {bound : List Path} {h : Holding} (fd : Int) : Gathered t bound h →
      Gathered t bound (h.eraseClient fd)

/-! ## 2. Accounting for their paths -/

/-- Every path of a listener, and every address that a descriptor is bound to, is one of those. -/
structure PathsIn (known : Path → Prop) (h : Holding) : Prop where
  listeners : ∀ fd l p, h.set.listeners.get? fd = some l → l.path = some p → known p
  addresses : ∀ fd p, addressOf? h.table fd = some p → known p

theorem addressOf?_eq_some {t : DescriptorTable} {fd : Int} {p : Path} :
    addressOf? t fd = some p ↔ ∃ socket, t.Opens fd (.listener socket (some p)) := by
  rw [addressOf?]
  constructor
  · intro found
    split at found
    · next socket address closes here =>
      exact ⟨socket, _, here, by rw [found]⟩
    · cases found
  · rintro ⟨socket, ⟨target, closes⟩, here, rfl⟩
    rw [here]

namespace PathsIn

variable {known : Path → Prop} {h h' : Holding} {t : DescriptorTable} {fd : Int}

theorem table (paths : PathsIn known h) (part : t.PartOf h.table) : PathsIn known ⟨h.set, t⟩ := by
  refine ⟨paths.listeners, fun fd p found => ?_⟩
  obtain ⟨socket, here⟩ := addressOf?_eq_some.mp found
  exact paths.addresses fd p (addressOf?_eq_some.mpr ⟨socket, part.opens here⟩)

/-- An open file with an address that is known may be placed anywhere. -/
theorem putOwn (paths : PathsIn known h) (fd : Int) {file : OpenFile}
    (own : ∀ socket p, file = .listener socket (some p) → known p) :
    PathsIn known ⟨h.set, h.table.putOwn fd file⟩ := by
  refine ⟨paths.listeners, fun other p found => ?_⟩
  obtain ⟨socket, here⟩ := addressOf?_eq_some.mp found
  rcases DescriptorTable.opens_putOwn.mp here with ⟨_, same⟩ | ⟨_, before⟩
  · exact own socket p same.symm
  · exact paths.addresses other p (addressOf?_eq_some.mpr ⟨socket, before⟩)

theorem putListener (paths : PathsIn known h) {l : Listener}
    (own : ∀ p, l.path = some p → known p) : PathsIn known (h.putListener fd l) := by
  have within : PathsIn known ⟨h.set, if h.set.listeners.contains fd then h.table.close fd
      else h.table⟩ := by
    split
    · exact paths.table (.close h.table fd)
    · exact paths
  refine ⟨fun other l' p found path => ?_, within.addresses⟩
  by_cases same : other = fd
  · rw [Holding.putListener, same, FdMap.get?_insert_self] at found
    cases found
    exact own p path
  · rw [Holding.putListener, FdMap.get?_insert_ne _ _ same] at found
    exact paths.listeners other l' p found path

theorem putClient (paths : PathsIn known h) (fd : Int) (c : Client) :
    PathsIn known (h.putClient fd c) := by
  refine ⟨paths.listeners, ?_⟩
  rw [Holding.putClient]
  split
  · exact (paths.table (.close h.table fd)).addresses
  · exact paths.addresses

theorem eraseClient (paths : PathsIn known h) (fd : Int) : PathsIn known (h.eraseClient fd) := by
  rw [Holding.eraseClient]
  split
  · exact ⟨paths.listeners, (paths.table (.close h.table fd)).addresses⟩
  · exact paths

theorem own (paths : PathsIn known h) {e : ManifestEntry} (path : ∀ p ∈ e.path, known p) :
    PathsIn known (h.own e) := by
  have marked : ((h.table.setCloseOnExec e.fd true).toOption.getD h.table).PartOf h.table := by
    cases marking : h.table.setCloseOnExec e.fd true with
    | error cause => exact .refl _
    | ok t => exact .setCloseOnExec marking
  have paths' := paths.table ((DescriptorTable.PartOf.setNonblocking _ e.fd).trans marked)
  rw [Holding.own]
  split
  · exact paths'.putListener path
  · exact paths'.putClient e.fd _

theorem adopt (paths : PathsIn known h) {e : ManifestEntry} (path : ∀ p ∈ e.path, known p)
    (adopted : h.adopt e = .ok h') : PathsIn known h' := by
  rw [Holding.adopt] at adopted
  split at adopted
  · cases adopted
  · cases adopted
    exact paths.own path

theorem adoptEntries {entries : List ManifestEntry} (paths : PathsIn known h)
    (all : ∀ e ∈ entries, ∀ p ∈ e.path, known p) (seen : List Int) :
    PathsIn known (Holding.adoptEntries seen h entries).2.1 := by
  induction entries generalizing seen h with
  | nil => exact paths
  | cons e rest ih =>
    obtain ⟨first, others⟩ := List.forall_mem_cons.mp all
    rw [Holding.adoptEntries]
    split
    · exact ih paths others _
    · split
      · next h' adopted => exact ih (paths.adopt first adopted) others _
      · exact ih paths others _

/-- A supervisor's listeners have the addresses of their descriptors as paths. -/
theorem adoptSupervised (paths : PathsIn known h) (fds : List Int) :
    PathsIn known (h.adoptSupervised fds).2.1 := by
  induction fds generalizing h with
  | nil => exact paths
  | cons fd rest ih =>
    rw [Holding.adoptSupervised]
    split
    · exact ih (paths.table (.close h.table fd))
    · exact ih ((paths.table (.setNonblocking h.table fd)).putListener (paths.addresses fd))

theorem listenAt (paths : PathsIn known h) {socket : Nat} {p : Path} (bound : known p) :
    PathsIn known (h.listenAt fd socket p) := by
  refine (paths.putOwn fd fun _ q target => ?_).putListener fun q path => ?_
  · have address : Endpoint.addressFor p = some q := (OpenFile.listener.inj target).2
    rw [Endpoint.addressFor] at address
    split at address
    · cases address
    · cases address
      exact bound
  · cases path
    exact bound

theorem welcome (paths : PathsIn known h) (id : Nat) : PathsIn known (h.welcome fd id) := by
  refine (paths.putOwn fd fun _ _ target => ?_).putClient fd _
  cases target

theorem mono {known' : Path → Prop} (paths : PathsIn known h) (more : ∀ p, known p → known' p) :
    PathsIn known' h :=
  ⟨fun fd l p found path => more p (paths.listeners fd l p found path),
    fun fd p found => more p (paths.addresses fd p found)⟩

end PathsIn

/-- Whether a path is text, was bound, or is the address of a descriptor that was there at first. -/
def Accounted (t : DescriptorTable) (bound : List Path) (p : Path) : Prop :=
  Utf8.isText p.bytes = true ∨ p ∈ bound ∨ ∃ fd, addressOf? t fd = some p

/-- All paths that a process has gathered are accounted for. -/
theorem Gathered.pathsIn {t : DescriptorTable} {bound : List Path} {h : Holding}
    (gathered : Gathered t bound h) : PathsIn (Accounted t bound) h := by
  induction gathered with
  | empty => exact ⟨nofun, fun fd p found => .inr (.inr ⟨fd, found⟩)⟩
  | bind fd _ created ih =>
    refine (ih.mono fun p accounted => ?_).listenAt (.inr (.inl List.mem_cons_self))
    exact accounted.imp_right (Or.imp_left (List.mem_cons_of_mem _))
  | supervise fds _ ih => exact ih.adoptSupervised fds
  | inherit _ read ih =>
    -- What is read from a text is text.
    have texts := Manifest.of_decode read
    exact ih.adoptEntries (fun e listed p path => .inl ((texts e listed).1 p path)) []
  | accept fd id _ ih => exact ih.welcome id
  | greet _ adopted ih =>
    rw [adoptClient] at adopted
    split at adopted
    · cases adopted
      exact ih
    · refine ih.adopt (fun _ path => ?_) adopted
      cases path
  | read fd lines _ ih => exact ⟨ih.listeners, ih.addresses⟩
  | drop fd _ ih => exact ih.eraseClient fd

/-! ## 3. Listing them -/

/-- The paths that a handoff lists. -/
def listedPaths (h : Holding) : List Path := h.handOff.1.channels.filterMap (·.path)

/-- They are those of the listeners whose descriptors are open. -/
theorem mem_listedPaths {h : Holding} {p : Path} : p ∈ h.listedPaths ↔
    ∃ fd l, h.set.listeners.get? fd = some l ∧ h.table.isOpen fd = true ∧ l.path = some p := by
  simp only [listedPaths, List.mem_filterMap, channels_handOff, keeps_eq_isOpen, List.mem_filter]
  constructor
  · rintro ⟨e, ⟨member, opened⟩, path⟩
    rcases List.mem_append.mp member with listener | client
    · obtain ⟨⟨fd, l⟩, entry, rfl⟩ := List.mem_map.mp listener
      exact ⟨fd, l, FdMap.mem_entries_iff.mp entry, opened, path⟩
    · obtain ⟨_, _, rfl⟩ := List.mem_map.mp client
      cases path
  · rintro ⟨fd, l, found, opened, path⟩
    exact ⟨_, ⟨mem_entries_listener found, opened⟩, path⟩

/-- The manifest of a handoff can be written if and only if the paths in it are text. -/
theorem encode_iff (h : Holding) : (∃ text, h.handOff.1.encode = .ok text) ↔
    ∀ p ∈ h.listedPaths, Utf8.isText p.bytes = true := by
  constructor
  · rintro ⟨text, written⟩ p listed
    obtain ⟨e, member, path⟩ := List.mem_filterMap.mp listed
    exact Manifest.writable_of_encode written e member p path
  · intro texts
    refine Manifest.encode_ok fun e member p path => ?_
    exact texts p (List.mem_filterMap.mpr ⟨e, member, path⟩)

end Holding

end Succession
