import Succession.Channel.Set
import Succession.Proofs.Channel.ManifestRoundTrip
import Succession.Proofs.Descriptor.TableLaws

/-!
# Channels survive a restart

A restart as the channels see it (`Holding.renew`): their descriptors are kept open and listed, the
image is replaced, and the next image reads the list and adopts what it names.

* What is listed are the channels that can be kept open, in order (`keepOpen_spec`).
* What is listed is adopted whole (`adoptEntries_spec`), since no descriptor is listed twice and
  each still has its role.
-/

namespace Succession

/-- A descriptor that was adopted. -/
def Descriptor.adopted (d : Descriptor) : Descriptor :=
  { d with closeOnExec := true }

/-- A listener as the next image has it. -/
def Listener.inherited (l : Listener) : Listener := ⟨Holding.adoptedOrigin l.origin, l.path⟩

/-- A client as the next image has it. -/
def Client.inherited (c : Client) : Client := ⟨Holding.adoptedOrigin c.origin, {}⟩

/-- The channels as the next image has them, of those that were kept. -/
def Channels.inherited (s : Channels) (kept : Int → Bool) : Channels where
  listeners := (s.listeners.filter fun fd _ => kept fd).map fun _ => Listener.inherited
  clients := (s.clients.filter fun fd _ => kept fd).map fun _ => Client.inherited

namespace Holding

/-- Whether a descriptor can be kept open when the image is replaced. -/
def keeps (h : Holding) (fd : Int) : Bool := (h.table.setCloseOnExec fd false).toBool

/-- What the next image makes of the channels, and how many it adopts. -/
def renew (h : Holding) : Except Fault (Nat × Holding) := do
  let (manifest, kept, _) := h.handOff
  let inherited ← Manifest.decode (← manifest.encode)
  let (count, next, _) := kept.afterExec.adoptAll inherited
  return (count, next)

/-- What the image after `n` more restarts makes of the channels, and how many it adopts. -/
def renewals : Nat → Holding → Except Fault (Nat × Holding)
  | 0, h => h.renew
  | n + 1, h => do (← h.renew).2.renewals n

/-- What is promised of the channels of a process: the descriptors are numbers from zero on, those
that are open have the role they are listed with, and the paths are text. -/
structure Sound (h : Holding) : Prop where
  numbers : ∀ e ∈ h.set.entries, 0 ≤ e.fd ∧ e.InRange
  roles : ∀ e ∈ h.set.entries, ∀ d ∈ h.table.get? e.fd,
    d.target.isSocket = true ∧ d.target.isListening = decide (e.role = .listener)
  texts : ∀ e ∈ h.set.entries, e.IsWritable

/-! ## 1. Handing off -/

theorem keeps_eq_isOpen (h : Holding) (fd : Int) : h.keeps fd = h.table.isOpen fd := by
  rw [keeps, DescriptorTable.isOpen]
  cases found : h.table.get? fd with
  | none => rw [DescriptorTable.setCloseOnExec_of_none found]; rfl
  | some d => rw [DescriptorTable.setCloseOnExec_of_get? found]; rfl

/-- The entries that are kept are those whose descriptors are open, and those stay open. -/
theorem keepOpen_spec (table : DescriptorTable) (entries : List ManifestEntry) :
    (keepOpen table entries).1 = entries.filter (fun e => table.isOpen e.fd) ∧
    ∀ fd, (keepOpen table entries).2.1.get? fd =
      if fd ∈ entries.map (·.fd) then (table.get? fd).map fun d => { d with closeOnExec := false }
      else table.get? fd := by
  induction entries generalizing table with
  | nil => exact ⟨rfl, fun _ => rfl⟩
  | cons e rest ih =>
    rw [keepOpen]
    cases found : table.get? e.fd with
    | none =>
      have closed : table.isOpen e.fd = false := by rw [DescriptorTable.isOpen, found]; rfl
      obtain ⟨kept, tables⟩ := ih table
      simp only [DescriptorTable.setCloseOnExec_of_none found]
      refine ⟨?_, fun fd => ?_⟩
      · rw [List.filter_cons_of_neg (by simp [closed]), ← kept]
      · rw [tables]
        by_cases same : fd = e.fd
        · subst same
          simp [found]
        · simp [same]
    | some d =>
      have opened : table.isOpen e.fd = true := by rw [DescriptorTable.isOpen, found]; rfl
      obtain ⟨kept, tables⟩ := ih (table.put e.fd { d with closeOnExec := false })
      simp only [DescriptorTable.setCloseOnExec_of_get? found]
      refine ⟨?_, fun fd => ?_⟩
      · simp only [List.filter_cons, opened, if_true, kept, DescriptorTable.isOpen_put found]
      · rw [tables]
        by_cases same : fd = e.fd
        · subst same
          simp [found, DescriptorTable.get?_put_self]
        · simp [same, DescriptorTable.get?_put_ne _ _ same]

/-- The manifest of a handoff lists the channels that are kept, and no others. -/
theorem channels_handOff (h : Holding) :
    h.handOff.1.channels = h.set.entries.filter fun e => h.keeps e.fd := by
  simp only [keeps_eq_isOpen]
  exact (keepOpen_spec h.table h.set.entries).1

/-- What stands at a descriptor of a channel when the next image begins. -/
theorem get?_handOff {h : Holding} {e : ManifestEntry} (member : e ∈ h.set.entries) :
    h.handOff.2.1.afterExec.table.get? e.fd =
      (h.table.get? e.fd).map fun d => { d with closeOnExec := false } := by
  have listed : e.fd ∈ h.set.entries.map (·.fd) := List.mem_map_of_mem member
  refine (DescriptorTable.get?_afterExec _ _).trans ?_
  refine (congrArg (Option.filter _) ((keepOpen_spec h.table h.set.entries).2 e.fd)).trans ?_
  rw [if_pos listed]
  cases h.table.get? e.fd <;> rfl

/-! ## 2. Adopting -/

theorem entryProblem?_congr {t t' : DescriptorTable} {e : ManifestEntry}
    (same : t.get? e.fd = t'.get? e.fd) : entryProblem? t e = entryProblem? t' e := by
  unfold entryProblem? roleProblem? DescriptorTable.isOpen
  rw [same]

theorem get?_of_entryProblem? {t : DescriptorTable} {e : ManifestEntry}
    (none : entryProblem? t e = none) : ∃ d, t.get? e.fd = some d := by
  unfold entryProblem? at none
  split at none
  · cases none
  · split at none
    · cases none
    · next opened => exact DescriptorTable.isOpen_iff.mp (by simpa using opened)

/-- What becomes of the channels when an entry is adopted whose descriptor is not owned. -/
theorem own_spec {h : Holding} {e : ManifestEntry} {d : Descriptor}
    (fresh : h.set.owns e.fd = false) (found : h.table.get? e.fd = some d) :
    (h.own e).set.listeners = (if e.role = .listener then
      h.set.listeners.insert e.fd ⟨adoptedOrigin e.origin, e.path⟩ else h.set.listeners) ∧
    (h.own e).set.clients = (if e.role = .client then
      h.set.clients.insert e.fd ⟨adoptedOrigin e.origin, {}⟩ else h.set.clients) ∧
    (h.own e).table.get? e.fd = some d.adopted ∧
    (∀ fd ≠ e.fd, (h.own e).table.get? fd = h.table.get? fd) ∧
    ∀ file, file ∈ (h.own e).table.nonblocking ↔
      file ∈ h.table.nonblocking ∨ h.table.Opens e.fd file := by
  rw [Channels.owns, Bool.or_eq_false_iff] at fresh
  have marked : (h.table.setCloseOnExec e.fd true).toOption.getD h.table =
      h.table.put e.fd { d with closeOnExec := true } := by
    rw [DescriptorTable.setCloseOnExec_of_get? found]
    rfl
  let table := (h.table.put e.fd { d with closeOnExec := true }).setNonblocking e.fd
  have here : table.get? e.fd = some d.adopted := by
    rw [DescriptorTable.get?_setNonblocking, DescriptorTable.get?_put_self]
    rfl
  have elsewhere : ∀ fd ≠ e.fd, table.get? fd = h.table.get? fd := fun fd differs => by
    rw [DescriptorTable.get?_setNonblocking, DescriptorTable.get?_put_ne _ _ differs]
  have nonblocking : ∀ file, file ∈ table.nonblocking ↔
      file ∈ h.table.nonblocking ∨ h.table.Opens e.fd file := fun file => by
    rw [DescriptorTable.mem_setNonblocking, DescriptorTable.Opens, DescriptorTable.Opens,
      DescriptorTable.get?_put_self, found]
    simp only [Option.some.injEq, exists_eq_left', DescriptorTable.put]
  cases role : e.role with
  | listener =>
    simp only [own, role, marked, putListener, fresh.1]
    exact ⟨rfl, rfl, here, elsewhere, nonblocking⟩
  | client =>
    simp only [own, role, marked, putClient, fresh.2]
    exact ⟨rfl, rfl, here, elsewhere, nonblocking⟩

theorem owns_own {h : Holding} {e : ManifestEntry} {d : Descriptor}
    (fresh : h.set.owns e.fd = false) (found : h.table.get? e.fd = some d) {fd : Int}
    (differs : fd ≠ e.fd) : (h.own e).set.owns fd = h.set.owns fd := by
  obtain ⟨listeners, clients, _⟩ := own_spec fresh found
  rw [Channels.owns, Channels.owns, listeners, clients]
  cases e.role <;> simp [FdMap.contains_insert, differs]

/-- Entries of different descriptors that have no problem are all adopted, in order. -/
theorem adoptEntries_spec {entries : List ManifestEntry} {seen : List Int} {h : Holding}
    (distinct : entries.Pairwise fun a b => a.fd ≠ b.fd)
    (fresh : ∀ e ∈ entries, e.fd ∉ seen ∧ h.set.owns e.fd = false)
    (sound : ∀ e ∈ entries, entryProblem? h.table e = none) :
    let (count, next, _) := adoptEntries seen h entries
    count = entries.length ∧
    next.set.listeners = (entries.filter fun e => e.role = .listener).foldl
      (fun m e => m.insert e.fd ⟨adoptedOrigin e.origin, e.path⟩) h.set.listeners ∧
    next.set.clients = (entries.filter fun e => e.role = .client).foldl
      (fun m e => m.insert e.fd ⟨adoptedOrigin e.origin, {}⟩) h.set.clients ∧
    (∀ fd, next.table.get? fd =
      if fd ∈ entries.map (·.fd) then (h.table.get? fd).map Descriptor.adopted
      else h.table.get? fd) ∧
    ∀ file, file ∈ next.table.nonblocking ↔
      file ∈ h.table.nonblocking ∨ ∃ e ∈ entries, h.table.Opens e.fd file := by
  induction entries generalizing seen h with
  | nil => exact ⟨rfl, rfl, rfl, fun _ => rfl, by simp⟩
  | cons e rest ih =>
    obtain ⟨apart, later⟩ := List.pairwise_cons.mp distinct
    obtain ⟨unseen, unowned⟩ := fresh e List.mem_cons_self
    have none := sound e List.mem_cons_self
    obtain ⟨d, found⟩ := get?_of_entryProblem? none
    obtain ⟨listeners, clients, here, elsewhere, nonblocking⟩ := own_spec unowned found
    have adopted : h.adopt e = .ok (h.own e) := by rw [adopt, none]
    have others : ∀ other ∈ rest, other.fd ≠ e.fd := fun other member => (apart other member).symm
    have stillFresh : ∀ other ∈ rest,
        other.fd ∉ e.fd :: seen ∧ (h.own e).set.owns other.fd = false := fun other member => by
      obtain ⟨unseen, unowned'⟩ := fresh other (List.mem_cons_of_mem _ member)
      rw [owns_own unowned found (others other member)]
      exact ⟨by simp [others other member, unseen], unowned'⟩
    have stillSound : ∀ other ∈ rest, entryProblem? (h.own e).table other = .none :=
      fun other member => by
        rw [entryProblem?_congr (elsewhere _ (others other member))]
        exact sound other (List.mem_cons_of_mem _ member)
    have notLater : e.fd ∉ rest.map (·.fd) := fun member => by
      obtain ⟨other, listed, same⟩ := List.mem_map.mp member
      exact others other listed same
    have run := ih later stillFresh stillSound
    rw [adoptEntries, if_neg (by simp [unseen, unowned]), adopted]
    simp only at run ⊢
    obtain ⟨count, listeners', clients', tables, nonblocking'⟩ := run
    refine ⟨by rw [count, List.length_cons], ?_, ?_, fun fd => ?_, fun file => ?_⟩
    · rw [listeners', listeners]
      cases role : e.role <;> simp [role]
    · rw [clients', clients]
      cases role : e.role <;> simp [role]
    · rw [tables]
      by_cases same : fd = e.fd
      · subst same
        simp [notLater, here, found]
      · simp [same, elsewhere fd same]
    · have later : (∃ other ∈ rest, (h.own e).table.Opens other.fd file) ↔
          ∃ other ∈ rest, h.table.Opens other.fd file :=
        exists_congr fun other => and_congr_right fun member =>
          DescriptorTable.opens_congr (elsewhere _ (others other member)) file
      rw [nonblocking', nonblocking, later, or_assoc]
      simp only [List.mem_cons, exists_eq_or_imp]

/-! ## 3. One restart -/

/-- The entry of a listener. -/
def listenerEntry (e : Int × Listener) : ManifestEntry := ⟨e.1, .listener, e.2.origin, e.2.path⟩

/-- The entry of a client. -/
def clientEntry (e : Int × Client) : ManifestEntry := ⟨e.1, .client, e.2.origin, none⟩

theorem entries_eq (s : Channels) :
    s.entries = s.listeners.entries.map listenerEntry ++ s.clients.entries.map clientEntry := rfl

theorem filter_entries (s : Channels) (kept : Int → Bool) :
    s.entries.filter (fun e => kept e.fd) =
      (s.listeners.filter fun fd _ => kept fd).entries.map listenerEntry ++
        (s.clients.filter fun fd _ => kept fd).entries.map clientEntry := by
  rw [entries_eq, List.filter_append, List.filter_map, List.filter_map]
  rfl

/-- The entries of listeners and clients that have a role. -/
def entriesOf (l : FdMap Listener) (c : FdMap Client) : Role → List ManifestEntry
  | .listener => l.entries.map listenerEntry
  | .client => c.entries.map clientEntry

/-- An entry has the role of what it lists. -/
theorem filter_role (l : FdMap Listener) (c : FdMap Client) (role : Role) :
    (l.entries.map listenerEntry ++ c.entries.map clientEntry).filter (fun e => e.role = role) =
      entriesOf l c role := by
  rw [List.filter_append, List.filter_map, List.filter_map]
  cases role <;> simp [entriesOf, Function.comp_def, listenerEntry, clientEntry]

/-- A descriptor that is kept belongs to one channel only. -/
theorem distinct_kept {h : Holding} (sound : h.Sound) :
    (h.set.entries.filter fun e => h.keeps e.fd).Pairwise fun a b => a.fd ≠ b.fd := by
  have apart {α : Type} (m : FdMap α) : m.entries.Pairwise fun a b => a.1 ≠ b.1 :=
    m.ordered.imp fun below => Int.ne_of_lt below
  rw [entries_eq, List.filter_append]
  refine List.pairwise_append.mpr ⟨.filter _ (List.pairwise_map.mpr (apart _)),
    .filter _ (List.pairwise_map.mpr (apart _)), fun a inListeners b inClients same => ?_⟩
  obtain ⟨listed, kept⟩ := List.mem_filter.mp inListeners
  obtain ⟨listed', _⟩ := List.mem_filter.mp inClients
  rw [keeps_eq_isOpen] at kept
  obtain ⟨d, found⟩ := DescriptorTable.isOpen_iff.mp kept
  have listening := (sound.roles a (List.mem_append_left _ listed) d found).2
  have silent := (sound.roles b (List.mem_append_right _ listed') d (same ▸ found)).2
  -- A listener and a client at one descriptor would be a socket that listens and does not.
  obtain ⟨l, _, rfl⟩ := List.mem_map.mp listed
  obtain ⟨c, _, rfl⟩ := List.mem_map.mp listed'
  rw [listening] at silent
  cases silent

/-- The next image has nothing to say against a descriptor that was kept. -/
theorem entryProblem?_kept {h : Holding} (sound : h.Sound) {e : ManifestEntry}
    (member : e ∈ h.set.entries) (kept : h.keeps e.fd = true) :
    entryProblem? h.handOff.2.1.afterExec.table e = none := by
  rw [keeps_eq_isOpen] at kept
  obtain ⟨d, found⟩ := DescriptorTable.isOpen_iff.mp kept
  have here : h.handOff.2.1.afterExec.table.get? e.fd = some { d with closeOnExec := false } := by
    rw [get?_handOff member, found]
    rfl
  obtain ⟨socket, listening⟩ := sound.roles e member d found
  have opened : h.handOff.2.1.afterExec.table.isOpen e.fd = true := by
    rw [DescriptorTable.isOpen, here]
    rfl
  rw [entryProblem?, if_neg (Int.not_lt.mpr (sound.numbers e member).1), if_neg (by simp [opened])]
  simp only [roleProblem?, here, socket, listening]
  cases e.role <;> rfl

theorem kept_of_listed {h : Holding} {e : ManifestEntry} (listed : e ∈ h.handOff.1.channels) :
    e ∈ h.set.entries ∧ h.keeps e.fd = true := by
  rw [channels_handOff] at listed
  exact List.mem_filter.mp listed

/-- The manifest of a handoff is written and read back as it was. -/
theorem decode_handOff {h : Holding} (sound : h.Sound) : ∃ text,
    h.handOff.1.encode = .ok text ∧ Manifest.decode text = .ok h.handOff.1 := by
  have writable := fun e listed => sound.texts e (kept_of_listed listed).1
  have inRange := fun e listed => (sound.numbers e (kept_of_listed listed).1).2
  obtain ⟨text, written⟩ := Manifest.encode_ok writable
  exact ⟨text, written, Manifest.decode_encode writable inRange written⟩

/-- What the next image makes of the entries of a handoff. -/
theorem adoptEntries_handOff {h : Holding} (sound : h.Sound) :
    let (count, next, _) := adoptEntries [] h.handOff.2.1.afterExec h.handOff.1.channels
    count = (h.set.inherited h.keeps).size ∧ next.set = h.set.inherited h.keeps ∧
    ∀ e ∈ h.set.entries, h.keeps e.fd = true →
      next.table.get? e.fd = (h.table.get? e.fd).map Descriptor.adopted ∧
        next.table.isNonblocking e.fd = true := by
  have distinct := distinct_kept sound
  rw [← channels_handOff] at distinct
  have spec := adoptEntries_spec distinct (fun _ _ => ⟨List.not_mem_nil, rfl⟩)
    fun e listed => entryProblem?_kept sound (kept_of_listed listed).1 (kept_of_listed listed).2
  rcases adopted : adoptEntries [] h.handOff.2.1.afterExec h.handOff.1.channels with
    ⟨count, next, notices⟩
  rw [adopted] at spec
  obtain ⟨counted, listeners, clients, tables, nonblocking⟩ := spec
  rw [channels_handOff, filter_entries, filter_role, entriesOf, List.foldl_map] at listeners
  rw [channels_handOff, filter_entries, filter_role, entriesOf, List.foldl_map] at clients
  rw [channels_handOff, filter_entries, List.length_append, List.length_map,
    List.length_map] at counted
  have sameListeners := listeners.trans (FdMap.foldl_insert (fun _ => Listener.inherited)
    (h.set.listeners.filter fun fd _ => h.keeps fd))
  have sameClients := clients.trans (FdMap.foldl_insert (fun _ => Client.inherited)
    (h.set.clients.filter fun fd _ => h.keeps fd))
  refine ⟨?_, ?_, fun e member kept => ?_⟩
  · rw [counted]
    simp only [Channels.size, Channels.inherited, FdMap.size, FdMap.map, List.length_map]
  · rw [Channels.inherited, ← sameListeners, ← sameClients]
  · have listed : e.fd ∈ h.handOff.1.channels.map (·.fd) := by
      rw [channels_handOff]
      exact List.mem_map_of_mem (List.mem_filter.mpr ⟨member, kept⟩)
    have here : next.table.get? e.fd = (h.table.get? e.fd).map Descriptor.adopted := by
      rw [tables, if_pos listed, get?_handOff member, Option.map_map]
      rfl
    rw [keeps_eq_isOpen] at kept
    obtain ⟨d, found⟩ := DescriptorTable.isOpen_iff.mp kept
    obtain ⟨entry, among, same⟩ := List.mem_map.mp listed
    have before : h.handOff.2.1.afterExec.table.Opens e.fd d.target :=
      ⟨{ d with closeOnExec := false }, by rw [get?_handOff member, found]; rfl, rfl⟩
    have after : next.table.Opens e.fd d.target := ⟨d.adopted, by rw [here, found]; rfl, rfl⟩
    exact ⟨here, DescriptorTable.isNonblocking_iff.mpr ⟨d.target, after,
      (nonblocking d.target).mpr (.inr ⟨entry, among, same ▸ before⟩)⟩⟩

/-- The next image has the channels that were kept, and has marked their descriptors again. -/
theorem renew_ok {h : Holding} (sound : h.Sound) : ∃ next,
    h.renew = .ok ((h.set.inherited h.keeps).size, next) ∧
    next.set = h.set.inherited h.keeps ∧
    ∀ e ∈ h.set.entries, h.keeps e.fd = true →
      next.table.get? e.fd = (h.table.get? e.fd).map Descriptor.adopted ∧
        next.table.isNonblocking e.fd = true := by
  obtain ⟨text, written, read⟩ := decode_handOff sound
  have spec := adoptEntries_handOff sound
  rcases adopted : adoptEntries [] h.handOff.2.1.afterExec h.handOff.1.channels with
    ⟨count, next, notices⟩
  rw [adopted] at spec
  obtain ⟨counted, set, tables⟩ := spec
  refine ⟨next, ?_, set, tables⟩
  rw [← counted]
  unfold renew
  rcases handed : h.handOff with ⟨manifest, kept, _⟩
  rw [handed] at written read adopted
  simp only [bind, Except.bind, written, read, adoptAll, adopted]
  rfl

/-! ## 4. Any number of restarts -/

theorem mem_entries_listener {s : Channels} {fd : Int} {l : Listener}
    (found : s.listeners.get? fd = some l) : listenerEntry (fd, l) ∈ s.entries :=
  List.mem_append_left _ (List.mem_map_of_mem (FdMap.mem_entries_iff.mpr found))

theorem mem_entries_client {s : Channels} {fd : Int} {c : Client}
    (found : s.clients.get? fd = some c) : clientEntry (fd, c) ∈ s.entries :=
  List.mem_append_right _ (List.mem_map_of_mem (FdMap.mem_entries_iff.mpr found))

/-- What the next image has it has from an entry that was kept. -/
theorem entry_of_inherited {s : Channels} {kept : Int → Bool} {e : ManifestEntry}
    (member : e ∈ (s.inherited kept).entries) :
    ∃ old ∈ s.entries, kept old.fd = true ∧
      e = { old with origin := adoptedOrigin old.origin } := by
  rcases List.mem_append.mp member with member | member
  · obtain ⟨⟨fd, l⟩, listed, rfl⟩ := List.mem_map.mp member
    obtain ⟨⟨fd', l'⟩, there, same⟩ := List.mem_map.mp listed
    cases same
    obtain ⟨there, kept⟩ := List.mem_filter.mp there
    exact ⟨_, mem_entries_listener (FdMap.mem_entries_iff.mp there), kept, rfl⟩
  · obtain ⟨⟨fd, c⟩, listed, rfl⟩ := List.mem_map.mp member
    obtain ⟨⟨fd', c'⟩, there, same⟩ := List.mem_map.mp listed
    cases same
    obtain ⟨there, kept⟩ := List.mem_filter.mp there
    exact ⟨_, mem_entries_client (FdMap.mem_entries_iff.mp there), kept, rfl⟩

theorem adoptedOrigin_adoptedOrigin (origin : Provenance) :
    adoptedOrigin (adoptedOrigin origin) = adoptedOrigin origin := by
  cases origin <;> rfl

/-- Channels that were inherited are inherited again as they are. -/
theorem inherited_inherited (s : Channels) {kept again : Int → Bool}
    (all : ∀ e ∈ (s.inherited kept).entries, again e.fd = true) :
    (s.inherited kept).inherited again = s.inherited kept := by
  have listeners : (s.inherited kept).listeners.filter (fun fd _ => again fd) =
      (s.inherited kept).listeners := FdMap.filter_eq_self fun e member =>
    all (listenerEntry e) (List.mem_append_left _ (List.mem_map_of_mem member))
  have clients : (s.inherited kept).clients.filter (fun fd _ => again fd) =
      (s.inherited kept).clients := FdMap.filter_eq_self fun e member =>
    all (clientEntry e) (List.mem_append_right _ (List.mem_map_of_mem member))
  have twice (l : Listener) : l.inherited.inherited = l.inherited := by
    simp only [Listener.inherited, adoptedOrigin_adoptedOrigin]
  have twice' (c : Client) : c.inherited.inherited = c.inherited := by
    simp only [Client.inherited, adoptedOrigin_adoptedOrigin]
  have listeners' : (s.inherited kept).listeners.map (fun _ => Listener.inherited) =
      (s.inherited kept).listeners := FdMap.map_map_self _ _ twice
  have clients' : (s.inherited kept).clients.map (fun _ => Client.inherited) =
      (s.inherited kept).clients := FdMap.map_map_self _ _ twice'
  rw [Channels.inherited, listeners, clients, listeners', clients']

theorem inherited_of_entry {s : Channels} {kept : Int → Bool} {e : ManifestEntry}
    (member : e ∈ s.entries) (keep : kept e.fd = true) :
    { e with origin := adoptedOrigin e.origin } ∈ (s.inherited kept).entries := by
  rcases List.mem_append.mp member with member | member
  · obtain ⟨l, listed, rfl⟩ := List.mem_map.mp member
    exact List.mem_append_left _ (List.mem_map.mpr ⟨(l.1, l.2.inherited),
      List.mem_map.mpr ⟨l, List.mem_filter.mpr ⟨listed, keep⟩, rfl⟩, rfl⟩)
  · obtain ⟨c, listed, rfl⟩ := List.mem_map.mp member
    exact List.mem_append_right _ (List.mem_map.mpr ⟨(c.1, c.2.inherited),
      List.mem_map.mpr ⟨c, List.mem_filter.mpr ⟨listed, keep⟩, rfl⟩, rfl⟩)

/-- The next image is ready for another restart, and keeps all its channels then. -/
theorem sound_of_inherited {h next : Holding} (sound : h.Sound)
    (set : next.set = h.set.inherited h.keeps)
    (tables : ∀ e ∈ h.set.entries, h.keeps e.fd = true →
      next.table.get? e.fd = (h.table.get? e.fd).map Descriptor.adopted) :
    next.Sound ∧ ∀ e ∈ next.set.entries, next.keeps e.fd = true := by
  rw [set]
  refine ⟨⟨fun e member => ?_, fun e member d found => ?_, fun e member => ?_⟩, fun e member => ?_⟩
  all_goals
    rw [set] at *
    obtain ⟨old, listed, kept, rfl⟩ := entry_of_inherited member
  · exact sound.numbers old listed
  · rw [tables old listed kept] at found
    obtain ⟨d', found', rfl⟩ := Option.map_eq_some_iff.mp found
    exact sound.roles old listed d' found'
  · exact sound.texts old listed
  · have here := tables old listed kept
    rw [keeps_eq_isOpen] at kept ⊢
    obtain ⟨d, found⟩ := DescriptorTable.isOpen_iff.mp kept
    rw [found] at here
    exact DescriptorTable.isOpen_iff.mpr ⟨_, here⟩

/-- However often the image is replaced, it has the channels that the first handoff kept. -/
theorem renewals_ok {h : Holding} (sound : h.Sound) (n : Nat) : ∃ next,
    h.renewals n = .ok ((h.set.inherited h.keeps).size, next) ∧
    next.set = h.set.inherited h.keeps ∧
    ∀ e ∈ h.set.entries, h.keeps e.fd = true →
      next.table.get? e.fd = (h.table.get? e.fd).map Descriptor.adopted ∧
        next.table.isNonblocking e.fd = true := by
  induction n generalizing h with
  | zero => exact renew_ok sound
  | succ n ih =>
    obtain ⟨first, renewed, set, tables⟩ := renew_ok sound
    obtain ⟨sound', all⟩ := sound_of_inherited sound set fun e member kept => (tables e member kept).1
    obtain ⟨next, run, set', tables'⟩ := ih sound'
    have onward : ∀ e ∈ h.set.entries, h.keeps e.fd = true →
        next.table.get? e.fd = (first.table.get? e.fd).map Descriptor.adopted ∧
          next.table.isNonblocking e.fd = true := by
      intro e member kept
      have inherited := inherited_of_entry member kept
      rw [← set] at inherited
      exact tables' { e with origin := adoptedOrigin e.origin } inherited (all _ inherited)
    rw [set] at all
    -- From the first replacement on all descriptors are kept, and the channels stay as they are.
    have same := inherited_inherited h.set all
    rw [set, same] at run set'
    refine ⟨next, ?_, set', fun e member kept => ?_⟩
    · rw [renewals, renewed]
      exact run
    · obtain ⟨here, nonblocking⟩ := onward e member kept
      refine ⟨?_, nonblocking⟩
      rw [here, (tables e member kept).1, Option.map_map]
      rfl

end Holding

end Succession
