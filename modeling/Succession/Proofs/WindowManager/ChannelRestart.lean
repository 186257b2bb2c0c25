import Succession.Proofs.Channel.Handoff
import Succession.WindowManager.Startup

/-!
# No channel is lost in a restart

The laws of the handoff, said of the channels one by one, and what they mean for the next image: the
listener that served the wanted path still does, so no new one is bound
(`channels_survive_restarts`).
-/

namespace Succession

open Holding (adoptedOrigin)

theorem Listener.removesPath_inherited (l : Listener) :
    l.inherited.removesPath = l.removesPath := by
  obtain ⟨origin, path⟩ := l
  cases origin <;> rfl

namespace Channels

variable {s : Channels} {kept : Int → Bool}

/-- Whoever owns a descriptor has an entry for it. -/
theorem entry_of_owns {fd : Int} (owned : s.owns fd = true) : ∃ e ∈ s.entries, e.fd = fd := by
  rcases Bool.or_eq_true_iff.mp owned with listener | client
  · obtain ⟨l, found⟩ := Option.isSome_iff_exists.mp listener
    exact ⟨_, Holding.mem_entries_listener found, rfl⟩
  · obtain ⟨c, found⟩ := Option.isSome_iff_exists.mp client
    exact ⟨_, Holding.mem_entries_client found, rfl⟩

theorem serves_iff (p : Path) : s.serves p = true ↔
    ∃ fd l q, s.listeners.get? fd = some l ∧ l.path = some q ∧ q.same p = true := by
  rw [serves, List.any_eq_true]
  constructor
  · rintro ⟨l, member, serving⟩
    obtain ⟨⟨fd, l'⟩, entry, rfl⟩ := List.mem_map.mp member
    cases path : l'.path with
    | none => simp [path] at serving
    | some q =>
      rw [path] at serving
      exact ⟨fd, l', q, FdMap.mem_entries_iff.mp entry, path, serving⟩
  · rintro ⟨fd, l, q, found, path, same⟩
    refine ⟨l, List.mem_map.mpr ⟨(fd, l), FdMap.mem_entries_iff.mpr found, rfl⟩, ?_⟩
    rw [path]
    exact same

/-- A path that a kept listener serves is served by the next image. -/
theorem serves_inherited {p : Path} (all : ∀ e ∈ s.entries, kept e.fd = true)
    (serving : s.serves p = true) : (s.inherited kept).serves p = true := by
  obtain ⟨fd, l, q, found, path, same⟩ := (serves_iff p).mp serving
  have keep : kept fd = true := all _ (Holding.mem_entries_listener found)
  have stands : (s.inherited kept).listeners.get? fd = some l.inherited := by
    rw [inherited, FdMap.get?_map_filter, keep, found]
    rfl
  exact (serves_iff p).mpr ⟨fd, l.inherited, q, stands, path, same⟩

theorem size_inherited :
    (s.inherited kept).size = (s.entries.filter fun e => kept e.fd).length := by
  rw [Holding.filter_entries, List.length_append, List.length_map, List.length_map]
  simp only [size, inherited, FdMap.size, FdMap.map, List.length_map]

theorem length_entries : s.entries.length = s.size := by
  rw [entries, List.length_append, List.length_map, List.length_map]
  rfl

end Channels

/-- An image that wants the path that the one before served binds no listener of its own. -/
theorem WindowManager.openEndpoint_inherited {old m : WindowManager} {kept : Int → Bool}
    (set : m.holding.set = old.holding.set.inherited kept)
    (all : ∀ e ∈ old.holding.set.entries, kept e.fd = true)
    (settings : m.settings.socketPath = old.settings.socketPath)
    (environment : m.environment = old.environment) (pid : m.host.pid = old.host.pid)
    (serving : old.holding.set.serves old.wantedSocketPath = true) :
    m.openEndpoint = { m with socketPath := some old.wantedSocketPath } := by
  have same : m.wantedSocketPath = old.wantedSocketPath := by
    rw [wantedSocketPath, settings, environment, pid]
    rfl
  have served : m.holding.set.serves old.wantedSocketPath = true := by
    rw [set]
    exact Channels.serves_inherited all serving
  rw [openEndpoint]
  simp only [same, served, if_true]

/-- The manifest of a handoff lists the channels whose descriptors could be kept open, and no
others. However often the image is replaced, the next one has exactly those: each listener at its
descriptor with its path, each client at its descriptor, those from a supervisor still marked as
such. It has counted them all, and their descriptors are closed on the next replacement unless they
are handed over again. An image with the same settings, environment and number finds the listener
at the path it wants and binds no other. -/
theorem channels_survive_restarts {h : Holding} (sound : h.Sound) :
    h.handOff.1.channels = h.set.entries.filter (fun e => h.keeps e.fd) ∧
    ∀ n, ∃ count next, h.renewals n = .ok (count, next) ∧
      (∀ fd, next.set.listeners.get? fd = if h.keeps fd then
        (h.set.listeners.get? fd).map fun l => ⟨adoptedOrigin l.origin, l.path⟩ else none) ∧
      (∀ fd, next.set.clients.get? fd = if h.keeps fd then
        (h.set.clients.get? fd).map fun c => ⟨adoptedOrigin c.origin, {}⟩ else none) ∧
      (∀ fd l l', h.set.listeners.get? fd = some l → next.set.listeners.get? fd = some l' →
        l'.removesPath = l.removesPath) ∧
      (∀ fd, next.set.owns fd = true → ∃ d, h.table.get? fd = some d ∧
        next.table.get? fd = some { d with closeOnExec := true } ∧
          next.table.isNonblocking fd = true) ∧
      count = h.handOff.1.channels.length ∧
      ((∀ e ∈ h.set.entries, h.keeps e.fd = true) → count = h.set.size ∧
        ∀ old m : WindowManager, old.holding = h → m.holding = next →
          m.settings.socketPath = old.settings.socketPath → m.environment = old.environment →
          m.host.pid = old.host.pid → h.set.serves old.wantedSocketPath = true →
          m.openEndpoint = { m with socketPath := some old.wantedSocketPath }) := by
  refine ⟨Holding.channels_handOff h, fun n => ?_⟩
  obtain ⟨next, run, set, tables⟩ := Holding.renewals_ok sound n
  refine ⟨_, next, run, ?_, ?_, ?_, ?_, ?_, fun all => ⟨?_, ?_⟩⟩
  · intro fd
    rw [set]
    exact FdMap.get?_map_filter _ _ fd
  · intro fd
    rw [set]
    exact FdMap.get?_map_filter _ _ fd
  · intro fd l l' found found'
    rw [set, Channels.inherited, FdMap.get?_map_filter, found] at found'
    split at found'
    · cases found'
      exact l.removesPath_inherited
    · cases found'
  · intro fd owned
    rw [set] at owned
    obtain ⟨e, member, rfl⟩ := Channels.entry_of_owns owned
    obtain ⟨old, listed, kept, rfl⟩ := Holding.entry_of_inherited member
    obtain ⟨here, nonblocking⟩ := tables old listed kept
    rw [Holding.keeps_eq_isOpen] at kept
    obtain ⟨d, found⟩ := DescriptorTable.isOpen_iff.mp kept
    exact ⟨d, found, by rw [here, found]; rfl, nonblocking⟩
  · rw [Holding.channels_handOff, Channels.size_inherited]
  · rw [Channels.size_inherited, List.filter_eq_self.mpr all, Channels.length_entries]
  · rintro old m rfl rfl settings environment pid serving
    exact WindowManager.openEndpoint_inherited set all settings environment pid serving

/-- A listener at 3 and a client at 5, replaced twice. -/
theorem channels_survive_restarts_of_two :
    let h : Holding :=
      ⟨⟨FdMap.insert {} 3 ⟨.localBind, some (Path.ofString "/s")⟩,
          FdMap.insert {} 5 ⟨.localBind, {}⟩⟩,
        ⟨(FdMap.insert {} 3 ⟨.listener 0 none, true⟩).insert 5 ⟨.stream 0, true⟩, []⟩⟩
    h.Sound ∧ ∃ next, h.renewals 1 = .ok (2, next) ∧
      next.set.listeners.get? 3 = some ⟨.inherited, some (Path.ofString "/s")⟩ ∧
      next.set.clients.get? 5 = some ⟨.inherited, {}⟩ := by
  intro h
  have entries : h.set.entries = [⟨3, .listener, .localBind, some (Path.ofString "/s")⟩,
      ⟨5, .client, .localBind, none⟩] := rfl
  have sound : h.Sound := by
    constructor
    · rw [entries]
      decide
    · rw [entries]
      decide
    · rw [entries]
      decide
  obtain ⟨_, all⟩ := channels_survive_restarts sound
  obtain ⟨count, next, run, listeners, clients, _, _, counted, _⟩ := all 1
  have two : count = 2 := counted.trans (by decide)
  refine ⟨sound, next, two ▸ run, ?_, ?_⟩
  · rw [listeners]
    decide
  · rw [clients]
    decide

end Succession
