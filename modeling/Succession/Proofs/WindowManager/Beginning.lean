import Succession.Proofs.WindowManager.RequestFlow
import Succession.Session.Process

/-!
# How an image begins

An image that is born finds connections at its descriptors and bytes on them that nobody has read.
While it starts it adopts some of them and closes others, but it reads from none: when it runs, its
clients hold no partial line and the bytes are all still there (`begun_launch`).
-/

namespace Succession

open DescriptorTable

namespace Holding

/-- The holding has connections only where the table has them, and its clients hold nothing. -/
structure Opening (t : DescriptorTable) (h : Holding) : Prop where
  wires : h.table.Within t
  blank : ∀ fd c, h.set.clients.get? fd = some c → c.lines.pending = []

namespace Opening

variable {t t' : DescriptorTable} {h : Holding}

theorem empty (within : t'.Within t) : Opening t ⟨{}, t'⟩ := ⟨within, nofun⟩

theorem table (opening : Opening t h) (within : t'.Within h.table) : Opening t ⟨h.set, t'⟩ :=
  ⟨within.trans opening.wires, opening.blank⟩

theorem putListener (opening : Opening t h) (fd : Int) (l : Listener) :
    Opening t (h.putListener fd l) := by
  refine ⟨?_, opening.blank⟩
  rw [Holding.putListener]
  split
  · exact (Within.close _ fd).trans opening.wires
  · exact opening.wires

theorem putClient (opening : Opening t h) (fd : Int) (origin : Provenance) :
    Opening t (h.putClient fd ⟨origin, {}⟩) := by
  constructor
  · rw [Holding.putClient]
    split
    · exact (Within.close _ fd).trans opening.wires
    · exact opening.wires
  · intro other c found
    by_cases same : other = fd
    · rw [Holding.putClient, same, FdMap.get?_insert_self] at found
      cases found
      rfl
    · rw [Holding.putClient, FdMap.get?_insert_ne _ _ same] at found
      exact opening.blank other c found

theorem own (opening : Opening t h) (e : ManifestEntry) : Opening t (h.own e) := by
  have marked : ((h.table.setCloseOnExec e.fd true).toOption.getD h.table).Within h.table := by
    cases marking : h.table.setCloseOnExec e.fd true with
    | error cause => exact .refl _
    | ok t' => exact .setCloseOnExec marking
  have opening' := opening.table ((Within.setNonblocking _ e.fd).trans marked)
  rw [Holding.own]
  split
  · exact opening'.putListener e.fd _
  · exact opening'.putClient e.fd _

theorem adopt {h' : Holding} (opening : Opening t h) {e : ManifestEntry}
    (adopted : h.adopt e = .ok h') : Opening t h' := by
  rw [Holding.adopt] at adopted
  split at adopted
  · cases adopted
  · cases adopted
    exact opening.own e

theorem adoptEntries (opening : Opening t h) (seen : List Int) (entries : List ManifestEntry) :
    Opening t (Holding.adoptEntries seen h entries).2.1 := by
  induction entries generalizing seen h with
  | nil => exact opening
  | cons e rest ih =>
    rw [Holding.adoptEntries]
    split
    · exact ih opening _
    · split
      · next h' adopted => exact ih (opening.adopt adopted) _
      · exact ih opening _

theorem adoptSupervised (opening : Opening t h) (fds : List Int) :
    Opening t (h.adoptSupervised fds).2.1 := by
  induction fds generalizing h with
  | nil => exact opening
  | cons fd rest ih =>
    rw [Holding.adoptSupervised]
    split
    · exact ih (opening.table (.close _ fd))
    · exact ih ((opening.table (.setNonblocking _ fd)).putListener fd _)

end Opening

theorem partOf_receiveAnnounced (t : DescriptorTable) (fds : List Int) :
    (receiveAnnounced t fds).2.1.PartOf t := by
  induction fds generalizing t with
  | nil => exact .refl t
  | cons fd rest ih =>
    rw [receiveAnnounced]
    split
    · exact ih t
    · next t' marked => exact (ih t').trans (.setCloseOnExec marked)

theorem within_keepOpen (t : DescriptorTable) (entries : List ManifestEntry) :
    (keepOpen t entries).2.1.Within t := by
  induction entries generalizing t with
  | nil => exact .refl t
  | cons e rest ih =>
    rw [keepOpen]
    split
    · exact ih t
    · next t' marked => exact (ih t').trans (.setCloseOnExec marked)

end Holding

/-- How the connections stand that a fresh image finds: no two of its descriptors are the same
connection. An image leaves it so to the next (`WindowManager.flow_replaced`). -/
def Birth.IsWired (b : Birth) : Prop :=
  Wired b.host.callers b.host.connections b.table

namespace WindowManager

/-- The manager has begun: it has read nothing of what its connections have brought. -/
structure Begun (b : Birth) (m : WindowManager) : Prop where
  host : b.host.Alike m.host
  opening : m.holding.Opening b.table

namespace Begun

variable {b : Birth} {m m' : WindowManager}

theorem quiet (begun : Begun b m) (quiet : Quiet m m') : Begun b m' :=
  ⟨begun.host.trans quiet.host, quiet.holding ▸ begun.opening⟩

theorem adoptChannels (begun : Begun b m) (activation : List Int) (manifest : Option Manifest) :
    Begun b (m.adoptChannels activation manifest) :=
  ⟨begun.host, (begun.opening.adoptSupervised activation).adoptEntries [] _⟩

theorem openEndpoint (begun : Begun b m) : Begun b m.openEndpoint := by
  rw [WindowManager.openEndpoint]
  split
  · exact ⟨begun.host, begun.opening⟩
  · rcases Endpoint.create m.host.files m.wantedSocketPath with ⟨bound, files⟩
    have host : b.host.Alike { m.host with files := files } := begun.host.trans (.files _ _)
    cases bound with
    | error _ => exact ⟨host, begun.opening⟩
    | ok socket =>
      exact ⟨host, (begun.opening.table (.putOwn fun _ same => by cases same)).putListener _ _⟩

theorem publishEndpoint (begun : Begun b m) : Begun b m.publishEndpoint :=
  ⟨begun.host, begun.opening⟩

theorem enter (begun : Begun b m) (phase : Phase) : Begun b (m.enter phase) :=
  ⟨begun.host, begun.opening⟩

theorem restoreOrder (begun : Begun b m) (snapshot : Option Path) (delete : Bool) :
    Begun b (m.restoreOrder snapshot delete) :=
  ⟨begun.host.trans (.files _ _), begun.opening⟩

theorem tellRestarted (begun : Begun b m) (fd : Int) : Begun b (m.tellRestarted fd) := by
  rw [WindowManager.tellRestarted]
  split
  · exact begun
  · next h' adopted =>
    have opening : h'.Opening b.table := by
      rw [Holding.adoptClient] at adopted
      split at adopted
      · cases adopted
        exact begun.opening
      · exact begun.opening.adopt adopted
    exact Begun.quiet (m := { m with holding := h' }) ⟨begun.host, opening⟩ (.reply _ fd _)

theorem runCommand (begun : Begun b m) (command : String) : Begun b (m.runCommand command) := by
  rw [WindowManager.runCommand]
  split
  · exact begun
  · exact ⟨begun.host.trans (.files _ _), begun.opening⟩

theorem runCommands (begun : Begun b m) (commands : List String) :
    Begun b (commands.foldl WindowManager.runCommand m) := by
  induction commands generalizing m with
  | nil => exact begun
  | cons command rest ih => exact ih (begun.runCommand command)

theorem autostart (begun : Begun b m) : Begun b m.autostart := begun.runCommands _

theorem takeWindowsOver (begun : Begun b m) (taken : m.takeWindowsOver = .ok m') :
    Begun b m' := by
  rw [WindowManager.takeWindowsOver] at taken
  have same := clientSide_run (m.enter .reconcilingExistingWindows)
  split at taken
  · cases taken
  · next report done run =>
    cases taken
    rw [run] at same
    obtain ⟨host, holding⟩ := Prod.mk.inj same
    exact begun.quiet ⟨holding, host ▸ .refl _⟩

theorem settleIn (begun : Begun b m) {continuation : Option Int}
    (settled : m.settleIn continuation = .ok m') : Begun b m' := by
  have told : ∀ told, Begun b told →
      (events.beforeWait (told.autostart.enter .running)).unlessFailed = .ok m' → Begun b m' := by
    intro told begun settled
    cases eq_of_unlessFailed settled
    exact begun.autostart.quiet (.of_clientSide (clientSide_beforeWait _))
  cases continuation with
  | none => exact told m begun settled
  | some fd => exact told _ (begun.tellRestarted fd) settled

end Begun

theorem begun_initial {b : Birth} {host : Host} {table : DescriptorTable}
    (alike : b.host.Alike host) (within : table.Within b.table) (display : DisplayServer)
    (environment : Environment) (arguments : List Bytes) (options : Options) (log : Option Path)
    (d : OpenDisplay) :
    Begun b (initial ⟨host, table, display, environment, arguments⟩ options log d) :=
  ⟨alike, .empty within⟩

theorem alike_startLog (options : Options) (b : Birth) :
    b.host.Alike (startLog options b).2.host ∧ (startLog options b).2.table = b.table := by
  rw [startLog]
  dsimp only
  split
  · exact ⟨.refl _, rfl⟩
  · split
    · exact ⟨.files _ _, rfl⟩
    · exact ⟨.refl _, rfl⟩

theorem begun_start {b : Birth} {options : Options} {m : WindowManager}
    (started : start b options = .ok m) : Begun b m := by
  obtain ⟨host, table⟩ := alike_startLog options b
  unfold start at started
  -- Only what the log leaves alone matters from here on, not how it was opened.
  generalize startLog options b = logged at host table started
  obtain ⟨log, b'⟩ := logged
  have opened (announced : List Int) :
      (Holding.receiveAnnounced b'.table announced).2.1.Within b.table :=
    table ▸ .of_partOf (Holding.partOf_receiveAnnounced b'.table announced)
  simp only at started
  split at started
  · cases started
  · split at started
    · cases started
    · next taken took =>
      refine (Begun.takeWindowsOver (.restoreOrder (.enter (.publishEndpoint (.openEndpoint
        (.adoptChannels ?_ _ _))) _) _ _) took).settleIn started
      exact begun_initial host (opened _) _ _ _ _ _ _

/-- An image that runs after it was launched has begun. -/
theorem begun_launch {b : Birth} {m : WindowManager} (launched : Process.launch b = .running m) :
    Begun b m := by
  unfold Process.launch at launched
  split at launched
  · cases launched
  · split at launched
    · split at launched
      · cases launched
      · next started =>
        cases launched
        exact begun_start started
    · cases launched

theorem Begun.isWired {b : Birth} {m : WindowManager} (begun : Begun b m) (wired : b.IsWired) :
    m.IsWired := by
  rw [IsWired, callers_of_alike begun.host]
  exact wired.mono begun.host.ids begun.host.next begun.opening.wires

/-- Nothing has been read yet and no line dealt with. -/
theorem Begun.flow {b : Birth} {m : WindowManager} (begun : Begun b m) (id : Nat) :
    Flow id (b.host.connections.get id).inbox [] m :=
  ⟨[], (begun.host.inbox id).symm, rfl, nofun, fun fd c found _ => begun.opening.blank fd c found,
    fun _ => rfl⟩

end WindowManager

end Succession
