import Succession.Proofs.WindowManager.Beginning
import Succession.Proofs.WindowManager.Replacement

/-!
# A listener's path can rule a restart out

A manager gathers its channels when it starts and in each round of its loop (`gathered_start`,
`gathered_round`). Whatever it has gathered, it can be replaced exactly if the paths of its open
listeners are text, and a path that is none it has bound itself or taken over from a supervisor
(`restart_goes_through_iff`).
-/

namespace Succession

open Holding (Gathered Accounted)

namespace WindowManager

variable {t : DescriptorTable} {bound : List Path} {m m' : WindowManager}

/-! ## 1. When the manager starts -/

theorem gathered_adoptChannels (gathered : Gathered t bound m.holding) (activation : List Int)
    {manifest : Option Manifest}
    (read : ∀ listed ∈ manifest, ∃ raw, Manifest.decode raw = .ok listed) :
    Gathered t bound (m.adoptChannels activation manifest).holding := by
  have supervised := gathered.supervise activation
  cases manifest with
  | none => exact supervised
  | some listed =>
    obtain ⟨raw, read⟩ := read listed rfl
    exact supervised.inherit read

theorem gathered_openEndpoint (gathered : Gathered t bound m.holding) :
    ∃ bound', Gathered t bound' m.openEndpoint.holding := by
  rw [openEndpoint]
  split
  · exact ⟨bound, gathered⟩
  · rcases created : Endpoint.create m.host.files m.wantedSocketPath with ⟨made, files⟩
    cases made with
    | error _ => exact ⟨bound, gathered⟩
    | ok socket => exact ⟨_, gathered.bind (freshNumber m.holding.table) created⟩

theorem holding_reply (m : WindowManager) (fd : Int) (text : String) :
    (m.reply fd text).holding = m.holding := (Quiet.reply m fd text).holding

theorem gathered_tellRestarted (gathered : Gathered t bound m.holding) (fd : Int) :
    Gathered t bound (m.tellRestarted fd).holding := by
  rw [tellRestarted]
  split
  · exact gathered
  · next holding adopted =>
    rw [holding_reply]
    exact gathered.greet adopted

theorem holding_takeWindowsOver (taken : m.takeWindowsOver = .ok m') : m'.holding = m.holding := by
  rw [takeWindowsOver] at taken
  have same := clientSide_run (m.enter .reconcilingExistingWindows)
  split at taken
  · cases taken
  · next report done run =>
    cases taken
    rw [run] at same
    exact (Prod.mk.inj same).2

theorem holding_runCommands (m : WindowManager) (commands : List String) :
    (commands.foldl runCommand m).holding = m.holding := by
  induction commands generalizing m with
  | nil => rfl
  | cons command rest ih =>
    rw [List.foldl_cons, ih, runCommand]
    split <;> rfl

theorem holding_beforeWait (m : WindowManager) : (events.beforeWait m).holding = m.holding :=
  (Prod.mk.inj (clientSide_beforeWait m)).2

theorem gathered_settleIn (gathered : Gathered t bound m.holding) {continuation : Option Int}
    (settled : m.settleIn continuation = .ok m') : Gathered t bound m'.holding := by
  have settle (told : WindowManager) (gathered : Gathered t bound told.holding)
      (settled : (events.beforeWait (told.autostart.enter .running)).unlessFailed = .ok m') :
      Gathered t bound m'.holding := by
    cases eq_of_unlessFailed settled
    have same : (told.autostart.enter .running).holding = told.holding := holding_runCommands told _
    rw [holding_beforeWait, same]
    exact gathered
  cases continuation with
  | none => exact settle m gathered settled
  | some fd => exact settle _ (gathered_tellRestarted gathered fd) settled

theorem decode_of_take (options : Options) (env : Environment) :
    ∀ listed ∈ (Inheritance.take options env).1.manifest,
      ∃ raw, Manifest.decode raw = .ok listed := by
  intro listed taken
  replace taken : listed ∈
      (Inheritance.parseManifest (env.text? Inheritance.manifestVariable)).1 := taken
  unfold Inheritance.parseManifest at taken
  split at taken
  · cases taken
  · next raw _ =>
    split at taken
    · next read =>
      cases taken
      exact ⟨raw, read⟩
    · cases taken

/-- The windows are taken over when all channels have been adopted and the endpoint is open. -/
theorem gathered_takeWindowsOver {b : Birth} {options : Options} {log : Option Path}
    {d : OpenDisplay} {activation : List Int} {manifest : Option Manifest}
    (read : ∀ listed ∈ manifest, ∃ raw, Manifest.decode raw = .ok listed) {snapshot : Option Path}
    {delete : Bool}
    (taken : (((((initial b options log d).adoptChannels activation manifest).openEndpoint
      ).publishEndpoint.enter .restoringOrder).restoreOrder snapshot delete).takeWindowsOver =
        .ok m) : ∃ bound, Gathered b.table bound m.holding := by
  have begun : Gathered b.table [] (initial b options log d).holding := .empty
  rw [holding_takeWindowsOver taken]
  exact gathered_openEndpoint (gathered_adoptChannels begun activation read)

/-- A manager that has started has gathered its channels, from a table with no descriptor but those
that it was given. -/
theorem gathered_start {b : Birth} {options : Options} (started : start b options = .ok m) :
    ∃ t bound, t.PartOf b.table ∧ Gathered t bound m.holding := by
  have table := (alike_startLog options b).2
  unfold start at started
  generalize startLog options b = logged at table started
  obtain ⟨log, b'⟩ := logged
  have received (announced : List Int) :
      (Holding.receiveAnnounced b'.table announced).2.1.PartOf b.table :=
    table ▸ Holding.partOf_receiveAnnounced b'.table announced
  simp only at started
  split at started
  · cases started
  · split at started
    · cases started
    · next taken took =>
      obtain ⟨bound, gathered⟩ := gathered_takeWindowsOver (decode_of_take options _) took
      exact ⟨_, bound, received _, gathered_settleIn gathered started⟩

/-! ## 2. While the manager runs -/

theorem gathered_acceptWaiting (gathered : Gathered t bound m.holding) (fd : Int) :
    Gathered t bound (m.acceptWaiting fd).holding := by
  rw [acceptWaiting]
  split
  · next socket _ _ _ _ =>
    generalize m.host.takeCallers socket = taken
    obtain ⟨ids, host⟩ := taken
    have accepted (ids : List Nat) (m : WindowManager) (gathered : Gathered t bound m.holding) :
        Gathered t bound (ids.foldl acceptConnection m).holding := by
      induction ids generalizing m with
      | nil => exact gathered
      | cons id rest ih => exact ih _ (gathered.accept _ id)
    exact accepted ids _ gathered
  · exact gathered

theorem gathered_serveClient (gathered : Gathered t bound m.holding) {fd : Int}
    (served : m.serveClient fd = .ok m') : Gathered t bound m'.holding := by
  rcases serveClient_cases m fd with ⟨idle, _⟩ | ⟨client, id, _, _, _, serving⟩
  · cases idle.symm.trans served
    exact gathered
  · rw [serving] at served
    split at served
    · cases served
    · next done handled =>
      cases served
      have read : Gathered t bound done.holding := by
        rw [(handleLines_ok handled).2.holding]
        exact gathered.read fd _
      split
      · exact read
      · exact read.drop fd

theorem gathered_attend (gathered : Gathered t bound m.holding) {ready : Ready}
    (attended : m.attend ready = .ok m') : Gathered t bound m'.holding := by
  cases ready with
  | client fd => exact gathered_serveClient gathered attended
  | listener fd =>
    cases attended
    exact gathered_acceptWaiting gathered fd
  | signal number =>
    cases attended
    exact gathered
  | display =>
    rcases attend_display_cases m with ⟨remains, failed⟩ | ⟨done, went, quiet⟩
    · cases failed.symm.trans attended
    · cases went.symm.trans attended
      rw [quiet.holding]
      exact gathered

theorem gathered_attendAll (gathered : Gathered t bound m.holding) {ready : List Ready}
    (attended : m.attendAll ready = .ok m') : Gathered t bound m'.holding := by
  induction ready generalizing m with
  | nil =>
    cases attended
    exact gathered
  | cons first rest ih =>
    rw [attendAll] at attended
    split at attended
    · cases attended
    · next middle went => exact ih (gathered_attend gathered went) attended

/-- A manager that goes on after a round has gathered its channels. -/
theorem gathered_round (gathered : Gathered t bound m.holding) {ready : List Ready}
    (went : m.round ready = .ok m') : Gathered t bound m'.holding := by
  rw [round] at went
  split at went
  · cases went
  · next done attended =>
    rw [endRound] at went
    split at went
    · cases went
    · next drained still =>
      split at went
      · cases went
      · cases went
        rw [eq_of_unlessFailed still, holding_beforeWait]
        exact gathered_attendAll gathered attended

end WindowManager

/-! ## 3. When the manager is asked to restart -/

/-- What a manager complains of whose channels cannot be listed. -/
def unlistable : String :=
  "ipc: failed to encode channel manifest: path contains invalid UTF-8 characters"

theorem Manifest.message_of_encode {m : Manifest} {f : Fault} (failed : m.encode = .error f) :
    f.message = unlistable := by
  unfold encode at failed
  split at failed
  · cases failed
    rfl
  · cases failed

/-- **A restart goes through exactly if the paths of the open listeners are text.** Take whatever a
process has gathered by binding listeners, adopting a supervisor's sockets and manifests, and
accepting clients. The paths that are to be listed are text, or were bound by the process, or are
addresses of the descriptors that it was given. The manifest is written if and only if they are all
text, and so a manager whose program can be started is replaced if and only if they are. One that is
no text ends the process instead: no channel is left out of the manifest. -/
theorem restart_goes_through_iff {t : DescriptorTable} {bound : List Path} {h : Holding}
    (gathered : Gathered t bound h) :
    (∀ p ∈ h.listedPaths, Accounted t bound p) ∧
    ((∃ text, h.handOff.1.encode = .ok text) ↔ ∀ p ∈ h.listedPaths, Utf8.isText p.bytes = true) ∧
    ∀ (m : WindowManager) (requester : Option Int), m.holding = h → m.Startable →
      ((∃ next, m.replaceImage requester = .replaced next) ↔
        ∀ p ∈ h.listedPaths, Utf8.isText p.bytes = true) ∧
      ((∃ p ∈ h.listedPaths, Utf8.isText p.bytes = false) →
        ∃ remains, m.replaceImage requester = .ended remains ∧ remains.ending = .exited 1 ∧
          remains.complaint = some unlistable) := by
  refine ⟨fun p listed => ?_, h.encode_iff, ?_⟩
  · obtain ⟨fd, l, found, _, path⟩ := Holding.mem_listedPaths.mp listed
    exact gathered.pathsIn.listeners fd l p found path
  · rintro m requester rfl startable
    rcases WindowManager.replaceImage_of_startable startable requester with
      ⟨text, next, written, replaced⟩ | ⟨f, failed, ended⟩
    · have texts := m.holding.encode_iff.mp ⟨text, written⟩
      refine ⟨iff_of_true ⟨next, replaced⟩ texts, fun ⟨p, listed, noText⟩ => ?_⟩
      rw [texts p listed] at noText
      cases noText
    · refine ⟨iff_of_false ?_ ?_, fun _ => ⟨_, ended, rfl, ?_⟩⟩
      · rintro ⟨next, replaced⟩
        cases ended.symm.trans replaced
      · intro texts
        obtain ⟨text, written⟩ := m.holding.encode_iff.mpr texts
        cases failed.symm.trans written
      · exact congrArg some (Manifest.message_of_encode failed)

/-- A manager with a program that can be started and the endpoint at `p`. -/
def managerAt (p : Path) (table : DescriptorTable) : WindowManager :=
  { (default : WindowManager) with
    host := { (default : Host) with programs := [Bytes.ofString "kestrel"] }
    arguments := [Bytes.ofString "kestrel"]
    environment := ({} : Environment).set Endpoint.variableName p.bytes
    holding := ⟨{}, table⟩ }

/-- A supervisor's listener at 3, an endpoint of its own, and a client. -/
theorem restart_goes_through_of_three :
    ∃ bound h, Gathered ⟨FdMap.insert {} 3 ⟨.listener 7 (some (Path.ofString "/a")), false⟩, []⟩
        bound h ∧
      h.listedPaths = [Path.ofString "/a", Path.ofString "/s"] ∧ h.set.size = 3 ∧
      ∃ next, ({ managerAt (Path.ofString "/s") {} with holding := h }).replaceImage (some 101) =
        .replaced next := by
  let t : DescriptorTable :=
    ⟨FdMap.insert {} 3 ⟨.listener 7 (some (Path.ofString "/a")), false⟩, []⟩
  let supervised : Holding := ((⟨{}, t⟩ : Holding).adoptSupervised [3]).2.1
  let h : Holding := (supervised.listenAt 100 0 (Path.ofString "/s")).welcome 101 4
  have created : (Endpoint.create {} (Path.ofString "/s")).1 = .ok 0 := by decide +kernel
  have gathered : Gathered t [Path.ofString "/s"] h :=
    ((Gathered.empty.supervise [3]).bind 100 (Prod.ext created rfl)).accept 101 4
  have listed : h.listedPaths = [Path.ofString "/a", Path.ofString "/s"] := by decide +kernel
  have startable : ({ managerAt (Path.ofString "/s") {} with holding := h }).Startable :=
    ⟨⟨Bytes.ofString "kestrel", List.mem_cons_self, rfl⟩, by decide⟩
  obtain ⟨_, _, through⟩ := restart_goes_through_iff gathered
  refine ⟨_, h, gathered, listed, by decide +kernel, ?_⟩
  exact (through _ (some 101) rfl startable).1.mpr (by rw [listed]; decide)

/-- The environment may name any path for the endpoint. One that is no text is bound like any other,
and then a request to restart ends the process. -/
theorem unlistable_path_ends_the_process :
    let m := (managerAt ⟨[0x2F, 0xFF]⟩ {}).openEndpoint
    Gathered {} [⟨[0x2F, 0xFF]⟩] m.holding ∧ m.Startable ∧
      (∀ text, m.holding.handOff.1.encode ≠ .ok text) ∧
      ∃ remains, m.replaceImage none = .ended remains ∧ remains.ending = .exited 1 := by
  intro m
  have created : (Endpoint.create {} ⟨[0x2F, 0xFF]⟩).1 = .ok 0 := by decide +kernel
  have bound : m.holding = Holding.listenAt {} 100 0 ⟨[0x2F, 0xFF]⟩ := by decide +kernel
  have startable : m.Startable :=
    ⟨⟨Bytes.ofString "kestrel", by decide +kernel, by decide +kernel⟩, by decide +kernel⟩
  have failed : m.holding.handOff.1.encode = .error (.ipc
      "failed to encode channel manifest: path contains invalid UTF-8 characters") := by
    decide +kernel
  refine ⟨?_, startable, fun text written => ?_, ?_⟩
  · rw [bound]
    exact Gathered.empty.bind 100 (Prod.ext created rfl)
  · cases failed.symm.trans written
  · rcases WindowManager.replaceImage_of_startable startable none with
      ⟨text, _, written, _⟩ | ⟨f, _, ended⟩
    · cases failed.symm.trans written
    · exact ⟨_, ended, rfl⟩

end Succession
