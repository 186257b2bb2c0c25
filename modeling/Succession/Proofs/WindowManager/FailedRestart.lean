import Succession.Proofs.FileSystem.Frame
import Succession.Proofs.WindowManager.Replacement
import Succession.WindowManager.Shutdown

/-!
# What a failed restart leaves behind

When the next image cannot be started, the snapshot has been written and the channels are kept open
already. The manager then complains and exits, and all that it removes is its log: the snapshot with
its directory, and the sockets that it has bound, are left where they stand
(`failed_restart_leaves_all`). The routine that would remove them runs when the manager shuts down
in order, and only then.
-/

namespace Succession.WindowManager

/-! ## 1. Why there is no next image -/

/-- What keeps the next image from being started: this one does not know its own program, its
channels cannot be listed, or its program cannot be started. -/
inductive Hindered (m : WindowManager) : Prop
  | nameless : m.arguments = [] → Hindered m
  | unlistable (f : Fault) : m.holding.handOff.1.encode = .error f → Hindered m
  | unstartable (program : Bytes) (rest : List Bytes) : m.arguments = program :: rest →
      program ∉ m.host.programs → Hindered m

theorem Hindered.ended {m : WindowManager} (hindered : m.Hindered) (requester : Option Int) :
    ∃ remains, m.replaceImage requester = .ended remains := by
  rw [replaceImage_eq]
  cases launched : Image.next m.arguments (m.enter .restartRequested).saveOrder.1 with
  | error f => exact ⟨_, rfl⟩
  | ok launch =>
    dsimp only
    -- There is a launch to try. Whatever hinders it, the attempt comes to nothing.
    suffices failed : ∃ f, Image.exec (m.readied.host.refusal? m.environment launch.program)
        m.environment launch m.holding.handOff.1 (requester.filter m.holding.handOff.1.lists) =
          .error f by
      obtain ⟨f, failed⟩ := failed
      rw [failed]
      exact ⟨_, rfl⟩
    unfold Image.exec
    cases hindered with
    | nameless none =>
      rw [none] at launched
      cases launched
    | unlistable f unwritten =>
      rw [unwritten]
      exact ⟨f, rfl⟩
    | unstartable program rest named missing =>
      rw [named] at launched
      cases launched
      have refused : m.readied.host.refusal? m.environment program =
          some (Image.launchFault m.readied.host.files m.environment program) := by
        rw [Host.refusal?, programs_readied, if_neg missing]
      rw [refused]
      cases m.holding.handOff.1.encode with
      | error f => exact ⟨f, rfl⟩
      | ok text =>
        dsimp only [bind, Except.bind]
        split
        · exact ⟨_, rfl⟩
        · exact ⟨_, rfl⟩

/-! ## 2. What is left -/

variable {m : WindowManager}

/-- The path of a snapshot that was saved leads to the order as it stood. -/
theorem leadsTo_saveOrder {p : Path} (saved : m.saveOrder.1 = some p) :
    p = m.restartSnapshot ∧ ∃ loc, m.saveOrder.2.host.files.LeadsTo p loc ∧
      m.saveOrder.2.host.files.lookup loc = some (.file (Snapshot.encode (.ofOrder m.order))) := by
  rcases saveOrder_cases m with ⟨made, written, _, persisted, same⟩ | same
  · rw [same] at saved ⊢
    cases saved
    obtain ⟨loc, _, stands, leads, _⟩ := FileSystem.writeFile_cases (writeFile_of_persist persisted)
    exact ⟨rfl, loc, leads, stands⟩
  · rw [same] at saved
    cases saved

theorem prepareDirectory_keeps (files : FileSystem) (p : Path) :
    files.Keeps (Snapshot.prepareDirectory files p).2 := by
  unfold Snapshot.prepareDirectory
  split
  · exact FileSystem.createDirectories_keeps files _ _
  · exact .refl files

/-- Saving the order replaces no entry but a file. -/
theorem lookup_saveOrder {loc : Location} {node : Node} (other : ∀ content, node ≠ .file content)
    (found : m.host.files.lookup loc = some node) :
    m.saveOrder.2.host.files.lookup loc = some node := by
  have kept := prepareDirectory_keeps m.host.files m.restartSnapshot loc node found
  rcases saveOrder_cases m with ⟨made, written, prepared, persisted, same⟩ | same
  · rw [same]
    rw [prepared] at kept
    exact FileSystem.lookup_writeFile (writeFile_of_persist persisted) other kept
  · rw [same]
    exact kept

theorem host_enter (m : WindowManager) (phase : Phase) : (m.enter phase).host = m.host := rfl

theorem order_enter (m : WindowManager) (phase : Phase) : (m.enter phase).order = m.order := rfl

theorem restartSnapshot_enter (m : WindowManager) (phase : Phase) :
    (m.enter phase).restartSnapshot = m.restartSnapshot := rfl

theorem files_giveUp (m : WindowManager) (f : Fault) :
    (m.giveUp f).host.files = removeLog m.host.files m.logPath := rfl

theorem lookup_removeLog {files : FileSystem} {log : Option Path} {loc : Location}
    (apart : ∀ p ∈ log, ¬files.Names p loc) :
    (removeLog files log).lookup loc = files.lookup loc := by
  cases log with
  | none => rfl
  | some p => exact FileSystem.lookup_removeAt (apart p rfl)

/-- **A restart that fails leaves everything behind but the log.** Whether the manager has no name
for its program, cannot list its channels, or finds that its program cannot be started: it exits
with status 1, and every entry is as it was when its order had been saved, unless it is the one that
the log's path names. So whatever is no file, each listener's socket and each directory, still
stands; and if the order was saved, its snapshot still stands where its path leads. -/
theorem failed_restart_leaves_all (m : WindowManager) (requester : Option Int) :
    (m.Hindered → ∃ remains, m.replaceImage requester = .ended remains) ∧
    ∀ remains, m.replaceImage requester = .ended remains →
      let saved := (m.enter .restartRequested).saveOrder
      remains.ending = .exited 1 ∧
      (∀ loc, (∀ log ∈ m.logPath, ¬saved.2.host.files.Names log loc) →
        remains.host.files.lookup loc = saved.2.host.files.lookup loc) ∧
      (∀ loc node, (∀ content, node ≠ .file content) → m.host.files.lookup loc = some node →
        saved.2.host.files.lookup loc = some node) ∧
      ∀ p ∈ saved.1, p = m.restartSnapshot ∧ ∃ loc, saved.2.host.files.LeadsTo p loc ∧
        saved.2.host.files.lookup loc = some (.file (Snapshot.encode (.ofOrder m.order))) := by
  refine ⟨fun hindered => hindered.ended requester, fun remains gone => ?_⟩
  obtain ⟨f, rfl⟩ := ended_of_replaceImage gone
  refine ⟨rfl, fun loc apart => ?_, fun loc node other found => ?_, fun p named => ?_⟩
  · rw [files_giveUp, host_readied, logPath_readied]
    exact lookup_removeLog apart
  · rw [← host_enter m .restartRequested] at found
    exact lookup_saveOrder other found
  · have left := leadsTo_saveOrder named
    rwa [restartSnapshot_enter, order_enter] at left

/-- A manager that listens at a socket of its own and whose program is gone. -/
def stranded : WindowManager :=
  { (default : WindowManager) with
    host :=
      { (default : Host) with
        files :=
          { entries :=
              [([Bytes.ofString "r"], .directory 0o700),
                ([Bytes.ofString "r", Bytes.ofString "socket"], .socket 0),
                ([Bytes.ofString "r", Bytes.ofString "log"], .file [])] }
        pid := 7 }
    arguments := [Bytes.ofString "./gone"]
    environment := ({} : Environment).set "XDG_RUNTIME_DIR" (Bytes.ofString "/r")
    holding :=
      ⟨{ listeners := FdMap.insert {} 9 ⟨.localBind, some (Path.ofString "/r/socket")⟩ },
        ⟨FdMap.insert {} 9 ⟨.listener 0 (some (Path.ofString "/r/socket")), true⟩, []⟩⟩
    logPath := some (Path.ofString "/r/log") }

theorem hindered_stranded : stranded.Hindered :=
  .unstartable (Bytes.ofString "./gone") [] rfl List.not_mem_nil

theorem failed_restart_leaves_all_of_stranded :
    stranded.Hindered ∧ ∃ remains, stranded.replaceImage none = .ended remains ∧
      remains.ending = .exited 1 ∧
      remains.host.files.lookup [Bytes.ofString "r", Bytes.ofString "socket"] =
        some (.socket 0) := by
  obtain ⟨ends, leaves⟩ := failed_restart_leaves_all stranded none
  obtain ⟨remains, gone⟩ := ends hindered_stranded
  obtain ⟨exited, others, stands, _⟩ := leaves remains gone
  refine ⟨hindered_stranded, remains, gone, exited, ?_⟩
  have log : (stranded.enter .restartRequested).saveOrder.2.host.files.place
      (Path.ofString "/r/log") =
        .ok ⟨[Bytes.ofString "r"], .name (Bytes.ofString "log"), false⟩ := by decide +kernel
  rw [others]
  · exact stands _ _ nofun (by decide)
  · rintro _ ⟨rfl⟩ ⟨directory, name, slash, placed, same⟩
    cases log.symm.trans placed
    exact absurd same (by decide)

/-- The snapshot in its directory and the manager's own socket stand after it has exited, though the
routine that is meant for them would remove all three. -/
theorem failed_restart_is_not_cleaned_up :
    let snapshot := [Bytes.ofString "r", Bytes.ofString "kestrel-restart.7",
      Bytes.ofString "restart-state.json"]
    stranded.Hindered ∧ ∃ remains, stranded.replaceImage none = .ended remains ∧
      remains.ending = .exited 1 ∧
      remains.host.files.lookup snapshot =
        some (.file (Snapshot.encode (.ofOrder stranded.order))) ∧
      remains.host.files.lookup [Bytes.ofString "r", Bytes.ofString "socket"] =
        some (.socket 0) ∧
      (Shutdown.removeState remains.host.files stranded.holding.set.listeners.values
        stranded.restartSnapshot).1.entries = [([Bytes.ofString "r"], .directory 0o700)] := by
  obtain ⟨remains, gone⟩ := hindered_stranded.ended none
  refine ⟨hindered_stranded, remains, gone, ?_⟩
  obtain ⟨f, rfl⟩ := ended_of_replaceImage gone
  rw [files_giveUp]
  exact ⟨rfl, by decide +kernel, by decide +kernel, by decide +kernel⟩

end Succession.WindowManager
