import Succession.Proofs.Channel.Gathering
import Succession.Proofs.CommandLine.NextImage
import Succession.Proofs.FileSystem.WriteRead
import Succession.Proofs.Image.HandOver
import Succession.WindowManager.Handover
import Succession.WindowManager.Startup

/-!
# Whether the image can be replaced

A manager that is asked to restart goes in any case: the next image takes its place, or it gives up
as it stood after its order was saved (`WindowManager.replaceImage_eq`). If its program can be
started, that depends on the channels alone: it is replaced exactly if their manifest is written
(`WindowManager.replaceImage_of_startable`).
-/

namespace Succession

/-! ## 1. The arguments of the next image -/

theorem Image.plain_next {commandLine : List Bytes} {snapshot : Option Path} {launch : Launch}
    (plain : commandLine.any hasNul = false) (path : ∀ p ∈ snapshot, Bytes.nul ∉ p.bytes)
    (launched : next commandLine snapshot = .ok launch) :
    launch.commandLine.any hasNul = false := by
  cases commandLine with
  | nil => cases launched
  | cons program rest =>
    cases launched
    rw [List.any_eq_false] at plain ⊢
    obtain ⟨first, others⟩ := List.forall_mem_cons.mp plain
    refine List.forall_mem_cons.mpr
      ⟨first, List.forall_mem_append.mpr ⟨fun argument kept => ?_, ?_⟩⟩
    · exact others argument (of_mem_keep kept).1
    · cases snapshot with
      | none => decide
      | some p =>
        have autostart : ¬hasNul (Bytes.ofString "-a") = true := by decide
        have restart : ¬hasNul (Bytes.ofString "--restart") = true := by decide
        have snapshot : ¬hasNul p.bytes = true := fun zero => path p rfl (of_decide_eq_true zero)
        exact List.forall_mem_cons.mpr ⟨autostart, List.forall_mem_cons.mpr
          ⟨restart, List.forall_mem_singleton.mpr snapshot⟩⟩

namespace WindowManager

/-! ## 2. How the manager goes -/

/-- The manager with other files outside. -/
def withFiles (m : WindowManager) (files : FileSystem) : WindowManager :=
  { m with host := { m.host with files := files } }

/-- The order is saved in two steps, and all that changes is the files. -/
theorem saveOrder_cases (m : WindowManager) :
    (∃ made written, Snapshot.prepareDirectory m.host.files m.restartSnapshot = (.ok (), made) ∧
      Snapshot.persist made m.restartSnapshot m.order = .ok written ∧
      m.saveOrder = (some m.restartSnapshot, m.withFiles written)) ∨
    m.saveOrder =
      (none, m.withFiles (Snapshot.prepareDirectory m.host.files m.restartSnapshot).2) := by
  unfold saveOrder
  dsimp only
  split
  · next written made persisted => exact .inl ⟨_, written, Prod.ext made rfl, persisted, rfl⟩
  · exact .inr rfl

theorem saveOrder_snd (m : WindowManager) : ∃ files, m.saveOrder.2 = m.withFiles files := by
  rcases saveOrder_cases m with ⟨_, written, _, _, same⟩ | same
  · exact ⟨written, by rw [same]⟩
  · exact ⟨_, by rw [same]⟩

theorem writeFile_of_persist {files written : FileSystem} {p : Path} {order : WindowOrder}
    (persisted : Snapshot.persist files p order = .ok written) :
    files.writeFile p (Snapshot.encode (.ofOrder order)) = .ok written := by
  unfold Snapshot.persist at persisted
  split at persisted
  · next wrote =>
    cases persisted
    exact wrote
  · cases persisted

/-- A snapshot that was written has a path that can be passed on. -/
theorem nul_notMem_of_saveOrder {m : WindowManager} :
    ∀ p ∈ m.saveOrder.1, Bytes.nul ∉ p.bytes := by
  intro p saved
  rcases saveOrder_cases m with ⟨made, written, _, persisted, same⟩ | same
  · rw [same] at saved
    cases saved
    exact FileSystem.nul_notMem_of_writeFile (writeFile_of_persist persisted)
  · rw [same] at saved
    cases saved

/-- The manager when all is ready for the next image: its order is saved as far as that could be
done, and its channels are kept open. -/
def readied (m : WindowManager) : WindowManager :=
  { (m.enter .restartRequested).saveOrder.2 with
    holding := m.holding.handOff.2.1
    connection := m.connection.flush.2 }

theorem host_readied (m : WindowManager) :
    m.readied.host = (m.enter .restartRequested).saveOrder.2.host := by
  rw [readied]

theorem programs_readied (m : WindowManager) : m.readied.host.programs = m.host.programs := by
  obtain ⟨files, same⟩ := saveOrder_snd (m.enter .restartRequested)
  rw [host_readied, same]
  rfl

theorem logPath_readied (m : WindowManager) : m.readied.logPath = m.logPath := by
  obtain ⟨files, same⟩ := saveOrder_snd (m.enter .restartRequested)
  rw [readied, same]
  rfl

theorem replaceImage_eq (m : WindowManager) (requester : Option Int) :
    m.replaceImage requester =
      match Image.next m.arguments (m.enter .restartRequested).saveOrder.1 with
      | .error f => .ended (m.readied.giveUp f)
      | .ok launch =>
        match Image.exec (m.readied.host.refusal? m.environment launch.program) m.environment launch
            m.holding.handOff.1 (requester.filter m.holding.handOff.1.lists) with
        | .error f => .ended (m.readied.giveUp f)
        | .ok env => .replaced (m.readied.successor env launch) := by
  unfold replaceImage readied
  rcases saveOrder_cases (m.enter .restartRequested) with ⟨_, written, _, _, same⟩ | same
  · rw [same]
    rfl
  · rw [same]
    rfl

/-- A manager that is not replaced gives up where it stands. -/
theorem ended_of_replaceImage {m : WindowManager} {requester : Option Int} {remains : Remains}
    (gone : m.replaceImage requester = .ended remains) : ∃ f, remains = m.readied.giveUp f := by
  rw [replaceImage_eq] at gone
  split at gone
  · cases gone
    exact ⟨_, rfl⟩
  · split at gone
    · cases gone
      exact ⟨_, rfl⟩
    · cases gone

/-- The manager knows its program, which can be started, and its arguments can be passed on. -/
structure Startable (m : WindowManager) : Prop where
  named : ∃ program ∈ m.host.programs, m.arguments.head? = some program
  plain : m.arguments.any Image.hasNul = false

/-- If its program can be started, the manager is replaced exactly if its manifest is written. -/
theorem replaceImage_of_startable {m : WindowManager} (startable : m.Startable)
    (requester : Option Int) :
    (∃ text next, m.holding.handOff.1.encode = .ok text ∧
      m.replaceImage requester = .replaced next) ∨
    ∃ f, m.holding.handOff.1.encode = .error f ∧
      m.replaceImage requester = .ended (m.readied.giveUp f) := by
  obtain ⟨program, programs, named⟩ := startable.named
  obtain ⟨rest, arguments⟩ := List.head?_eq_some_iff.mp named
  have started : m.readied.host.refusal? m.environment program = none := by
    rw [Host.refusal?, programs_readied, if_pos programs]
  cases launched : Image.next m.arguments (m.enter .restartRequested).saveOrder.1 with
  | error f =>
    rw [arguments] at launched
    cases launched
  | ok launch =>
    have plain := Image.plain_next startable.plain nul_notMem_of_saveOrder launched
    have same : launch.program = program := by
      rw [arguments] at launched
      cases launched
      rfl
    rw [replaceImage_eq, launched]
    dsimp only
    rw [same, started]
    cases written : m.holding.handOff.1.encode with
    | error f =>
      refine .inr ⟨f, rfl, ?_⟩
      rw [Image.exec, written]
      rfl
    | ok text =>
      rw [Image.exec_of_encode written m.environment plain]
      exact .inl ⟨text, _, rfl, rfl⟩

end WindowManager

end Succession
