import Succession.Proofs.CommandLine.NextImage

/-!
# The command line over many restarts

What the filter lets through it lets through again, wherever it stands (`keep_append`,
`fate_of_mem_keep`), and what a restart adds it takes out again (`keep_added`). So each image starts
with the arguments that the first one would have given it, whatever snapshots the restarts between
them had (`arguments_do_not_drift`).
-/

namespace Succession.Image

/-! ## 1. The filter on its own output -/

/-- Arguments that are all kept stay, whatever comes behind them. -/
theorem keep_append {front : List Bytes} (kept : ∀ argument ∈ front, fate argument = .kept)
    (rest : List Bytes) : keep (front ++ rest) = front ++ keep rest := by
  induction front with
  | nil => rfl
  | cons argument front ih =>
    obtain ⟨first, others⟩ := List.forall_mem_cons.mp kept
    rw [List.cons_append, keep_cons_kept first, ih others, List.cons_append]

theorem fate_of_mem_keep {arguments : List Bytes} :
    ∀ argument ∈ keep arguments, fate argument = .kept :=
  fun _ member => (of_mem_keep member).2

/-- What a restart adds does not outlast the next one, whatever path the snapshot has. -/
theorem keep_added (snapshot : Option Path) : keep (added snapshot) = [] := by
  have autostart : fate (Bytes.ofString "-a") = .dropped := by decide
  have restart : fate (Bytes.ofString "--restart") = .droppedWithValue := by decide
  cases snapshot with
  | none => exact keep_cons_dropped autostart
  | some path => exact (keep_cons_dropped autostart).trans (keep_cons_droppedWithValue restart)

/-- The arguments of the next image are filtered to those that this image was filtered to. -/
theorem keep_arguments (commandLine : List Bytes) (snapshot : Option Path) :
    keep (arguments commandLine snapshot) = keep (commandLine.drop 1) := by
  rw [arguments, keep_append fate_of_mem_keep, keep_added, List.append_nil]

/-- A restart from a restarted image gives the arguments that a restart from the image before it
gives. -/
theorem arguments_arguments (program : Bytes) (commandLine : List Bytes)
    (first second : Option Path) :
    arguments (program :: arguments commandLine first) second = arguments commandLine second := by
  calc arguments (program :: arguments commandLine first) second
    _ = keep (arguments commandLine first) ++ added second := rfl
    _ = arguments commandLine second := by rw [keep_arguments, arguments]

/-! ## 2. Any number of restarts -/

/-- The command line after some restarts, each with its snapshot. -/
def restarted (commandLine : List Bytes) (snapshots : List (Option Path)) :
    Except Fault (List Bytes) :=
  snapshots.foldlM (fun line snapshot => (next line snapshot).map Launch.commandLine) commandLine

/-- **Command lines do not drift.** Whatever the program's name, the arguments and the snapshots
are:

* a restart from a restarted image gives the arguments that a restart from the first image gives;
* after any number of restarts the command line is the one that a single restart with the last
  snapshot gives. -/
theorem arguments_do_not_drift (program : Bytes) (commandLine : List Bytes)
    (first second : Option Path) :
    arguments (program :: arguments commandLine first) second = arguments commandLine second ∧
      ∀ (args : List Bytes) (snapshots : List (Option Path)) (last : Option Path),
        restarted (program :: args) (snapshots ++ [last]) =
          .ok (program :: arguments (program :: args) last) := by
  refine ⟨arguments_arguments program commandLine first second, fun args snapshots last => ?_⟩
  induction snapshots generalizing args with
  | nil => rfl
  | cons snapshot rest ih =>
    -- the image that the first restart starts is restarted by the others
    calc restarted (program :: args) (snapshot :: rest ++ [last])
      _ = restarted (program :: arguments (program :: args) snapshot) (rest ++ [last]) := rfl
      _ = .ok (program :: arguments (program :: args) last) := by rw [ih, arguments_arguments]

/-- A trailing option without a value takes nothing of what is added with it. -/
example : restarted (["kestrel", "-L"].map Bytes.ofString)
    [some (Path.ofString "-L"), none, some (Path.ofString "/run/s.json")] =
      .ok (["kestrel", "-a", "--restart", "/run/s.json"].map Bytes.ofString) := rfl

end Succession.Image
