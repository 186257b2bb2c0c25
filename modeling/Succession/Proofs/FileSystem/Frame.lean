import Mathlib.Logic.Relation
import Succession.Proofs.FileSystem.WriteRead
import Succession.RingLog

/-!
# What operations on files leave alone

Making directories adds entries and touches none (`createDirectories_keeps`), writing a file touches
one entry, which was none or a file (`writeFile_cases`), and removing a log touches only the entry
that its path names (`lookup_removeAt`).
-/

namespace Succession.FileSystem

variable {fs fs' fs'' : FileSystem}

/-- Every entry of the first file system stands in the second one. -/
def Keeps (fs fs' : FileSystem) : Prop :=
  ∀ loc node, fs.lookup loc = some node → fs'.lookup loc = some node

theorem Keeps.refl (fs : FileSystem) : Keeps fs fs := fun _ _ found => found

theorem Keeps.trans (first : Keeps fs fs') (second : Keeps fs' fs'') : Keeps fs fs'' :=
  fun loc node found => second loc node (first loc node found)

/-- An entry may be placed where there is none. -/
theorem keeps_put {loc : Location} (node : Node) (free : fs.lookup loc = none) :
    Keeps fs (fs.put loc node) := by
  intro other node' found
  have differs : other ≠ loc := by
    rintro rfl
    rw [free] at found
    cases found
  rw [lookup_put_ne fs _ differs, found]

/-- A path names the entry at a location: its last name in the directory that the rest leads to. -/
def Names (fs : FileSystem) (p : Path) (loc : Location) : Prop :=
  ∃ directory name slash, place fs p = .ok ⟨directory, .name name, slash⟩ ∧
    loc = directory ++ [name]

theorem Names.nonempty {p : Path} {loc : Location} (names : fs.Names p loc) : loc ≠ [] := by
  obtain ⟨directory, name, _, _, rfl⟩ := names
  simp

/-! ## Making directories -/

theorem createDirectory_eq_ok {mode : Nat} {p : Path} :
    createDirectory fs mode p = .ok fs' ↔
      ∃ loc, fs.Names p loc ∧ fs.lookup loc = none ∧ fs.Permits .make loc ∧
        fs' = fs.put loc (.directory mode) := by
  constructor
  · intro made
    obtain ⟨⟨directory, last, slash⟩, placed, made⟩ := bind_eq_ok.mp made
    cases last with
    | self => cases made
    | up => cases made
    | name name =>
      simp only at made
      split at made
      · next free =>
        obtain ⟨permitted, rfl⟩ := unlessRefused_eq_ok.mp made
        exact ⟨_, ⟨directory, name, slash, placed, rfl⟩, free, permitted, rfl⟩
      · cases made
  · rintro ⟨loc, ⟨directory, name, slash, placed, rfl⟩, free, permitted, rfl⟩
    refine bind_eq_ok.mpr ⟨_, placed, ?_⟩
    simp only [free, unlessRefused_of_permits permitted]

theorem createDirectory_keeps {mode : Nat} {p : Path}
    (made : createDirectory fs mode p = .ok fs') : Keeps fs fs' := by
  obtain ⟨loc, _, free, _, rfl⟩ := createDirectory_eq_ok.mp made
  exact keeps_put _ free

/-- A path is another one, or lies above it. -/
abbrev AtOrAbove (p above : Path) : Prop :=
  Relation.ReflTransGen (fun q parent => q.parent? = some parent) p above

/-- Making directories is making one after the other, each at the path or above it. -/
theorem createDirectoriesUpTo_induction {motive : FileSystem → FileSystem → Prop}
    (refl : ∀ fs, motive fs fs)
    (trans : ∀ {fs fs' fs''}, motive fs fs' → motive fs' fs'' → motive fs fs'')
    (mode depth : Nat) (fs : FileSystem) (p : Path)
    (step : ∀ {fs fs' above}, AtOrAbove p above → createDirectory fs mode above = .ok fs' →
      motive fs fs') :
    motive fs (createDirectoriesUpTo mode depth fs p).2 := by
  fun_induction createDirectoriesUpTo mode depth fs p with
  | case1 => exact refl _
  | case2 depth fs p _ made here => exact step .refl here
  | case3 fs p _ _ depth above parent made first all last ih =>
    have before := ih fun further => step (.head parent further)
    rw [first] at before
    exact trans before (step .refl last)
  | case4 fs p _ _ depth above parent made first cause _ _ ih
  | case5 fs p _ _ depth above parent made first cause _ _ ih =>
    have before := ih fun further => step (.head parent further)
    rwa [first] at before
  | case6 fs p _ _ depth above parent cause made first ih =>
    have before := ih fun further => step (.head parent further)
    rwa [first] at before
  | case7 | case8 | case9 => exact refl _

/-- Directories are made beside what stands already. -/
theorem createDirectories_keeps (fs : FileSystem) (mode : Nat) (p : Path) :
    Keeps fs (fs.createDirectories mode p).2 :=
  createDirectoriesUpTo_induction Keeps.refl Keeps.trans mode _ fs p
    fun _ made => createDirectory_keeps made

/-! ## Writing a file -/

/-- A path leads to a location. -/
def LeadsTo (fs : FileSystem) (p : Path) (loc : Location) : Prop :=
  ∃ links, walk fs links (origin fs.working p) (steps p) = .ok loc

/-- Writing makes or replaces the file that the path leads to. -/
theorem writeFile_cases {p : Path} {content : Bytes} (written : writeFile fs p content = .ok fs') :
    ∃ loc, fs' = fs.put loc (.file content) ∧
      fs'.lookup loc = some (.file content) ∧ fs'.LeadsTo p loc ∧
      (fs.lookup loc = none ∨ ∃ old, fs.lookup loc = some (.file old)) := by
  obtain ⟨loc, placed, _, rfl⟩ := writeFile_eq_ok.mp written
  obtain ⟨nonempty, free⟩ := placeOfFile_free placed
  have stands := lookup_put_self fs (.file content) nonempty
  obtain ⟨links, walked⟩ := walk_of_placeOfFile (keepsPassages_put content free) placed stands
  exact ⟨loc, rfl, stands, ⟨links, walked⟩, free⟩

/-- Whatever is no file stands after a file was written. -/
theorem lookup_writeFile {p : Path} {content : Bytes} (written : writeFile fs p content = .ok fs')
    {loc : Location} {node : Node} (other : ∀ old, node ≠ .file old)
    (found : fs.lookup loc = some node) : fs'.lookup loc = some node := by
  obtain ⟨place, rfl, _, _, free⟩ := writeFile_cases written
  have differs : loc ≠ place := by
    rintro rfl
    rcases free with free | ⟨old, free⟩
    · cases free.symm.trans found
    · exact other old (Option.some.inj (found.symm.trans free))
  rw [lookup_put_ne fs _ differs, found]

/-! ## Removing a log -/

theorem removeFile_cases {p : Path} (removed : removeFile fs p = .ok fs') :
    ∃ loc, fs.Names p loc ∧ fs' = fs.erase loc := by
  obtain ⟨⟨directory, last, slash⟩, placed, removed⟩ := bind_eq_ok.mp removed
  cases last with
  | self => cases removed
  | up => cases removed
  | name name =>
    refine ⟨directory ++ [name], ⟨directory, name, slash, placed, rfl⟩, ?_⟩
    simp only at removed
    split at removed
    · cases removed
    · cases removed
    · split at removed
      · cases removed
      · exact (unlessRefused_eq_ok.mp removed).2

/-- Removing a log leaves every entry alone that its path does not name. -/
theorem lookup_removeAt {p : Path} {loc : Location} (apart : ¬fs.Names p loc) :
    (RingLog.removeAt fs p).lookup loc = fs.lookup loc := by
  rw [RingLog.removeAt]
  split
  · next fs' removed =>
    obtain ⟨place, names, rfl⟩ := removeFile_cases removed
    have differs : loc ≠ place := fun same => apart (same ▸ names)
    exact lookup_erase_ne fs differs
  · rfl

end Succession.FileSystem
