import Succession.Channel.Endpoint
import Succession.Proofs.FileSystem.Removal

/-!
# Sockets that cannot be bound

What stands at the path of a socket is removed before the socket is bound. If binding fails then,
the entry is gone and nothing has come in its place (`failed_bind_displaces`).

1. Before, the directories above the path are made. Nothing else is new then, and nothing is gone
   (`Adds`, `adds_createDirectories`).
2. An entry that was removed may have been a link on the way to its own place (`place_erase`).
   Otherwise only a path that is too long or a refusal keeps a socket from taking the place
   (`bind_erase`).
3. Where both come together an entry is displaced (`Displaces`).
-/

namespace Succession.FileSystem

variable {fs fs' fs'' : FileSystem} {p : Path} {loc : Location} {paths : Path → Prop} {mode : Nat}

/-! ## 1. Making directories -/

/-- The second file system has the entries of the first one, and directories that were made at some
paths. -/
structure Adds (mode : Nat) (paths : Path → Prop) (fs fs' : FileSystem) : Prop where
  working : fs'.working = fs.working
  nextSocket : fs'.nextSocket = fs.nextSocket
  refusals : fs'.refusals = fs.refusals
  keeps : Keeps fs fs'
  new : ∀ loc node, fs'.lookup loc = some node →
    fs.lookup loc = some node ∨
      node = .directory mode ∧ ∃ above, paths above ∧ fs'.Names above loc

theorem Names.of_keeps (names : fs.Names p loc) (keeps : Keeps fs fs')
    (working : fs.working = fs'.working) : fs'.Names p loc := by
  obtain ⟨directory, name, slash, placed, same⟩ := names
  exact ⟨directory, name, slash, place_of_keeps keeps working placed, same⟩

namespace Adds

theorem refl (fs : FileSystem) : Adds mode paths fs fs :=
  ⟨rfl, rfl, rfl, .refl fs, fun _ _ found => .inl found⟩

theorem trans (first : Adds mode paths fs fs') (second : Adds mode paths fs' fs'') :
    Adds mode paths fs fs'' := by
  refine ⟨second.working.trans first.working, second.nextSocket.trans first.nextSocket,
    second.refusals.trans first.refusals, first.keeps.trans second.keeps,
    fun loc node found => ?_⟩
  rcases second.new loc node found with before | made
  · rcases first.new loc node before with before | ⟨same, above, among, names⟩
    · exact .inl before
    · exact .inr ⟨same, above, among, names.of_keeps second.keeps second.working.symm⟩
  · exact .inr made

theorem mono {others : Path → Prop} (adds : Adds mode paths fs fs')
    (among : ∀ {above}, paths above → others above) : Adds mode others fs fs' := by
  refine ⟨adds.working, adds.nextSocket, adds.refusals, adds.keeps, fun loc node found => ?_⟩
  rcases adds.new loc node found with before | ⟨same, above, listed, names⟩
  · exact .inl before
  · exact .inr ⟨same, above, among listed, names⟩

/-- Whatever is no directory stood before. -/
theorem stood {node : Node} (adds : Adds mode paths fs fs') (found : fs'.lookup loc = some node)
    (noDirectory : node.isDirectory = false) : fs.lookup loc = some node := by
  rcases adds.new loc node found with before | ⟨rfl, _⟩
  · exact before
  · cases noDirectory

end Adds

theorem adds_createDirectory (among : paths p) (made : createDirectory fs mode p = .ok fs') :
    Adds mode paths fs fs' := by
  have keeps := createDirectory_keeps made
  obtain ⟨loc, names, free, _, rfl⟩ := createDirectory_eq_ok.mp made
  refine ⟨rfl, rfl, rfl, keeps, fun other node found => ?_⟩
  by_cases same : other = loc
  · rw [same, lookup_put_self fs _ names.nonempty] at found
    rw [same]
    exact .inr ⟨(Option.some.inj found).symm, p, among, names.of_keeps keeps rfl⟩
  · rw [lookup_put_ne fs _ same] at found
    exact .inl found

theorem adds_createDirectories (fs : FileSystem) (mode : Nat) (p : Path) :
    Adds mode (AtOrAbove p) fs (fs.createDirectories mode p).2 :=
  createDirectoriesUpTo_induction Adds.refl Adds.trans mode _ fs p adds_createDirectory

/-! ## 2. Binding where an entry was removed -/

/-- A place depends on directories and links only. -/
theorem place_of_keepsPassages (keeps : KeepsPassages fs fs') (working : fs'.working = fs.working)
    {found : Place} (placed : fs.place p = .ok found) : fs'.place p = .ok found := by
  obtain ⟨_, spelled, placed⟩ := bind_eq_ok.mp placed
  obtain ⟨directory, walked, placed⟩ := bind_eq_ok.mp placed
  refine bind_eq_ok.mpr ⟨_, spelled, bind_eq_ok.mpr ⟨directory, ?_, placed⟩⟩
  rw [working]
  split at walked
  · next single =>
    rw [walk_arrived rfl] at walked
    rw [if_pos single, walk_arrived rfl, Except.ok.inj walked]
  · next several =>
    rw [if_neg several]
    have rests : follow fs' directory [Path.dot] = .arrived directory := follow_dot fs' directory []
    simpa using walk_append keeps walked (walk_arrived rests 0)

/-- A path whose place goes when the entry at it is removed leads through that entry, which is a
link. -/
theorem place_erase {cause : SystemFault} (unlinks : fs.Unlinks p loc)
    (lost : (fs.erase loc).place p = .error cause) :
    ∃ target, fs.lookup loc = some (.symlink target) := by
  obtain ⟨directory, name, node, placed, _, found, noDirectory, _⟩ := unlinks
  by_cases plain : IsPassage node
  · cases node with
    | symlink target => exact ⟨target, found⟩
    | directory mode => cases noDirectory
    | file content => exact plain.elim
    | socket id => exact plain.elim
  · have kept : KeepsPassages fs (fs.erase loc) := by
      intro other node' passage stands
      have differs : other ≠ loc := by
        rintro rfl
        cases found.symm.trans stands
        exact plain passage
      rwa [lookup_erase_ne fs differs]
    cases lost.symm.trans (place_of_keepsPassages kept rfl placed)

theorem keeps_erase (fs : FileSystem) (nonempty : loc ≠ []) : Keeps (fs.erase loc) fs :=
  have lacks : LacksOnly (fs.erase loc) fs (· = loc) := .erase nonempty fun _ => Iff.rfl
  lacks.keeps

/-- Where an entry was removed no socket can be bound if the path is too long for one, or has lost
its place, or if the system refuses to have one made there. -/
theorem bind_erase (unlinks : fs.Unlinks p loc) :
    (∃ cause, (fs.erase loc).bind p = .error cause) ↔
      maxSocketPath ≤ p.bytes.length ∨ (∃ cause, (fs.erase loc).place p = .error cause) ∨
        ¬fs.Permits .make loc := by
  have names := unlinks.names
  obtain ⟨directory, name, _, placed, rfl, _⟩ := unlinks
  obtain ⟨_, spelled, _⟩ := bind_eq_ok.mp placed
  have noZero : Bytes.nul ∉ p.bytes := nul_notMem_of_place placed
  have nonempty : p.bytes ≠ [] := by
    intro empty
    rw [checkSpelling, if_neg noZero, if_pos empty] at spelled
    cases spelled
  by_cases long : maxSocketPath ≤ p.bytes.length
  · refine iff_of_true ⟨.socketPathTooLong, ?_⟩ (.inl long)
    rw [bind, checkSocketPath, if_neg noZero, if_pos long]
    rfl
  · have short : checkSocketPath p = .ok () := by
      rw [checkSocketPath, if_neg noZero, if_neg long]
    rw [bind, short, or_iff_right long]
    simp only [nonempty, if_false]
    cases found : (fs.erase (directory ++ [name])).place p with
    | error cause => exact iff_of_true ⟨cause, rfl⟩ (.inl ⟨cause, rfl⟩)
    | ok place =>
      cases placed.symm.trans (place_of_keeps (keeps_erase fs names.nonempty) rfl found)
      have same : (fs.erase (directory ++ [name])).refusal? = fs.refusal? := rfl
      simp only [Bind.bind, Except.bind, lookup_erase_self fs names.nonempty, unlessRefused, same]
      cases refused : fs.refusal? .make (directory ++ [name]) with
      | none => simp [refused]
      | some cause => simp [refused]

end Succession.FileSystem

namespace Succession.Endpoint

open FileSystem

variable {fs left : FileSystem} {p : Path} {loc : Location} {fault : Fault}

/-! ## 3. Sockets -/

/-- The paths above a path. -/
abbrev IsAbove (p above : Path) : Prop :=
  Relation.TransGen (fun q parent => q.parent? = some parent) p above

theorem adds_prepareParent (fs : FileSystem) (p : Path) :
    Adds directoryMode (IsAbove p) fs (prepareParent fs p).2 := by
  rw [prepareParent]
  split
  · next directory parent =>
    exact (adds_createDirectories fs directoryMode directory).mono
      fun further => .head' parent further
  · exact .refl fs

/-- An attempt to bind a socket to a path removes the entry at a location and puts nothing in its
place: the directories above the path are there, the path means something, the entry that it names
is no directory and may be removed, and without that entry no socket can be bound. That is so if the
path is too long for a socket, if it leads through the entry to the entry itself, which is then a
link, and if the system lets nothing be made there. -/
def Displaces (fs : FileSystem) (p : Path) (loc : Location) : Prop :=
  ∃ made, prepareParent fs p = (.ok (), made) ∧ made.exists? p = true ∧ made.Unlinks p loc ∧
    (maxSocketPath ≤ p.bytes.length ∨
      ((∃ target, made.lookup loc = some (.symlink target)) ∧
        ∃ cause, (made.erase loc).place p = .error cause) ∨
      ¬made.Permits .make loc)

theorem clearPath_cases {made cleared : FileSystem} (clear : clearPath made p = .ok cleared) :
    made.exists? p = false ∧ cleared = made ∨
      made.exists? p = true ∧ ∃ loc, made.Unlinks p loc ∧ cleared = made.erase loc := by
  rw [clearPath] at clear
  cases something : made.exists? p with
  | true =>
    rw [something, if_pos rfl] at clear
    exact .inr ⟨rfl, removeFile_eq_ok.mp clear⟩
  | false =>
    rw [something, if_neg Bool.false_ne_true] at clear
    exact .inl ⟨rfl, (Except.ok.inj clear).symm⟩

theorem create_of_blocked {made : FileSystem} {cause : SystemFault}
    (prepared : prepareParent fs p = (.ok (), made)) (blocked : clearPath made p = .error cause) :
    create fs p = (.error (.ipc ("failed to remove stale ipc socket " ++ p.display ++ ": " ++
      cause.message)), made) := by
  simp only [create, prepared, blocked]

theorem create_of_unbound {made cleared : FileSystem} {cause : SystemFault}
    (prepared : prepareParent fs p = (.ok (), made)) (clear : clearPath made p = .ok cleared)
    (unbound : cleared.bind p = .error cause) :
    create fs p = (.error (.ipc ("failed to bind ipc socket " ++ p.display ++ ": " ++
      cause.message)), cleared) := by
  simp only [create, prepared, clear, unbound]

/-- What failed, and what is left then. -/
theorem create_error_cases (failed : create fs p = (.error fault, left)) :
    ∃ made, (∃ cause, prepareParent fs p = (.error cause, made)) ∧ left = made ∨
      prepareParent fs p = (.ok (), made) ∧
        ((∃ cause, clearPath made p = .error cause) ∧ left = made ∨
          clearPath made p = .ok left ∧ ∃ cause, left.bind p = .error cause) := by
  rw [create] at failed
  split at failed
  · next cause made prepared =>
    cases failed
    exact ⟨_, .inl ⟨⟨cause, prepared⟩, rfl⟩⟩
  · next made prepared =>
    refine ⟨made, .inr ⟨prepared, ?_⟩⟩
    split at failed
    · next cause blocked =>
      cases failed
      exact .inl ⟨⟨cause, blocked⟩, rfl⟩
    · next cleared clear =>
      split at failed
      · next cause unbound =>
        cases failed
        exact .inr ⟨clear, cause, unbound⟩
      · cases failed

/-- What is left lacks what is displaced. -/
theorem lacksOnly_create (failed : create fs p = (.error fault, left)) :
    LacksOnly left (prepareParent fs p).2 (Displaces fs p) := by
  obtain ⟨made, ⟨⟨cause, prepared⟩, rfl⟩ | ⟨prepared, ⟨⟨cause, blocked⟩, rfl⟩ | ⟨clear, unbound⟩⟩⟩ :=
    create_error_cases failed
  · rw [prepared]
    refine .refl _ ?_
    rintro loc ⟨_, prepared', _⟩
    cases prepared.symm.trans prepared'
  · rw [prepared]
    refine .refl _ ?_
    rintro loc ⟨_, prepared', something, unlinks, _⟩
    cases prepared.symm.trans prepared'
    rw [clearPath, if_pos something, removeFile_eq_ok.mpr ⟨loc, unlinks, rfl⟩] at blocked
    cases blocked
  rw [prepared]
  rcases clearPath_cases clear with ⟨nothing, rfl⟩ | ⟨something, loc, unlinks, rfl⟩
  · refine .refl _ ?_
    rintro loc ⟨_, prepared', something, _⟩
    cases prepared.symm.trans prepared'
    cases nothing.symm.trans something
  · refine .erase unlinks.names.nonempty fun other => ⟨?_, ?_⟩
    · rintro ⟨_, prepared', _, others, _⟩
      cases prepared.symm.trans prepared'
      exact unlinks.names.unique others.names
    · rintro rfl
      refine ⟨made, prepared, something, unlinks, ?_⟩
      rcases (bind_erase unlinks).mp unbound with long | ⟨cause, lost⟩ | refused
      · exact .inl long
      · exact .inr (.inl ⟨place_erase unlinks lost, cause, lost⟩)
      · exact .inr (.inr refused)

/-- What is displaced stood before. -/
theorem Displaces.stood (displaces : Displaces fs p loc) :
    ∃ node, fs.lookup loc = some node ∧ node.isDirectory = false := by
  obtain ⟨made, prepared, _, ⟨_, _, node, _, _, found, noDirectory, _⟩, _⟩ := displaces
  have adds := adds_prepareParent fs p
  rw [prepared] at adds
  exact ⟨node, adds.stood found noDirectory, noDirectory⟩

/-- **A socket that cannot be bound may cost an entry.** Where no socket comes to be bound to a
path,

* everything that stood before stands after the directories above the path were made, as far as they
  could be, and whatever is new then is a directory with the rights 0700 that a path above names
  (`Adds`);
* what is left is this without the entry that is displaced, if one is: the path means something, the
  entry that it names is no directory and may be removed, and the path is too long for a socket, or
  leads through that entry, which is a link, to the entry itself, or the system lets nothing be made
  in the entry's place (`Displaces`);
* so everything that stood before is left exactly if no entry is displaced; a displaced entry stood
  before and is gone. -/
theorem failed_bind_displaces (failed : create fs p = (.error fault, left)) :
    Adds directoryMode (IsAbove p) fs (prepareParent fs p).2 ∧
      LacksOnly left (prepareParent fs p).2 (Displaces fs p) ∧
      (Keeps fs left ↔ ∀ loc, ¬Displaces fs p loc) ∧
      ∀ loc, Displaces fs p loc →
        left.lookup loc = none ∧ ∃ node, fs.lookup loc = some node ∧ node.isDirectory = false := by
  have adds := adds_prepareParent fs p
  have lacks := lacksOnly_create failed
  refine ⟨adds, lacks, ⟨fun keeps loc displaces => ?_, fun none loc node found => ?_⟩,
    fun loc displaces => ⟨lacks.lookup_of_gone displaces, displaces.stood⟩⟩
  · obtain ⟨node, stood, _⟩ := displaces.stood
    cases (keeps loc node stood).symm.trans (lacks.lookup_of_gone displaces)
  · exact (lacks.entries loc node).mpr ⟨adds.keeps loc node found, none loc⟩

/-- A directory `d` and a link `a` to it. -/
def yard : FileSystem :=
  { entries := [([[0x64]], .directory defaultMode), ([[0x61]], .symlink ⟨[0x64]⟩)] }

/-- `m/../a/../a`: it leads through a directory that is missing, and through the link. -/
def detour : Path :=
  ⟨Bytes.intercalate Path.separator [[0x6D], Path.dotDot, [0x61], Path.dotDot, [0x61]]⟩

/-- Where the path leads through the link that it names, the directory that was missing is made and
the link goes; where the path names a directory, everything stays. -/
theorem failed_bind_displaces_of_yard :
    (∃ left, create yard detour =
        (.error (.ipc ("failed to bind ipc socket " ++ detour.display ++ ": " ++
          SystemFault.notFound.message)), left) ∧
      left.lookup [[0x6D]] = some (.directory directoryMode) ∧
      left.lookup [[0x61]] = none ∧ ¬Keeps yard left) ∧
    ∃ left, create yard ⟨[0x64]⟩ =
        (.error (.ipc ("failed to remove stale ipc socket " ++ Path.display ⟨[0x64]⟩ ++ ": " ++
          SystemFault.isDirectory.message)), left) ∧ Keeps yard left := by
  constructor
  · let made := yard.put [[0x6D]] (.directory directoryMode)
    have prepared : prepareParent yard detour = (.ok (), made) := rfl
    have clear : clearPath made detour = .ok (made.erase [[0x61]]) := rfl
    have unbound : (made.erase [[0x61]]).bind detour = .error .notFound := rfl
    have failed := create_of_unbound prepared clear unbound
    have displaces : Displaces yard detour [[0x61]] :=
      ⟨made, prepared, rfl, ⟨_, _, _, rfl, rfl, rfl, rfl, rfl⟩, .inr (.inl ⟨⟨_, rfl⟩, _, rfl⟩)⟩
    obtain ⟨_, lacks, all, gone⟩ := failed_bind_displaces failed
    refine ⟨_, failed, ?_, (gone _ displaces).1, fun keeps => all.mp keeps _ displaces⟩
    refine (lacks.entries _ _).mpr ⟨congrArg (fun r => r.2.lookup [[0x6D]]) prepared, ?_⟩
    intro impossible
    obtain ⟨_, _, stood, _⟩ := gone _ impossible
    cases stood
  · have prepared : prepareParent yard ⟨[0x64]⟩ = (.ok (), yard) := rfl
    have blocked : clearPath yard ⟨[0x64]⟩ = .error .isDirectory := rfl
    have failed := create_of_blocked prepared blocked
    obtain ⟨_, _, all, _⟩ := failed_bind_displaces failed
    refine ⟨_, failed, all.mpr ?_⟩
    rintro loc ⟨made, prepared', _, ⟨_, _, _, placed, rfl, found, noDirectory, _⟩, _⟩
    cases prepared.symm.trans prepared'
    have names : yard.place ⟨[0x64]⟩ = .ok ⟨[], .name [0x64], false⟩ := rfl
    cases names.symm.trans placed
    cases found
    cases noDirectory

/-- A path that is just too long for a socket. -/
def longPath : Path := ⟨List.replicate maxSocketPath 0x6E⟩

/-- A file stands at it. -/
def shelf : FileSystem := { entries := [([longPath.bytes], .file [0x2A])] }

/-- The file goes although no socket is bound. -/
theorem long_path_costs_its_file :
    create shelf longPath =
        (.error (.ipc ("failed to bind ipc socket " ++ longPath.display ++ ": " ++
          SystemFault.socketPathTooLong.message)), {}) ∧
      shelf.lookup [longPath.bytes] = some (.file [0x2A]) ∧
      lookup {} [longPath.bytes] = none := by
  have prepared : prepareParent shelf longPath = (.ok (), shelf) := rfl
  have clear : clearPath shelf longPath = .ok {} := rfl
  have unbound : ({} : FileSystem).bind longPath = .error .socketPathTooLong := rfl
  exact ⟨create_of_unbound prepared clear unbound, by decide +kernel, rfl⟩

end Succession.Endpoint
