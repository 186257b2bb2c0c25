import Succession.Proofs.Channel.FailedBind

/-!
# Sockets that are bound over something

A socket is bound to a path in place of what stands there, whatever that is as long as it is no
directory: nobody asks whether it is a socket, or whether somebody listens on it
(`bind_supersedes`).

1. A path that leads to a socket names an entry that can be removed (`unlinks_of_stat`), and what is
   bound to a path is reached there (`connect_of_bind`).
2. The entry goes if the path means something (`Supersedes`), and nothing else goes
   (`lacksOnly_of_failed`, `lacksOnly_clearPath`).
3. So who reached a listener at the path does not reach it any more (`cut_off`), unless the
   directories above the path could not be made, or the system withholds what the path names.
-/

namespace Succession.FileSystem

variable {fs fs' : FileSystem} {p : Path} {loc : Location} {id : Nat} {listening : Nat → Bool}

/-! ## 1. Sockets at a path -/

/-- The numbers of the sockets were given out before. -/
def Numbered (fs : FileSystem) : Prop :=
  ∀ loc id, fs.lookup loc = some (.socket id) → id < fs.nextSocket

theorem connect_eq_ok :
    fs.connect listening p = .ok id ↔
      checkSocketPath p = .ok () ∧ p.bytes ≠ [] ∧ fs.stat p = .ok (.socket id) ∧
        listening id = true := by
  rw [connect, bind_eq_ok]
  constructor
  · rintro ⟨_, spelled, reached⟩
    by_cases empty : p.bytes = []
    · simp only [if_pos empty] at reached
      cases reached
    simp only [if_neg empty] at reached
    obtain ⟨node, stands, reached⟩ := bind_eq_ok.mp reached
    cases node with
    | socket other =>
      simp only at reached
      split at reached
      · next listens =>
        cases reached
        exact ⟨spelled, empty, stands, listens⟩
      · cases reached
    | _ => cases reached
  · rintro ⟨spelled, filled, stands, listens⟩
    refine ⟨(), spelled, ?_⟩
    simp only [if_neg filled]
    refine bind_eq_ok.mpr ⟨_, stands, ?_⟩
    simp only [if_pos listens]

theorem Numbered.lt_of_connect (numbered : fs.Numbered)
    (reached : fs.connect listening p = .ok id) : id < fs.nextSocket := by
  obtain ⟨_, _, stands, _⟩ := connect_eq_ok.mp reached
  obtain ⟨loc, _, found⟩ := bind_eq_ok.mp stands
  split at found
  · next node stood =>
    cases found
    exact numbered loc id stood
  · cases found

/-- What a path means does not change where more stands. -/
theorem stat_of_keeps {node : Node} (keeps : Keeps fs fs') (working : fs'.working = fs.working)
    (stands : fs.stat p = .ok node) : fs'.stat p = .ok node := by
  obtain ⟨loc, resolved, stands⟩ := bind_eq_ok.mp stands
  obtain ⟨_, spelled, walked⟩ := bind_eq_ok.mp resolved
  rw [← working] at walked
  refine bind_eq_ok.mpr ⟨loc, bind_eq_ok.mpr ⟨_, spelled, walk_of_keeps keeps walked⟩, ?_⟩
  cases found : fs.lookup loc with
  | none =>
    rw [found] at stands
    cases stands
  | some node' =>
    rw [found] at stands
    rw [keeps loc node' found]
    exact stands

theorem Adds.clear {paths : Path → Prop} {mode : Nat} (adds : Adds mode paths fs fs')
    (clear : fs.Clear loc) : fs'.Clear loc := by
  intro above node within found
  rcases adds.new above node found with before | ⟨rfl, _⟩
  · exact clear above node within before
  · rfl

/-- A path that means no directory names an entry that is none: what it means, or a link on the way
to it. -/
theorem unlinks_of_stat {node : Node} (clear : fs.Clear fs.working) (free : ¬fs.Withholds p)
    (stands : fs.stat p = .ok node) (noDirectory : node.isDirectory = false) :
    ∃ loc, fs.Unlinks p loc := by
  obtain ⟨loc, resolved, found⟩ := bind_eq_ok.mp stands
  rcases place_of_resolve resolved with ends | ⟨directory, name, links, placed, walked⟩
  · cases noDirectory.symm.trans (isDirectory_of_stat clear ends stands)
  obtain ⟨_, _, _, ordinary⟩ := place_name placed
  have step : follow fs directory [name] = _ := follow_name ordinary
  cases entry : fs.lookup (directory ++ [name]) with
  | none =>
    rw [entry] at step
    exact absurd step (follow_ne_failed walked _)
  | some entry' =>
    have names : fs.Names p (directory ++ [name]) := ⟨directory, name, false, placed, rfl⟩
    refine ⟨_, directory, name, entry', placed, rfl, entry, ?_, names.permits free⟩
    cases entry' with
    | directory mode =>
      -- then the path would mean this directory
      rw [entry] at step
      cases walk_unique walked (walk_arrived step 0)
      rw [entry] at found
      cases found
      cases noDirectory
    | _ => rfl

/-- Binding a socket places it under the next number at a place that was free, or nowhere if the
path is empty. -/
theorem bind_cases (bound : fs.bind p = .ok (id, fs')) :
    id = fs.nextSocket ∧ fs'.working = fs.working ∧
      (p.bytes = [] ∧ (∀ loc, fs'.lookup loc = fs.lookup loc) ∨
        ∃ directory name, fs.place p = .ok ⟨directory, .name name, false⟩ ∧
          fs.lookup (directory ++ [name]) = none ∧
          fs'.lookup (directory ++ [name]) = some (.socket id) ∧
          ∀ loc, loc ≠ directory ++ [name] → fs'.lookup loc = fs.lookup loc) := by
  obtain ⟨_, _, bound⟩ := bind_eq_ok.mp bound
  by_cases empty : p.bytes = []
  · simp only [if_pos empty] at bound
    cases bound
    exact ⟨rfl, rfl, .inl ⟨empty, fun _ => rfl⟩⟩
  simp only [if_neg empty] at bound
  obtain ⟨⟨directory, last, slash⟩, placed, bound⟩ := bind_eq_ok.mp bound
  cases last with
  | self => cases bound
  | up => cases bound
  | name name =>
    simp only at bound
    split at bound
    · cases bound
    · next free =>
      split at bound
      · cases bound
      · next noSlash =>
        cases (unlessRefused_eq_ok.mp bound).2
        rw [Bool.eq_false_iff.mpr noSlash] at placed
        have nonempty : directory ++ [name] ≠ [] := by simp
        refine ⟨rfl, rfl, .inr ⟨directory, name, placed, free, ?_, fun loc apart => ?_⟩⟩
        · exact lookup_put_self _ _ nonempty
        · exact lookup_put_ne _ _ apart

/-- Who connects to a path after a socket was bound to it reaches that socket. -/
theorem connect_of_bind (bound : fs.bind p = .ok (id, fs')) (filled : p.bytes ≠ []) :
    fs'.connect listening p = if listening id then .ok id else .error .connectionRefused := by
  obtain ⟨_, spelled, _⟩ := bind_eq_ok.mp bound
  obtain ⟨_, working, ⟨empty, _⟩ | ⟨directory, name, placed, free, stands, others⟩⟩ :=
    bind_cases bound
  · exact absurd empty filled
  have keeps : KeepsPassages fs fs' := by
    intro loc node _ found
    rwa [others loc fun same => by rw [same, free] at found; cases found]
  obtain ⟨_, _, _, ordinary⟩ := place_name placed
  have step : follow fs' directory [name] = .arrived (directory ++ [name]) := by
    rw [follow_name ordinary, stands]
  have walked :
      walk fs' (0 + maxLinks) (origin fs.working p) (steps p) = .ok (directory ++ [name]) :=
    walk_of_place keeps placed (walk_arrived step 0)
  obtain ⟨_, checked, _⟩ := bind_eq_ok.mp placed
  have resolved : fs'.resolve p = .ok (directory ++ [name]) := by
    rw [Nat.zero_add, ← working] at walked
    exact bind_eq_ok.mpr ⟨_, checked, walked⟩
  have meant : fs'.stat p = .ok (.socket id) := by
    refine bind_eq_ok.mpr ⟨_, resolved, ?_⟩
    rw [stands]
  rw [connect, spelled, meant]
  simp only [filled, if_false]
  rfl

end Succession.FileSystem

namespace Succession.Endpoint

open FileSystem

variable {fs left : FileSystem} {p : Path} {loc : Location} {fault : Fault} {number id : Nat}
  {listening : Nat → Bool}

/-! ## 2. What goes -/

/-- An attempt to bind a socket to a path removes the entry at a location: the directories above the
path are there, the path means something, and the entry that it names is no directory and may be
removed. -/
def Supersedes (fs : FileSystem) (p : Path) (loc : Location) : Prop :=
  ∃ made, prepareParent fs p = (.ok (), made) ∧ made.exists? p = true ∧ made.Unlinks p loc

/-- What a listener is bound over stood before. -/
theorem Supersedes.stood (supersedes : Supersedes fs p loc) :
    ∃ node, fs.lookup loc = some node ∧ node.isDirectory = false := by
  obtain ⟨made, prepared, _, ⟨_, _, node, _, _, found, noDirectory, _⟩⟩ := supersedes
  have adds := adds_prepareParent fs p
  rw [prepared] at adds
  exact ⟨node, adds.stood found noDirectory, noDirectory⟩

/-- Clearing a path takes away what is superseded. -/
theorem lacksOnly_clearPath {made cleared : FileSystem}
    (prepared : prepareParent fs p = (.ok (), made)) (clear : clearPath made p = .ok cleared) :
    LacksOnly cleared made (Supersedes fs p) := by
  rcases clearPath_cases clear with ⟨nothing, rfl⟩ | ⟨something, loc, unlinks, rfl⟩
  · refine .refl _ ?_
    rintro loc ⟨_, prepared', something, _⟩
    cases prepared.symm.trans prepared'
    cases nothing.symm.trans something
  · refine .erase unlinks.names.nonempty fun other => ⟨?_, ?_⟩
    · rintro ⟨_, prepared', _, others⟩
      cases prepared.symm.trans prepared'
      exact unlinks.names.unique others.names
    · rintro rfl
      exact ⟨made, prepared, something, unlinks⟩

/-- Where no socket comes to be bound, nothing else is gone. -/
theorem lacksOnly_of_failed (failed : create fs p = (.error fault, left)) :
    LacksOnly left (prepareParent fs p).2 (Supersedes fs p) := by
  obtain ⟨made, ⟨⟨cause, prepared⟩, rfl⟩ | ⟨prepared, ⟨⟨cause, blocked⟩, rfl⟩ | ⟨clear, _⟩⟩⟩ :=
    create_error_cases failed
  · rw [prepared]
    refine .refl _ ?_
    rintro loc ⟨_, prepared', _⟩
    cases prepared.symm.trans prepared'
  · rw [prepared]
    refine .refl _ ?_
    rintro loc ⟨_, prepared', something, unlinks⟩
    cases prepared.symm.trans prepared'
    rw [clearPath, if_pos something, removeFile_eq_ok.mpr ⟨loc, unlinks, rfl⟩] at blocked
    cases blocked
  · rw [prepared]
    exact lacksOnly_clearPath prepared clear

/-- A socket is bound after the directories were made and the path was cleared. -/
theorem create_eq_ok (created : create fs p = (.ok number, left)) :
    ∃ made cleared, prepareParent fs p = (.ok (), made) ∧ clearPath made p = .ok cleared ∧
      cleared.bind p = .ok (number, left) := by
  rw [create] at created
  split at created
  · cases created
  · next made prepared =>
    split at created
    · cases created
    · next cleared clear =>
      split at created
      · cases created
      · next id bound same =>
        cases created
        exact ⟨made, cleared, prepared, clear, same⟩

/-- A new socket has a number that was not given out before. -/
theorem number_of_create (created : create fs p = (.ok number, left)) : number = fs.nextSocket := by
  obtain ⟨made, cleared, prepared, clear, bound⟩ := create_eq_ok created
  have adds := adds_prepareParent fs p
  rw [prepared] at adds
  rw [(bind_cases bound).1, (lacksOnly_clearPath prepared clear).nextSocket, adds.nextSocket]

/-- The socket that was bound stands where the superseded entry stood, and all others stand as
before. -/
theorem lookup_of_created (created : create fs p = (.ok number, left)) :
    (Supersedes fs p loc → left.lookup loc = some (.socket number)) ∧
      (¬Supersedes fs p loc → ∀ node, fs.lookup loc = some node → left.lookup loc = some node) := by
  obtain ⟨made, cleared, prepared, clear, bound⟩ := create_eq_ok created
  have lacks := lacksOnly_clearPath prepared clear
  have adds := adds_prepareParent fs p
  rw [prepared] at adds
  obtain ⟨_, _, ⟨empty, same⟩ | ⟨directory, name, placed, free, stands, others⟩⟩ := bind_cases bound
  · constructor
    · -- nothing is removed at the empty path
      rintro ⟨_, _, _, ⟨_, _, _, placed, _⟩⟩
      obtain ⟨_, spelled, _⟩ := bind_eq_ok.mp placed
      rw [checkSpelling, empty] at spelled
      cases spelled
    · intro stays node found
      rw [same]
      exact (lacks.entries loc node).mpr ⟨adds.keeps loc node found, stays⟩
  · constructor
    · rintro ⟨_, prepared', _, unlinks⟩
      cases prepared.symm.trans prepared'
      have names : made.Names p (directory ++ [name]) :=
        ⟨directory, name, false, place_of_keeps lacks.keeps lacks.working placed, rfl⟩
      rw [← unlinks.names.unique names]
      exact stands
    · intro stays node found
      have kept := (lacks.entries loc node).mpr ⟨adds.keeps loc node found, stays⟩
      rw [others loc fun same => by rw [same, free] at kept; cases kept]
      exact kept

/-! ## 3. Who reached a listener -/

/-- Whatever leads to a listener is superseded once the directories above the path are there. -/
theorem supersedes_of_connect {made : FileSystem} (clear : fs.Clear fs.working)
    (reached : fs.connect listening p = .ok id) (prepared : prepareParent fs p = (.ok (), made))
    (free : ¬made.Withholds p) : ∃ loc, Supersedes fs p loc := by
  obtain ⟨_, _, stands, _⟩ := connect_eq_ok.mp reached
  have adds := adds_prepareParent fs p
  rw [prepared] at adds
  have stands' := stat_of_keeps adds.keeps adds.working stands
  have clear' : made.Clear made.working := adds.working ▸ adds.clear clear
  obtain ⟨loc, unlinks⟩ := unlinks_of_stat clear' free stands' rfl
  refine ⟨loc, made, prepared, ?_, unlinks⟩
  rw [exists?, stands']
  rfl

/-- Where a path was cleared it leads to no socket. -/
theorem connect_of_clearPath {made cleared : FileSystem} (clear : made.Clear made.working)
    (something : made.exists? p = true) (removed : clearPath made p = .ok cleared) :
    cleared.connect listening p ≠ .ok id := by
  intro reached
  rcases clearPath_cases removed with ⟨nothing, _⟩ | ⟨_, loc, unlinks, rfl⟩
  · cases nothing.symm.trans something
  obtain ⟨_, _, stands, _⟩ := connect_eq_ok.mp reached
  have keeps := keeps_erase made unlinks.names.nonempty
  have clear' : (made.erase loc).Clear (made.erase loc).working := clear.of_keeps keeps
  have free : ¬(made.erase loc).Withholds p := by
    rintro ⟨other, names, refused⟩
    exact unlinks.not_withholds ⟨other, names.of_keeps keeps rfl, refused⟩
  obtain ⟨other, directory, name, node, placed, rfl, found, _⟩ :=
    unlinks_of_stat clear' free stands rfl
  have names : made.Names p (directory ++ [name]) :=
    ⟨directory, name, false, place_of_keeps keeps rfl placed, rfl⟩
  rw [unlinks.names.unique names, lookup_erase_self made unlinks.names.nonempty] at found
  cases found

/-- Whoever reached a listener at the path reaches it no more, whoever listens then. -/
theorem cut_off {result : Except Fault Nat} {made : FileSystem} {listening' : Nat → Bool}
    (numbered : fs.Numbered) (clear : fs.Clear fs.working)
    (reached : fs.connect listening p = .ok id) (prepared : prepareParent fs p = (.ok (), made))
    (free : ¬made.Withholds p) (created : create fs p = (result, left)) :
    left.connect listening' p ≠ .ok id := by
  have adds := adds_prepareParent fs p
  rw [prepared] at adds
  have clear' : made.Clear made.working := adds.working ▸ adds.clear clear
  obtain ⟨loc, _, prepared', something, unlinks⟩ :=
    supersedes_of_connect clear reached prepared free
  cases prepared.symm.trans prepared'
  have removed : clearPath made p = .ok (made.erase loc) := by
    rw [clearPath, if_pos something]
    exact removeFile_eq_ok.mpr ⟨loc, unlinks, rfl⟩
  cases result with
  | error fault =>
    obtain ⟨_, ⟨⟨_, failed⟩, _⟩ | ⟨prepared', ⟨⟨_, blocked⟩, _⟩ | ⟨cleared, _⟩⟩⟩ :=
      create_error_cases created
    · cases prepared.symm.trans failed
    · cases prepared.symm.trans prepared'
      cases removed.symm.trans blocked
    · cases prepared.symm.trans prepared'
      exact connect_of_clearPath clear' something cleared
  | ok number =>
    obtain ⟨_, _, _, _, bound⟩ := create_eq_ok created
    rw [connect_of_bind bound (connect_eq_ok.mp reached).2.1, number_of_create created]
    split
    · intro same
      exact absurd (Except.ok.inj same) (Nat.ne_of_gt (numbered.lt_of_connect reached))
    · intro same
      cases same

/-- Where the directories above a path could not be made, or what it names is withheld, that is all
that was done. -/
theorem left_of_kept {result : Except Fault Nat} (created : create fs p = (result, left))
    (something : (prepareParent fs p).2.exists? p = true)
    (kept : (∃ cause, (prepareParent fs p).1 = .error cause) ∨ (prepareParent fs p).2.Withholds p) :
    left = (prepareParent fs p).2 := by
  rcases prepared : prepareParent fs p with ⟨outcome, made⟩
  rw [prepared] at something kept
  cases outcome with
  | error cause =>
    rw [create, prepared] at created
    exact (Prod.mk.inj created).2.symm
  | ok _ =>
    rcases kept with ⟨_, impossible⟩ | withheld
    · cases impossible
    cases removed : made.removeFile p with
    | ok fs' =>
      obtain ⟨loc, unlinks, _⟩ := removeFile_eq_ok.mp removed
      exact absurd withheld unlinks.not_withholds
    | error cause =>
      have blocked : clearPath made p = .error cause := by rw [clearPath, if_pos something, removed]
      cases created.symm.trans (create_of_blocked prepared blocked)
      rfl

/-- A socket that nobody listens on stands at a location. -/
def StaleAt (fs : FileSystem) (listening : Nat → Bool) (loc : Location) : Prop :=
  ∃ id, fs.lookup loc = some (.socket id) ∧ listening id = false

/-- **Whatever stands at the path of a socket is bound over.** An attempt to bind a socket to a path
leaves every entry as it was but one, if there is one: if the directories above the path are there
and the path means something, the entry that it names goes, unless that is a directory or the system
refuses to remove it (`Supersedes`).

* In its place stands the new socket, or nothing if no socket could be bound.
* Whoever connects to the path of a new socket reaches that socket.
* Whoever reached a listener there before reaches it no more, however long it goes on listening,
  unless the directories above the path could not be made, or the system withholds what it names.
* So only a socket that nobody listens on is removed exactly if that is what is superseded: nobody
  asks for it. -/
theorem bind_supersedes {result : Except Fault Nat} (numbered : fs.Numbered)
    (clear : fs.Clear fs.working) (created : create fs p = (result, left)) :
    (∀ loc node, fs.lookup loc = some node →
      (left.lookup loc = some node ↔ ¬Supersedes fs p loc)) ∧
    (∀ loc, Supersedes fs p loc →
      (∃ node, fs.lookup loc = some node ∧ node.isDirectory = false) ∧
        left.lookup loc = result.toOption.map .socket) ∧
    (∀ number, result = .ok number → p.bytes ≠ [] → ∀ listening,
      left.connect listening p =
        if listening number then .ok number else .error .connectionRefused) ∧
    (∀ listening id, fs.connect listening p = .ok id → ∀ listening', listening' id = true →
      (left.connect listening' p = .ok id ↔
        (∃ cause, (prepareParent fs p).1 = .error cause) ∨ (prepareParent fs p).2.Withholds p)) ∧
    ∀ listening,
      (∀ loc node, fs.lookup loc = some node →
        left.lookup loc = some node ∨ StaleAt fs listening loc) ↔
      ∀ loc, Supersedes fs p loc → StaleAt fs listening loc := by
  have adds := adds_prepareParent fs p
  have goes : ∀ loc, Supersedes fs p loc → left.lookup loc = result.toOption.map .socket := by
    intro loc supersedes
    cases result with
    | error fault => exact (lacksOnly_of_failed created).lookup_of_gone supersedes
    | ok number => exact (lookup_of_created created).1 supersedes
  have stays : ∀ loc node, fs.lookup loc = some node → ¬Supersedes fs p loc →
      left.lookup loc = some node := by
    intro loc node found apart
    cases result with
    | error fault =>
      exact ((lacksOnly_of_failed created).entries loc node).mpr ⟨adds.keeps loc node found, apart⟩
    | ok number => exact (lookup_of_created created).2 apart node found
  have exactly : ∀ loc node, fs.lookup loc = some node →
      (left.lookup loc = some node ↔ ¬Supersedes fs p loc) := by
    refine fun loc node found => ⟨fun same supersedes => ?_, stays loc node found⟩
    have put := goes loc supersedes
    cases result with
    | error fault => cases same.symm.trans put
    | ok number =>
      cases same.symm.trans put
      exact absurd (number_of_create created) (Nat.ne_of_lt (numbered loc number found))
  refine ⟨exactly, fun loc supersedes => ⟨supersedes.stood, goes loc supersedes⟩, ?_, ?_, ?_⟩
  · rintro number rfl filled listening
    obtain ⟨_, _, _, _, bound⟩ := create_eq_ok created
    exact connect_of_bind bound filled
  · intro listening id reached listening' listens
    obtain ⟨spelled, filled, stands, _⟩ := connect_eq_ok.mp reached
    have stands' := stat_of_keeps adds.keeps adds.working stands
    constructor
    · intro still
      rcases prepared : prepareParent fs p with ⟨_ | _, made⟩
      · exact .inl ⟨_, rfl⟩
      · refine .inr (Classical.byContradiction fun free => ?_)
        exact cut_off numbered clear reached prepared free created still
    · intro kept
      have something : (prepareParent fs p).2.exists? p = true := by rw [exists?, stands']; rfl
      rw [left_of_kept created something kept]
      exact connect_eq_ok.mpr ⟨spelled, filled, stands', listens⟩
  · intro listening
    constructor
    · intro only loc supersedes
      obtain ⟨node, found, _⟩ := supersedes.stood
      exact (only loc node found).resolve_left fun same =>
        (exactly loc node found).mp same supersedes
    · intro stale loc node found
      by_cases supersedes : Supersedes fs p loc
      · exact .inr (stale loc supersedes)
      · exact .inl ((exactly loc node found).mpr supersedes)

/-- A socket `s` that somebody listens on, a file `f` and a link `l` to it. -/
def quay : FileSystem :=
  { entries := [([[0x73]], .socket 0), ([[0x66]], .file [0x2A]), ([[0x6C]], .symlink ⟨[0x66]⟩)]
    nextSocket := 1 }

theorem numbered_quay : quay.Numbered := by
  intro loc id found
  rw [lookup] at found
  split at found
  · cases found
  · simp only [quay, List.lookup_cons, List.lookup_nil] at found
    split at found
    · cases found
      decide
    · split at found
      · cases found
      · split at found
        · cases found
        · cases found

/-- Somebody listens at `s`, and is cut off by a second socket there. -/
theorem bind_supersedes_of_quay :
    quay.Numbered ∧ quay.Clear quay.working ∧ ∃ left, create quay ⟨[0x73]⟩ = (.ok 1, left) ∧
      quay.connect (fun _ => true) ⟨[0x73]⟩ = .ok 0 ∧
      left.connect (fun _ => true) ⟨[0x73]⟩ = .ok 1 ∧
      left.connect (fun _ => true) ⟨[0x73]⟩ ≠ .ok 0 ∧
      left.lookup [[0x66]] = some (.file [0x2A]) := by
  have clear : quay.Clear quay.working := clear_nil quay
  have created : create quay ⟨[0x73]⟩ = (.ok 1, (create quay ⟨[0x73]⟩).2) := Prod.ext rfl rfl
  have reached : quay.connect (fun _ => true) ⟨[0x73]⟩ = .ok 0 := rfl
  obtain ⟨exactly, _, renewed, cut, _⟩ := bind_supersedes numbered_quay clear created
  refine ⟨numbered_quay, clear, _, created, reached, renewed 1 rfl (by decide) _, ?_, ?_⟩
  · intro still
    rcases (cut _ 0 reached _ rfl).mp still with ⟨_, failed⟩ | ⟨_, _, refused⟩
    · cases failed
    · exact refused rfl
  · refine (exactly [[0x66]] _ rfl).mpr ?_
    rintro ⟨made, prepared, _, ⟨_, _, _, placed, same, _⟩⟩
    cases prepared
    cases placed
    cases same

/-- A listener, a file and a link are bound over alike, and the listener is not reached any more. -/
theorem live_listener_is_cut_off :
    let everybody : Nat → Bool := fun _ => true
    (quay.connect everybody ⟨[0x73]⟩ = .ok 0 ∧
      (create quay ⟨[0x73]⟩).2.connect everybody ⟨[0x73]⟩ = .ok 1) ∧
    (quay.lookup [[0x66]] = some (.file [0x2A]) ∧
      (create quay ⟨[0x66]⟩).2.lookup [[0x66]] = some (.socket 1)) ∧
    quay.lookup [[0x6C]] = some (.symlink ⟨[0x66]⟩) ∧
      (create quay ⟨[0x6C]⟩).2.lookup [[0x6C]] = some (.socket 1) := by
  exact ⟨⟨rfl, rfl⟩, ⟨rfl, rfl⟩, rfl, rfl⟩

end Succession.Endpoint
