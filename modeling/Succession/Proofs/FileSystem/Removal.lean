import Succession.Proofs.FileSystem.Frame

/-!
# Removing entries

Removing a file takes the entry away that its path names: a link at the end itself, and not what
the link leads to. Removing a directory takes it away if it is empty. Either may be refused.

1. Nothing else is different then (`LacksOnly`, `lacksOnly_removeFile`,
   `lacksOnly_removeDirectory`).
2. Where a walk still arrives when something has gone, it arrives where it did (`walk_of_keeps`,
   `place_of_keeps`).
3. A path that ends in no name of its own leads through directories, and so it can only mean a
   directory itself (`follow_clear`, `isDirectory_of_stat`).
4. So what a removed path still means is a directory, unless the system withholds the entry that the
   path names (`isDirectory_of_unlinked`).
-/

namespace Succession.FileSystem

variable {fs fs' : FileSystem} {p : Path} {loc : Location}

/-- A path names an entry at a location that is no directory and may be removed. With a slash at
its end the path would ask for a directory. -/
def Unlinks (fs : FileSystem) (p : Path) (loc : Location) : Prop :=
  ∃ directory name node, fs.place p = .ok ⟨directory, .name name, false⟩ ∧
    loc = directory ++ [name] ∧ fs.lookup loc = some node ∧ node.isDirectory = false ∧
    fs.Permits .remove loc

/-- A path names a location, and the system refuses to remove what stands there. -/
def Withholds (fs : FileSystem) (p : Path) : Prop :=
  ∃ loc, fs.Names p loc ∧ ¬fs.Permits .remove loc

/-- The first file system is the second one without the entries at some locations. -/
structure LacksOnly (fs' fs : FileSystem) (gone : Location → Prop) : Prop where
  working : fs'.working = fs.working
  nextSocket : fs'.nextSocket = fs.nextSocket
  refusals : fs'.refusals = fs.refusals
  entries : ∀ loc node, fs'.lookup loc = some node ↔ fs.lookup loc = some node ∧ ¬gone loc

/-- Whatever stands at a location and above it is a directory. -/
def Clear (fs : FileSystem) (loc : Location) : Prop :=
  ∀ above node, above <+: loc → fs.lookup above = some node → node.isDirectory = true

/-- The last name, if there is one, is one of the two that every directory has. -/
def EndInDirectory (names : List Bytes) : Prop :=
  ∀ last, names.getLast? = some last → last = Path.dot ∨ last = Path.dotDot

/-! ## 1. What is gone -/

namespace LacksOnly

variable {gone gone' : Location → Prop}

theorem refl (fs : FileSystem) (stays : ∀ loc, ¬gone loc) : LacksOnly fs fs gone :=
  ⟨rfl, rfl, rfl, fun loc _ => (and_iff_left (stays loc)).symm⟩

theorem erase (nonempty : loc ≠ []) (only : ∀ other, gone other ↔ other = loc) :
    LacksOnly (fs.erase loc) fs gone := by
  refine ⟨rfl, rfl, rfl, fun other node => ?_⟩
  rw [only]
  by_cases same : other = loc
  · rw [same, lookup_erase_self fs nonempty]
    simp
  · rw [lookup_erase_ne fs same]
    simp [same]

theorem keeps (lacks : LacksOnly fs' fs gone) : Keeps fs' fs :=
  fun loc node found => ((lacks.entries loc node).mp found).1

theorem trans {middle : FileSystem} (first : LacksOnly middle fs gone)
    (second : LacksOnly fs' middle gone') :
    LacksOnly fs' fs fun loc => gone loc ∨ gone' loc := by
  refine ⟨second.working.trans first.working, second.nextSocket.trans first.nextSocket,
    second.refusals.trans first.refusals, fun loc node => ?_⟩
  rw [second.entries, first.entries, not_or, and_assoc]

theorem lookup_of_gone (lacks : LacksOnly fs' fs gone) (went : gone loc) :
    fs'.lookup loc = none := by
  cases found : fs'.lookup loc with
  | none => rfl
  | some node => exact absurd went ((lacks.entries loc node).mp found).2

end LacksOnly

theorem Unlinks.names (unlinks : fs.Unlinks p loc) : fs.Names p loc := by
  obtain ⟨directory, name, _, placed, same, _⟩ := unlinks
  exact ⟨directory, name, false, placed, same⟩

/-- A path names one location. -/
theorem Names.unique {loc' : Location} (names : fs.Names p loc) (names' : fs.Names p loc') :
    loc' = loc := by
  obtain ⟨directory, name, slash, placed, rfl⟩ := names
  obtain ⟨directory', name', slash', placed', rfl⟩ := names'
  cases placed.symm.trans placed'
  rfl

theorem removeFile_eq_ok :
    removeFile fs p = .ok fs' ↔ ∃ loc, fs.Unlinks p loc ∧ fs' = fs.erase loc := by
  constructor
  · intro removed
    obtain ⟨⟨directory, last, slash⟩, placed, removed⟩ := bind_eq_ok.mp removed
    cases last with
    | self => cases removed
    | up => cases removed
    | name name =>
      simp only at removed
      split at removed
      · cases removed
      · cases removed
      · next node noDirectory found =>
        split at removed
        · cases removed
        · next noSlash =>
          obtain ⟨permitted, rfl⟩ := unlessRefused_eq_ok.mp removed
          refine ⟨directory ++ [name], ⟨directory, name, node, ?_, rfl, found, ?_, permitted⟩, rfl⟩
          · rw [placed, Bool.eq_false_iff.mpr noSlash]
          · cases node with
            | directory mode => exact absurd rfl (noDirectory mode)
            | _ => rfl
  · rintro ⟨loc, ⟨directory, name, node, placed, rfl, found, noDirectory, permitted⟩, rfl⟩
    refine bind_eq_ok.mpr ⟨_, placed, ?_⟩
    simp only [found]
    cases node with
    | directory mode => cases noDirectory
    | _ => exact unlessRefused_of_permits permitted _

theorem Unlinks.permits (unlinks : fs.Unlinks p loc) : fs.Permits .remove loc := by
  obtain ⟨_, _, _, _, _, _, _, permitted⟩ := unlinks
  exact permitted

/-- What a path names is withheld, or it may be removed. -/
theorem Names.permits (names : fs.Names p loc) (free : ¬fs.Withholds p) :
    fs.Permits .remove loc :=
  Decidable.not_not.mp fun refused => free ⟨loc, names, refused⟩

theorem Unlinks.not_withholds (unlinks : fs.Unlinks p loc) : ¬fs.Withholds p := by
  rintro ⟨other, names, refused⟩
  rw [unlinks.names.unique names] at refused
  exact refused unlinks.permits

/-- Names that can still be followed are followed to where they led. -/
theorem follow_of_keeps (keeps : Keeps fs' fs) {names : List Bytes}
    (goes : ∀ cause, follow fs' loc names ≠ .failed cause) :
    follow fs loc names = follow fs' loc names := by
  induction names generalizing loc with
  | nil => rfl
  | cons name rest ih =>
    rcases name_cases name with rfl | rfl | long | ordinary
    · rw [follow_dot] at goes
      rw [follow_dot, follow_dot]
      exact ih goes
    · rw [follow_dotDot] at goes
      rw [follow_dotDot, follow_dotDot]
      exact ih goes
    · exact absurd (follow_long long fs' loc rest) (goes _)
    rw [follow_ordinary ordinary] at goes
    rw [follow_ordinary ordinary, follow_ordinary ordinary]
    cases found : fs'.lookup (loc ++ [name]) with
    | none =>
      rw [found] at goes
      exact absurd rfl (goes _)
    | some node =>
      rw [keeps _ node found]
      rw [found] at goes
      cases node with
      | directory mode => exact ih goes
      | _ => rfl

/-- A walk that arrives has not failed at its first step. -/
theorem follow_ne_failed {links : Nat} {names : List Bytes} {dest : Location}
    (arrives : walk fs links loc names = .ok dest) (cause : SystemFault) :
    follow fs loc names ≠ .failed cause := by
  intro failed
  rcases walk_cases arrives with step | ⟨_, _, _, _, _, step, _⟩
  · cases failed.symm.trans step
  · cases failed.symm.trans step

theorem walk_of_keeps (keeps : Keeps fs' fs) {links : Nat} {names : List Bytes} {dest : Location}
    (arrives : walk fs' links loc names = .ok dest) : walk fs links loc names = .ok dest := by
  induction links using Nat.strongRecOn generalizing loc names with
  | ind links ih =>
    have same := follow_of_keeps keeps (follow_ne_failed arrives)
    rcases walk_cases arrives with step | ⟨fewer, here, target, rest, rfl, step, later⟩
    · exact walk_arrived (same.trans step) _
    · rw [walk_link (same.trans step)]
      exact ih fewer (Nat.lt_succ_self _) later

/-- A path that still has a place has the place it had. -/
theorem place_of_keeps (keeps : Keeps fs' fs) (working : fs'.working = fs.working) {found : Place}
    (placed : fs'.place p = .ok found) : fs.place p = .ok found := by
  obtain ⟨_, spelled, placed⟩ := bind_eq_ok.mp placed
  obtain ⟨directory, walked, placed⟩ := bind_eq_ok.mp placed
  rw [working] at walked
  exact bind_eq_ok.mpr ⟨_, spelled, bind_eq_ok.mpr ⟨directory, walk_of_keeps keeps walked, placed⟩⟩

/-! ## 3. Paths that can only be directories -/

theorem clear_nil (fs : FileSystem) : fs.Clear [] := by
  intro above node above_nil found
  rw [List.prefix_nil.mp above_nil] at found
  cases found
  rfl

theorem Clear.dropLast (clear : fs.Clear loc) : fs.Clear loc.dropLast :=
  fun above node within => clear above node (within.trans (List.dropLast_prefix loc))

theorem Clear.enter {name : Bytes} {mode : Nat} (clear : fs.Clear loc)
    (found : fs.lookup (loc ++ [name]) = some (.directory mode)) : fs.Clear (loc ++ [name]) := by
  intro above node within stands
  rcases List.prefix_concat_iff.mp within with rfl | within
  · cases found.symm.trans stands
    rfl
  · exact clear above node within stands

theorem Clear.of_keeps (clear : fs.Clear loc) (keeps : Keeps fs' fs) : fs'.Clear loc :=
  fun above node within found => clear above node within (keeps above node found)

theorem Clear.origin {base : Location} (clear : fs.Clear base) (p : Path) :
    fs.Clear (origin base p) := by
  rw [FileSystem.origin]
  split
  · exact clear_nil fs
  · exact clear

theorem EndInDirectory.tail {name : Bytes} {rest : List Bytes}
    (ends : EndInDirectory (name :: rest)) : EndInDirectory rest := by
  intro last final
  refine ends last ?_
  rw [List.getLast?_cons, final]
  rfl

theorem EndInDirectory.append {rest : List Bytes} (ends : EndInDirectory rest) (more : rest ≠ [])
    (names : List Bytes) : EndInDirectory (names ++ rest) := by
  intro last final
  have final' := List.getLast?_eq_some_getLast more
  rw [List.getLast?_append, final'] at final
  cases final
  exact ends _ final'

/-- An ordinary name is not the last one. -/
theorem EndInDirectory.more {name : Bytes} {rest : List Bytes}
    (ends : EndInDirectory (name :: rest)) (self : name ≠ Path.dot) (up : name ≠ Path.dotDot) :
    rest ≠ [] := by
  rintro rfl
  rcases ends name rfl with same | same
  · exact self same
  · exact up same

/-- Names that end in a directory lead through directories. -/
theorem follow_clear {names : List Bytes} (ends : EndInDirectory names) (clear : fs.Clear loc) :
    match follow fs loc names with
    | .arrived dest => fs.Clear dest
    | .link here _ rest => fs.Clear here ∧ EndInDirectory rest ∧ rest ≠ []
    | .failed _ => True := by
  induction names generalizing loc with
  | nil => exact clear
  | cons name rest ih =>
    rcases name_cases name with rfl | rfl | long | ordinary
    · rw [follow_dot]
      exact ih ends.tail clear
    · rw [follow_dotDot]
      exact ih ends.tail clear.dropLast
    · rw [follow_long long]
      trivial
    have more := ends.more ordinary.1 ordinary.2.1
    rw [follow_ordinary ordinary]
    cases found : fs.lookup (loc ++ [name]) with
    | none => trivial
    | some node =>
      cases node with
      | directory mode => exact ih ends.tail (clear.enter found)
      | symlink target => exact ⟨clear, ends.tail, more⟩
      | file content => simp [more]
      | socket id => simp [more]

theorem walk_clear {links : Nat} {names : List Bytes} {dest : Location}
    (ends : EndInDirectory names) (clear : fs.Clear loc)
    (arrives : walk fs links loc names = .ok dest) : fs.Clear dest := by
  induction links using Nat.strongRecOn generalizing loc names with
  | ind links ih =>
    have led := follow_clear ends clear
    rcases walk_cases arrives with step | ⟨fewer, here, target, rest, rfl, step, later⟩
    · rw [step] at led
      exact led
    · rw [step] at led
      obtain ⟨clear', ends', more⟩ := led
      exact ih fewer (Nat.lt_succ_self _) (ends'.append more _) (clear'.origin target) later

/-- A path that ends in `.`, `..` or a slash, or leads to the root, can only mean a directory. -/
theorem isDirectory_of_stat {node : Node} (clear : fs.Clear fs.working)
    (ends : EndInDirectory (steps p)) (stands : fs.stat p = .ok node) :
    node.isDirectory = true := by
  obtain ⟨loc, resolved, stands⟩ := bind_eq_ok.mp stands
  obtain ⟨_, _, walked⟩ := bind_eq_ok.mp resolved
  have clear' := walk_clear ends (clear.origin p) walked
  split at stands
  · next node' found =>
    cases stands
    exact clear' loc node List.prefix_rfl found
  · cases stands

/-! ## 4. What a removed path still means -/

/-- Names that fail before the last one fail whatever comes last. -/
theorem follow_failed {names later : List Bytes} {cause : SystemFault} (more : later ≠ [])
    (failed : follow fs loc (names ++ [Path.dot]) = .failed cause) :
    follow fs loc (names ++ later) = .failed cause := by
  induction names generalizing loc with
  | nil => simp [follow] at failed
  | cons name names ih =>
    rw [List.cons_append] at failed ⊢
    rcases name_cases name with rfl | rfl | long | ordinary
    · rw [follow_dot] at failed ⊢
      exact ih failed
    · rw [follow_dotDot] at failed ⊢
      exact ih failed
    · rw [follow_long long] at failed ⊢
      exact failed
    rw [follow_ordinary ordinary] at failed ⊢
    cases found : fs.lookup (loc ++ [name]) with
    | none =>
      rw [found] at failed
      exact failed
    | some node =>
      rw [found] at failed
      cases node with
      | directory mode => exact ih failed
      | symlink target => cases failed
      | file content => simpa [more] using failed
      | socket id => simpa [more] using failed

/-- A walk that arrives comes by the directory that the names before the last ones lead to. -/
theorem walk_split {links : Nat} {names later : List Bytes} {dest : Location} (more : later ≠ [])
    (arrives : walk fs links loc (names ++ later) = .ok dest) :
    ∃ middle others, walk fs links loc (names ++ [Path.dot]) = .ok middle ∧
      walk fs others middle later = .ok dest := by
  induction links using Nat.strongRecOn generalizing loc names with
  | ind links ih =>
    have resumed := follow_append (fun _ _ _ found => found : KeepsPassages fs fs) loc names later
    cases part : follow fs loc (names ++ [Path.dot]) with
    | failed cause => exact absurd (follow_failed more part) (follow_ne_failed arrives cause)
    | arrived middle =>
      rw [part] at resumed
      rw [walk_congr resumed] at arrives
      exact ⟨middle, links, walk_arrived part links, arrives⟩
    | link here target rest =>
      rw [part] at resumed
      obtain ⟨before, rfl, whole⟩ := resumed
      rcases walk_cases arrives with step | ⟨fewer, _, _, _, rfl, step, later'⟩
      · cases whole.symm.trans step
      · cases whole.symm.trans step
        rw [← List.append_assoc] at later'
        obtain ⟨middle, others, walked, last⟩ := ih fewer (Nat.lt_succ_self _) later'
        refine ⟨middle, others, ?_, last⟩
        rw [walk_link part, ← List.append_assoc]
        exact walked

/-- A path that means an entry ends in a directory, or in the name of that entry or of a link to
it. -/
theorem place_of_resolve (resolved : fs.resolve p = .ok loc) :
    EndInDirectory (steps p) ∨ ∃ directory name links,
      fs.place p = .ok ⟨directory, .name name, false⟩ ∧
        walk fs links directory [name] = .ok loc := by
  obtain ⟨_, spelled, walked⟩ := bind_eq_ok.mp resolved
  cases final : (steps p).getLast? with
  | none =>
    exact .inl fun last named => nomatch final.symm.trans named
  | some name =>
  by_cases self : name = Path.dot
  · exact .inl fun last named => .inl (Option.some.inj (named.symm.trans final) ▸ self)
  by_cases up : name = Path.dotDot
  · exact .inl fun last named => .inr (Option.some.inj (named.symm.trans final) ▸ up)
  right
  have noSlash : ¬ p.bytes.getLast? = some Path.separator := by
    intro slash
    rw [steps, if_pos slash, List.getLast?_concat] at final
    exact self (Option.some.inj final).symm
  have names : steps p = p.names.filter (· ≠ []) := by rw [steps, if_neg noSlash]
  obtain ⟨before, split⟩ := List.getLast?_eq_some_iff.mp final
  rw [split] at walked
  obtain ⟨directory, links, first, last⟩ := walk_split (List.cons_ne_nil _ _) walked
  have short : ¬ maxName < name.length := by
    intro long
    exact follow_ne_failed last _ (follow_long ⟨self, up, long⟩ fs directory [])
  refine ⟨directory, name, links, ?_, last⟩
  refine bind_eq_ok.mpr ⟨_, spelled, bind_eq_ok.mpr ⟨directory, ?_, ?_⟩⟩
  · rw [← names, split]
    cases before with
    | nil => exact first
    | cons head tail =>
      rw [if_neg (by simp), List.dropLast_concat]
      exact first
  · rw [← names, split, List.getLast?_concat]
    simp only [if_neg self, if_neg up, if_neg short, noSlash]
    rfl

end Succession.FileSystem
