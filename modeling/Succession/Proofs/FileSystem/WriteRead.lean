import Succession.FileSystem.Operations
import Succession.Proofs.Outcome

/-!
# What is written to a file is what is read from it

Writing resolves a path in its own way: it follows the links at the end one by one and may make a
new entry. Reading walks the whole path. Both reach the same entry (`walk_of_placeOfFile`), since
a walk meets only directories and links until its last name, and writing changes none of those.

`walk` counts the links it follows, so the same path may be walked with more links to spare
(`walk_add`); with different numbers to spare it never ends at different places (`walk_unique`).
-/

namespace Succession.FileSystem

/-! ## Following one name -/

/-- A name is `.` or `..`, or too long, or one that is looked up. -/
theorem name_cases (name : Bytes) :
    name = Path.dot ∨ name = Path.dotDot ∨
      name ≠ Path.dot ∧ name ≠ Path.dotDot ∧ maxName < name.length ∨
      name ≠ Path.dot ∧ name ≠ Path.dotDot ∧ name.length ≤ maxName := by
  by_cases self : name = Path.dot
  · exact .inl self
  by_cases up : name = Path.dotDot
  · exact .inr (.inl up)
  rcases Nat.lt_or_ge maxName name.length with long | short
  · exact .inr (.inr (.inl ⟨self, up, long⟩))
  · exact .inr (.inr (.inr ⟨self, up, short⟩))

theorem follow_dot (fs : FileSystem) (loc : Location) (rest : List Bytes) :
    follow fs loc (Path.dot :: rest) = follow fs loc rest := by
  rw [follow, if_pos rfl]

theorem follow_dotDot (fs : FileSystem) (loc : Location) (rest : List Bytes) :
    follow fs loc (Path.dotDot :: rest) = follow fs loc.dropLast rest := by
  rw [follow, if_neg (by decide), if_pos rfl]

theorem follow_long {name : Bytes}
    (long : name ≠ Path.dot ∧ name ≠ Path.dotDot ∧ maxName < name.length) (fs : FileSystem)
    (loc : Location) (rest : List Bytes) :
    follow fs loc (name :: rest) = .failed .nameTooLong := by
  rw [follow, if_neg long.1, if_neg long.2.1, if_pos long.2.2]

/-- A name that is none of the two special ones is looked up. -/
theorem follow_ordinary {name : Bytes}
    (ordinary : name ≠ Path.dot ∧ name ≠ Path.dotDot ∧ name.length ≤ maxName) (fs : FileSystem)
    (loc : Location) (rest : List Bytes) :
    follow fs loc (name :: rest) =
      match fs.lookup (loc ++ [name]) with
      | none => .failed .notFound
      | some (.directory _) => follow fs (loc ++ [name]) rest
      | some (.symlink target) => .link loc target rest
      | some _ => if rest = [] then .arrived (loc ++ [name]) else .failed .notDirectory := by
  obtain ⟨self, up, short⟩ := ordinary
  cases found : fs.lookup (loc ++ [name]) with
  | none => simp only [follow, self, up, Nat.not_lt.mpr short, if_false, found]
  | some node =>
    cases node <;> simp only [follow, self, up, Nat.not_lt.mpr short, if_false, found]

/-! ## Walking with links to spare -/

theorem walk_arrived {fs : FileSystem} {loc dest : Location} {names : List Bytes}
    (step : follow fs loc names = .arrived dest) (links : Nat) :
    walk fs links loc names = .ok dest := by
  unfold walk
  simp only [step]

theorem walk_link {fs : FileSystem} {loc here : Location} {target : Path} {names rest : List Bytes}
    (step : follow fs loc names = .link here target rest) (links : Nat) :
    walk fs (links + 1) loc names = walk fs links (origin here target) (steps target ++ rest) := by
  rw [walk]
  simp only [step]

/-- A walk arrives at once, or it goes on after a link. -/
theorem walk_cases {fs : FileSystem} {links : Nat} {loc dest : Location} {names : List Bytes}
    (arrives : walk fs links loc names = .ok dest) :
    follow fs loc names = .arrived dest ∨
      ∃ fewer here target rest, links = fewer + 1 ∧ follow fs loc names = .link here target rest ∧
        walk fs fewer (origin here target) (steps target ++ rest) = .ok dest := by
  cases step : follow fs loc names with
  | arrived found =>
    rw [walk_arrived step] at arrives
    exact .inl (congrArg Step.arrived (Except.ok.inj arrives))
  | failed cause =>
    unfold walk at arrives
    simp [step] at arrives
  | link here target rest =>
    cases links with
    | zero =>
      unfold walk at arrives
      simp [step] at arrives
    | succ fewer =>
      rw [walk_link step] at arrives
      exact .inr ⟨fewer, here, target, rest, rfl, rfl, arrives⟩

theorem walk_congr {fs : FileSystem} {loc loc' : Location} {names names' : List Bytes}
    (same : follow fs loc names = follow fs loc' names') (links : Nat) :
    walk fs links loc names = walk fs links loc' names' := by
  unfold walk
  simp only [same]

theorem walk_succ {fs : FileSystem} {links : Nat} {loc dest : Location} {names : List Bytes}
    (arrives : walk fs links loc names = .ok dest) : walk fs (links + 1) loc names = .ok dest := by
  induction links generalizing loc names with
  | zero =>
    rcases walk_cases arrives with step | ⟨fewer, _, _, _, impossible, _⟩
    · exact walk_arrived step _
    · cases impossible
  | succ links ih =>
    rcases walk_cases arrives with step | ⟨fewer, here, target, rest, same, step, later⟩
    · exact walk_arrived step _
    · cases same
      rw [walk_link step]
      exact ih later

theorem walk_add {fs : FileSystem} {links : Nat} {loc dest : Location} {names : List Bytes}
    (arrives : walk fs links loc names = .ok dest) (more : Nat) :
    walk fs (links + more) loc names = .ok dest := by
  induction more with
  | zero => exact arrives
  | succ more ih => exact walk_succ ih

theorem walk_unique {fs : FileSystem} {links others : Nat} {loc dest dest' : Location}
    {names : List Bytes} (first : walk fs links loc names = .ok dest)
    (second : walk fs others loc names = .ok dest') : dest = dest' := by
  have both := walk_add first others
  rw [Nat.add_comm, walk_add second links] at both
  exact (Except.ok.inj both).symm

/-! ## Walking in another file system -/

/-- Whether an entry may stand on the way to another. -/
def IsPassage : Node → Prop
  | .directory _ | .symlink _ => True
  | _ => False

/-- Whether all directories and links of one file system are those of another. -/
def KeepsPassages (fs fs' : FileSystem) : Prop :=
  ∀ loc node, IsPassage node → fs.lookup loc = some node → fs'.lookup loc = some node

variable {fs fs' : FileSystem}

/-- What a step that ended in `.` says about the way with other names in place of the `.`. -/
def Step.Resumed (fs' : FileSystem) (later : List Bytes) (whole : Step) : Step → Prop
  | .arrived dest => whole = follow fs' dest later
  | .link here target rest =>
    ∃ before, rest = before ++ [Path.dot] ∧ whole = .link here target (before ++ later)
  | .failed _ => True

/-- A way that ends in `.` leads through directories only, so other names can take the place of
the `.`. -/
theorem follow_append (keeps : KeepsPassages fs fs') (loc : Location) (names later : List Bytes) :
    Step.Resumed fs' later (follow fs' loc (names ++ later))
      (follow fs loc (names ++ [Path.dot])) := by
  induction names generalizing loc with
  | nil =>
    rw [List.nil_append, List.nil_append]
    have stays : follow fs loc [Path.dot] = .arrived loc := by simp [follow]
    rw [stays]
    rfl
  | cons first names ih =>
    rw [List.cons_append, List.cons_append]
    rcases name_cases first with rfl | rfl | long | ordinary
    · rw [follow_dot, follow_dot]
      exact ih loc
    · rw [follow_dotDot, follow_dotDot]
      exact ih loc.dropLast
    · rw [follow_long long, follow_long long]
      trivial
    rw [follow_ordinary ordinary, follow_ordinary ordinary]
    cases found : fs.lookup (loc ++ [first]) with
    | none => trivial
    | some node =>
      cases node with
      | directory mode =>
        rw [keeps _ (.directory mode) trivial found]
        exact ih (loc ++ [first])
      | symlink target =>
        rw [keeps _ (.symlink target) trivial found]
        exact ⟨names, rfl, rfl⟩
      | file content => simp [Step.Resumed]
      | socket id => simp [Step.Resumed]

theorem walk_append (keeps : KeepsPassages fs fs') {links more : Nat} {loc middle dest : Location}
    {names later : List Bytes} (first : walk fs links loc (names ++ [Path.dot]) = .ok middle)
    (second : walk fs' more middle later = .ok dest) :
    walk fs' (more + links) loc (names ++ later) = .ok dest := by
  have resumed := follow_append keeps loc names later
  induction links generalizing loc names with
  | zero =>
    rcases walk_cases first with step | ⟨_, _, _, _, impossible, _⟩
    · rw [step] at resumed
      rw [walk_congr resumed]
      exact second
    · cases impossible
  | succ links ih =>
    rcases walk_cases first with step | ⟨fewer, here, target, rest, same, step, onward⟩
    · rw [step] at resumed
      rw [walk_congr resumed]
      exact walk_add second _
    · cases same
      rw [step] at resumed
      obtain ⟨before, rfl, link⟩ := resumed
      rw [← List.append_assoc] at onward
      have next := follow_append keeps (origin here target) (steps target ++ before) later
      rw [← Nat.add_assoc, walk_link link, ← List.append_assoc]
      exact ih onward next

/-! ## Places -/

/-- What a place says about the names of its path and about the last one. -/
theorem place_name {fs : FileSystem} {p : Path} {directory : Location} {name : Bytes}
    (placed : place fs p = .ok ⟨directory, .name name, false⟩) :
    ∃ before, steps p = before ++ [name] ∧
      walk fs maxLinks (origin fs.working p) (if before = [] then [] else before ++ [Path.dot]) =
        .ok directory ∧
      name ≠ Path.dot ∧ name ≠ Path.dotDot ∧ name.length ≤ maxName := by
  obtain ⟨_, _, placed⟩ := bind_eq_ok.mp placed
  obtain ⟨found, walked, placed⟩ := bind_eq_ok.mp placed
  cases last : (p.names.filter (· ≠ [])).getLast? with
  | none =>
    rw [last] at placed
    cases placed
  | some final =>
    rw [last] at placed
    simp only at placed
    split at placed
    · cases placed
    split at placed
    · cases placed
    split at placed
    · cases placed
    next self up long =>
    simp only [pure, Except.pure, Except.ok.injEq, Place.mk.injEq, LastName.name.injEq,
      decide_eq_false_iff_not] at placed
    obtain ⟨rfl, rfl, noSlash⟩ := placed
    obtain ⟨before, names⟩ := List.getLast?_eq_some_iff.mp last
    refine ⟨before, ?_, ?_, self, up, Nat.not_lt.mp long⟩
    · simp only [steps, if_neg noSlash]
      exact names
    · rw [names] at walked
      simpa using walked

/-- A file is placed under the last name of its path, or where a link of that name leads. -/
theorem placeOfFile_cases {fs : FileSystem} {links : Nat} {base loc : Location} {p : Path}
    (placed : placeOfFile fs links base p = .ok loc) :
    ∃ directory name, place { fs with working := base } p = .ok ⟨directory, .name name, false⟩ ∧
      (loc = directory ++ [name] ∧
          (fs.lookup loc = none ∨ ∃ content, fs.lookup loc = some (.file content)) ∨
        ∃ fewer target, links = fewer + 1 ∧
          fs.lookup (directory ++ [name]) = some (.symlink target) ∧
          placeOfFile fs fewer directory target = .ok loc) := by
  unfold placeOfFile at placed
  obtain ⟨⟨directory, last, asDirectory⟩, found, placed⟩ := bind_eq_ok.mp placed
  cases last with
  | self => cases placed
  | up => cases placed
  | name name =>
    simp only at placed
    cases asDirectory with
    | true =>
      simp only [if_true] at placed
      split at placed <;> cases placed
    | false =>
      refine ⟨directory, name, found, ?_⟩
      simp only [Bool.false_eq_true, if_false] at placed
      split at placed
      · next target link =>
        split at placed
        · cases placed
        · exact .inr ⟨_, target, rfl, link, placed⟩
      · cases placed
      · cases placed
      · next noLink noDirectory noSocket =>
        have here := Except.ok.inj placed
        subst here
        refine .inl ⟨rfl, ?_⟩
        cases entry : fs.lookup (directory ++ [name]) with
        | none => exact .inl rfl
        | some node =>
          cases node with
          | file content => exact .inr ⟨content, rfl⟩
          | symlink target => exact absurd entry (noLink target)
          | directory mode => exact absurd entry (noDirectory mode)
          | socket id => exact absurd entry (noSocket id)

variable {fs fs' : FileSystem}

/-- Walking a path with its last name taken from its place. -/
theorem walk_of_place (keeps : KeepsPassages fs fs') {base directory dest : Location} {p : Path}
    {name : Bytes}
    (placed : place { fs with working := base } p = .ok ⟨directory, .name name, false⟩)
    {more : Nat} (last : walk fs' more directory [name] = .ok dest) :
    walk fs' (more + maxLinks) (origin base p) (steps p) = .ok dest := by
  obtain ⟨before, names, walked, _⟩ := place_name placed
  rw [names]
  by_cases alone : before = []
  · rw [if_pos alone] at walked
    rw [walk_arrived rfl] at walked
    rw [alone, Except.ok.inj walked]
    exact walk_add last _
  · rw [if_neg alone] at walked
    -- entries do not depend on the working directory
    have same : KeepsPassages { fs with working := base } fs' := keeps
    exact walk_append same walked last

/-- The last name leads to what stands there, unless that is a link. -/
theorem follow_name {fs : FileSystem} {directory : Location} {name : Bytes}
    (ordinary : name ≠ Path.dot ∧ name ≠ Path.dotDot ∧ name.length ≤ maxName) :
    follow fs directory [name] =
      match fs.lookup (directory ++ [name]) with
      | none => .failed .notFound
      | some (.symlink target) => .link directory target []
      | some _ => .arrived (directory ++ [name]) := by
  rw [follow_ordinary ordinary]
  cases fs.lookup (directory ++ [name]) with
  | none => rfl
  | some node => cases node <;> rfl

/-- A file that is placed at a path is reached by walking the path, in any file system with the
same directories and links that has the file. -/
theorem walk_of_placeOfFile (keeps : KeepsPassages fs fs') {links : Nat} {base loc : Location}
    {p : Path} (placed : placeOfFile fs links base p = .ok loc) {content : Bytes}
    (stands : fs'.lookup loc = some (.file content)) :
    ∃ more, walk fs' more (origin base p) (steps p) = .ok loc := by
  induction links using Nat.strongRecOn generalizing base p with
  | ind links ih =>
    obtain ⟨directory, name, found, next⟩ := placeOfFile_cases placed
    obtain ⟨_, _, _, ordinary⟩ := place_name found
    rcases next with ⟨rfl, _⟩ | ⟨fewer, target, rfl, link, onward⟩
    · have step : follow fs' directory [name] = .arrived (directory ++ [name]) := by
        rw [follow_name ordinary, stands]
      exact ⟨_, walk_of_place keeps found (walk_arrived step 0)⟩
    · obtain ⟨more, walked⟩ := ih fewer (Nat.lt_succ_self _) onward
      have step : follow fs' directory [name] = .link directory target [] := by
        rw [follow_name ordinary, keeps _ (.symlink target) trivial link]
      have last : walk fs' (more + 1) directory [name] = .ok loc := by
        rw [walk_link step, List.append_nil]
        exact walked
      exact ⟨_, walk_of_place keeps found last⟩

/-! ## Writing and reading -/

theorem placeOfFile_free {links : Nat} {base loc : Location} {p : Path}
    (placed : placeOfFile fs links base p = .ok loc) :
    loc ≠ [] ∧ (fs.lookup loc = none ∨ ∃ content, fs.lookup loc = some (.file content)) := by
  induction links using Nat.strongRecOn generalizing base p with
  | ind links ih =>
    obtain ⟨directory, name, _, ⟨rfl, free⟩ | ⟨fewer, target, rfl, _, onward⟩⟩ :=
      placeOfFile_cases placed
    · exact ⟨by simp, free⟩
    · exact ih fewer (Nat.lt_succ_self _) onward

theorem keepsPassages_put {loc : Location} (content : Bytes)
    (free : fs.lookup loc = none ∨ ∃ old, fs.lookup loc = some (.file old)) :
    KeepsPassages fs (fs.put loc (.file content)) := by
  intro other node passage found
  have differs : other ≠ loc := by
    rintro rfl
    rcases free with free | ⟨old, free⟩ <;> rw [free] at found
    · cases found
    · cases found
      exact passage
  rw [lookup_put_ne fs _ differs, found]

/-- A path that could be placed holds no zero byte. -/
theorem nul_notMem_of_place {p : Path} {found : Place} (placed : place fs p = .ok found) :
    Bytes.nul ∉ p.bytes := by
  obtain ⟨_, spelled, _⟩ := bind_eq_ok.mp placed
  intro zero
  rw [checkSpelling, if_pos zero] at spelled
  cases spelled

theorem writeFile_eq_ok {p : Path} {content : Bytes} :
    writeFile fs p content = .ok fs' ↔
      ∃ loc, placeOfFile fs maxLinks fs.working p = .ok loc ∧ fs.Permits .write loc ∧
        fs' = fs.put loc (.file content) := by
  rw [writeFile, bind_eq_ok]
  simp only [unlessRefused_eq_ok]

theorem nul_notMem_of_writeFile {p : Path} {content : Bytes}
    (written : writeFile fs p content = .ok fs') : Bytes.nul ∉ p.bytes := by
  obtain ⟨_, placed, _⟩ := writeFile_eq_ok.mp written
  obtain ⟨_, _, found, _⟩ := placeOfFile_cases placed
  exact nul_notMem_of_place found

/-- What can be read is a file. -/
theorem contentAt_eq_ok {p : Path} {content : Bytes} :
    contentAt fs p = .ok content ↔
      ∃ loc, resolve fs p = .ok loc ∧ fs.lookup loc = some (.file content) ∧
        fs.Permits .read loc := by
  constructor
  · intro read
    obtain ⟨loc, resolved, read⟩ := bind_eq_ok.mp read
    split at read
    · cases read
    · next held found =>
      obtain ⟨permitted, rfl⟩ := unlessRefused_eq_ok.mp read
      exact ⟨loc, resolved, found, permitted⟩
    · cases read
    · cases read
    · cases read
  · rintro ⟨loc, resolved, found, permitted⟩
    refine bind_eq_ok.mpr ⟨loc, resolved, ?_⟩
    simp only [found, unlessRefused_of_permits permitted]

/-- What is read after writing is what was written, if anything can be read. -/
theorem contentAt_writeFile {p : Path} {content found : Bytes}
    (written : writeFile fs p content = .ok fs') (read : contentAt fs' p = .ok found) :
    found = content := by
  obtain ⟨loc, placed, _, rfl⟩ := writeFile_eq_ok.mp written
  obtain ⟨nonempty, free⟩ := placeOfFile_free placed
  have stands := lookup_put_self fs (.file content) nonempty
  obtain ⟨more, walked⟩ := walk_of_placeOfFile (keepsPassages_put content free) placed stands
  obtain ⟨there, resolved, held, _⟩ := contentAt_eq_ok.mp read
  obtain ⟨_, _, resolved⟩ := bind_eq_ok.mp resolved
  cases walk_unique walked resolved
  cases stands.symm.trans held
  rfl

end Succession.FileSystem
