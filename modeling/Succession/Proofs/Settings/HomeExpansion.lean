import Succession.Proofs.Settings.Rewording
import Succession.Proofs.Text.Utf8RoundTrip
import Succession.Settings.Source

/-!
# The home directory in a value

The path of the socket may be given with `~/` at its start, which stands for the home directory.

1. What is joined to a directory is below it, unless it begins with a slash (`components_join`,
   `prefix_join`).
2. So it is with what stands behind `~/` (`expandHome_inside`). But if that begins with a slash
   itself, or the home directory is empty, it is the whole path (`expandHome_outside`).
   These two cases are all in which a value does not mean what it should (`isMeantBy_iff`).
3. What comes of it for the settings is `home_expansion_is_meant_iff`. Both cases happen
   (`value_leaves_home`), the second one although an empty home directory counts as none elsewhere
   (`defaultPath_of_empty`).
-/

namespace Succession

/-! ## 1. Joined paths -/

namespace Path

variable {p child : Path}

/-- The components of a path, apart from where it starts. -/
def inner (p : Path) : List PathComponent := p.names.filterMap component?

/-- Where a path starts, if it says so. -/
def start (p : Path) : List PathComponent :=
  if p.isAbsolute then [.root] else if p.names.head? = some dot then [.current] else []

theorem components_eq (p : Path) : p.components = p.start ++ p.inner := by
  unfold components start
  split
  · rfl
  · split <;> rfl

theorem split_append (a b : Bytes) :
    Bytes.split separator (a ++ separator :: b) =
      Bytes.split separator a ++ Bytes.split separator b := by
  induction a with
  | nil => rfl
  | cons x a ih =>
    rw [List.cons_append, Bytes.split, Bytes.split, ih]
    by_cases same : x = separator
    · rw [if_pos same, if_pos same]
      rfl
    · rw [if_neg same, if_neg same]
      obtain ⟨piece, pieces, split⟩ := List.exists_cons_of_ne_nil (Bytes.split_ne_nil separator a)
      rw [split]
      rfl

theorem start_append (a : UInt8) (before after : Bytes) :
    (⟨a :: before ++ separator :: after⟩ : Path).start = (⟨a :: before⟩ : Path).start := by
  have first : (Bytes.split separator (a :: before ++ separator :: after)).head? =
      (Bytes.split separator (a :: before)).head? := by
    rw [split_append, List.head?_append_of_ne_nil _ (Bytes.split_ne_nil _ _)]
  unfold start isAbsolute names
  rw [first]
  rfl

theorem inner_append (before after : Bytes) :
    (⟨before ++ separator :: after⟩ : Path).inner =
      (⟨before⟩ : Path).inner ++ (⟨after⟩ : Path).inner := by
  unfold inner names
  rw [split_append, List.filterMap_append]

/-- What stands behind a slash adds its components. -/
theorem components_append {before : Bytes} (given : before ≠ []) (after : Bytes) :
    (⟨before ++ separator :: after⟩ : Path).components =
      (⟨before⟩ : Path).components ++ (⟨after⟩ : Path).inner := by
  obtain ⟨a, before, rfl⟩ := List.exists_cons_of_ne_nil given
  rw [components_eq, components_eq, start_append, inner_append, List.append_assoc]

/-- What is joined to a directory, and does not begin with a slash, is below it. -/
theorem components_join (given : p.bytes ≠ []) (relative : child.isAbsolute = false) :
    (p.join child).components = p.components ++ child.inner := by
  obtain ⟨bytes⟩ := p
  have within : ¬child.isAbsolute = true := by rw [relative]; exact Bool.false_ne_true
  by_cases ends : bytes.getLast? = some separator
  · rw [join, if_neg within, if_pos (.inr ends)]
    obtain ⟨before, rfl⟩ := List.getLast?_eq_some_iff.mp ends
    show (⟨before ++ [separator] ++ child.bytes⟩ : Path).components = _
    rw [List.append_assoc, List.singleton_append]
    cases before with
    | nil =>
      rw [components_eq, components_eq, inner_append]
      rfl
    | cons a before =>
      have slash := components_append (List.cons_ne_nil a before) []
      rw [components_append (List.cons_ne_nil a before), slash]
      exact congrArg (· ++ child.inner) (List.append_nil _).symm
  · rw [join, if_neg within, if_neg (not_or.mpr ⟨given, ends⟩)]
    exact components_append given child.bytes

theorem prefix_join (p : Path) (relative : child.isAbsolute = false) :
    p.bytes <+: (p.join child).bytes := by
  unfold join
  rw [if_neg (by rw [relative]; exact Bool.false_ne_true)]
  split <;> exact List.prefix_append _ _

end Path

namespace Settings

variable {home : Option Bytes} {text value : String}

/-! ## 2. Values -/

/-- What a value should mean: with `~/` at its start the components of the rest below the home
directory, if there is one, and else the value itself. -/
def IsMeantBy (home : Option Bytes) (value : String) (p : Path) : Prop :=
  (∀ rest h, value = "~/" ++ rest → home = some h → h ≠ [] →
    p.components = (⟨h⟩ : Path).components ++ (Path.ofString rest).inner) ∧
  ((∀ rest, value ≠ "~/" ++ rest) ∨ home = none ∨ home = some [] → p = Path.ofString value)

theorem expandHome_home (h : Bytes) (rest : String) :
    expandHome (some h) ("~/" ++ rest) = Path.join ⟨h⟩ (Path.ofString rest) := by
  have split : "~/".toList.isPrefixOf? ("~/" ++ rest).toList = some rest.toList :=
    List.isPrefixOf?_eq_some_iff_append_eq.mpr String.toList_append.symm
  unfold expandHome
  rw [split]
  rfl

theorem expandHome_plain (literal : (∀ rest, value ≠ "~/" ++ rest) ∨ home = none) :
    expandHome home value = Path.ofString value := by
  unfold expandHome
  split
  · next rest h found =>
    rcases literal with plain | unset
    · have whole := List.isPrefixOf?_eq_some_iff_append_eq.mp found
      refine absurd (String.toList_inj.mp ?_) (plain (String.ofList rest))
      have back : (String.ofList rest).toList = rest := String.toList_ofList
      rw [String.toList_append, back]
      exact whole.symm
    · cases unset
  · rfl

/-- With a home directory the rest is below it, unless it begins with a slash. -/
theorem expandHome_inside {h : Bytes} {rest : String} (given : h ≠ [])
    (relative : (Path.ofString rest).isAbsolute = false) :
    h <+: (expandHome (some h) ("~/" ++ rest)).bytes ∧
      (expandHome (some h) ("~/" ++ rest)).components =
        (⟨h⟩ : Path).components ++ (Path.ofString rest).inner := by
  rw [expandHome_home]
  exact ⟨Path.prefix_join ⟨h⟩ relative, Path.components_join given relative⟩

/-- The rest alone is the path if it begins with a slash, or the home directory is empty. -/
theorem expandHome_outside {h : Bytes} {rest : String}
    (alone : (Path.ofString rest).isAbsolute = true ∨ h = []) :
    expandHome (some h) ("~/" ++ rest) = Path.ofString rest := by
  rw [expandHome_home, Path.join]
  split
  · rfl
  · next within =>
    obtain rfl := alone.resolve_left within
    rw [if_pos (.inl rfl)]
    rfl

theorem ofString_tilde_ne (rest : String) : Path.ofString rest ≠ Path.ofString ("~/" ++ rest) := by
  intro same
  have spelled : Utf8.encode ("~/" ++ rest) = [0x7E, 0x2F] ++ Utf8.encode rest := by
    rw [Utf8.encode, String.toList_append, Utf8.encodeChars_append]
    rfl
  have bytes : Utf8.encode rest = Utf8.encode ("~/" ++ rest) := congrArg Path.bytes same
  rw [spelled] at bytes
  exact List.cons_ne_nil _ _ (List.self_eq_append_left.mp bytes)

/-- A rest that begins with a slash has the components of the home directory in front only if that
is the root. -/
theorem components_expandHome_iff {h : Bytes} {rest : String}
    (absolute : (Path.ofString rest).isAbsolute = true) :
    (expandHome (some h) ("~/" ++ rest)).components =
        (⟨h⟩ : Path).components ++ (Path.ofString rest).inner ↔
      (⟨h⟩ : Path).components = [.root] := by
  rw [expandHome_outside (.inl absolute), Path.components_eq, Path.start, if_pos absolute,
    List.append_left_inj, eq_comm]

/-- A value means what it should, unless it has `~/` at its start and either the home directory is
empty, or it is not the root and the rest begins with a slash. -/
theorem isMeantBy_iff : IsMeantBy home value (expandHome home value) ↔
    ∀ rest h, value = "~/" ++ rest → home = some h → h ≠ [] ∧
      ((Path.ofString rest).isAbsolute = true → (⟨h⟩ : Path).components = [.root]) := by
  constructor
  · rintro ⟨below, literal⟩ rest h rfl rfl
    have given : h ≠ [] := by
      rintro rfl
      have same := literal (.inr (.inr rfl))
      rw [expandHome_outside (.inr rfl)] at same
      exact ofString_tilde_ne rest same
    refine ⟨given, fun absolute => ?_⟩
    exact (components_expandHome_iff absolute).mp (below rest h rfl rfl given)
  · intro sound
    refine ⟨?_, ?_⟩
    · rintro rest h rfl rfl given
      cases absolute : (Path.ofString rest).isAbsolute with
      | false => exact (expandHome_inside given absolute).2
      | true =>
        exact (components_expandHome_iff absolute).mpr ((sound rest h rfl rfl).2 absolute)
    · rintro (plain | unset | empty)
      · exact expandHome_plain (.inl plain)
      · exact expandHome_plain (.inr unset)
      · refine expandHome_plain (.inl fun rest tilde => ?_)
        exact (sound rest [] tilde empty).1 rfl

/-! ## 3. Settings -/

/-- The reader of the settings file takes an empty home directory for none. -/
theorem defaultPath_of_empty {env : Environment} (empty : env.get? "HOME" = some []) :
    defaultPath env = defaultPath (env.erase "HOME") := by
  have home : env.path? "HOME" = none := by rw [Environment.path?, empty]
  have erased : (env.erase "HOME").path? "HOME" = none := by
    rw [Environment.path?, Environment.get?_erase_self]
  have other : (env.erase "HOME").path? "XDG_CONFIG_HOME" = env.path? "XDG_CONFIG_HOME" := by
    rw [Environment.path?, Environment.path?, Environment.get?_erase_ne env (by decide)]
  unfold defaultPath
  rw [home, erased, other]

/-- A text whose only entry is the value for the socket. -/
theorem parse_of_entry (read : readEntries 1 (splitLines text.toList) = .ok [("ipc_socket", value)])
    (given : value ≠ "") : parse home text = .ok (⟨some (expandHome home value), [], []⟩, []) := by
  have none (start : String) (foreign : start.toList.isPrefixOf? "ipc_socket".toList = none) :
      commands start [("ipc_socket", value)] = .ok [] := by
    rw [commands, indexed, foreign]
    simp [indexed, Except.map]
  have last : latest [("ipc_socket", value)] = [("ipc_socket", value)] := rfl
  rw [parse, read]
  simp only [bind, Except.bind]
  rw [last, none "exec." rfl, none "exec_always." rfl, List.lookup_cons_self]
  simp only [given, if_false]
  rfl

/-- **A value with `~/` at its start stays below the home directory, unless its rest begins with a
slash.** Take any text whose lines give the socket a value, any variable for the home directory, and
the settings that the text spells; it spells some unless it is refused.

* A value without `~/` at its start is the path itself, and so is any where there is no home
  directory.
* With a home directory that is not empty, and a rest that does not begin with a slash, the path
  begins with the home directory, and its components are those of the home directory and then those
  of the rest.
* A rest that begins with a slash is the path itself, whatever the home directory is; and so is any
  rest where the home directory is empty. Where the settings file is looked for, an empty home
  directory counts as none.
* So the path is what the value should mean exactly if this case does not come up. Only where the
  home directory is the root does a rest that begins with a slash do no harm. -/
theorem home_expansion_is_meant_iff (holds : Holds (linesOf text) "ipc_socket" value)
    (given : value ≠ "") :
    (¬Refused (linesOf text) → ∃ settings notices, parse home text = .ok (settings, notices)) ∧
    (∀ env : Environment, env.get? "HOME" = some [] →
      defaultPath env = defaultPath (env.erase "HOME")) ∧
    ∀ settings notices, parse home text = .ok (settings, notices) →
      ∃ p, settings.socketPath = some p ∧
        ((∀ rest, value ≠ "~/" ++ rest) ∨ home = none → p = Path.ofString value) ∧
        (∀ rest h, value = "~/" ++ rest → home = some h →
          (h ≠ [] → (Path.ofString rest).isAbsolute = false → h <+: p.bytes ∧
            p.components = (⟨h⟩ : Path).components ++ (Path.ofString rest).inner) ∧
          ((Path.ofString rest).isAbsolute = true ∨ h = [] → p = Path.ofString rest)) ∧
        (IsMeantBy home value p ↔
          ∀ rest h, value = "~/" ++ rest → home = some h → h ≠ [] ∧
            ((Path.ofString rest).isAbsolute = true → (⟨h⟩ : Path).components = [.root])) := by
  rw [linesOf, ← splitLines_eq] at holds ⊢
  refine ⟨fun sound => ?_, fun env empty => defaultPath_of_empty empty,
    fun settings notices done => ?_⟩
  · cases spelled : parse home text with
    | error fault => exact absurd ((parse_fails_iff home text).mp ⟨fault, spelled⟩) sound
    | ok result => exact ⟨result.1, result.2, rfl⟩
  · have path := ((means_of_parse done).socketPath _).mpr ⟨value, holds, given, rfl⟩
    refine ⟨expandHome home value, path, expandHome_plain, ?_, isMeantBy_iff⟩
    rintro rest h rfl rfl
    exact ⟨expandHome_inside, expandHome_outside⟩

/-- A socket below a home directory, given with slashes that mean nothing. -/
theorem home_expansion_is_meant_of_socket :
    let home := Bytes.ofString "/home/u"
    let text := "ipc_socket = ~/run//s"
    Holds (linesOf text) "ipc_socket" "~/run//s" ∧
      ∃ p, parse (some home) text = .ok (⟨some p, [], []⟩, []) ∧ home <+: p.bytes ∧
        p.components = .root :: ["home", "u", "run", "s"].map (.normal ∘ Bytes.ofString) := by
  intro home text
  have read : readEntries 1 (splitLines text.toList) = .ok [("ipc_socket", "~/run//s")] := by
    decide +kernel
  have holds : Holds (linesOf text) "ipc_socket" "~/run//s" := by
    rw [linesOf, ← splitLines_eq]
    exact mem_latest.mp (by decide +kernel)
  have done : parse (some home) text =
      .ok (⟨some (expandHome (some home) "~/run//s"), [], []⟩, []) :=
    parse_of_entry read (by decide)
  obtain ⟨_, _, spelled⟩ := home_expansion_is_meant_iff holds (by decide)
  obtain ⟨p, path, _, cases, _⟩ := spelled _ _ done
  obtain rfl := Option.some.inj path
  obtain ⟨within, components⟩ :=
    (cases "run//s" home (by decide) rfl).1 (by decide +kernel) (by decide +kernel)
  refine ⟨holds, _, done, within, ?_⟩
  rw [components]
  decide +kernel

/-- Neither a rest that begins with a slash nor an empty home directory leads to what the value
should mean. -/
theorem value_leaves_home :
    let home := Bytes.ofString "/home/u"
    parse (some home) "ipc_socket = ~//etc/x" = .ok (⟨some (Path.ofString "/etc/x"), [], []⟩, []) ∧
      ¬home <+: (Path.ofString "/etc/x").bytes ∧
      ¬IsMeantBy (some home) "~//etc/x" (Path.ofString "/etc/x") ∧
    parse (some []) "ipc_socket = ~/x" = .ok (⟨some (Path.ofString "x"), [], []⟩, []) ∧
      ¬IsMeantBy (some []) "~/x" (Path.ofString "x") := by
  intro home
  have slash : expandHome (some home) "~//etc/x" = Path.ofString "/etc/x" := by decide +kernel
  have empty : expandHome (some []) "~/x" = Path.ofString "x" := by decide +kernel
  refine ⟨?_, by decide +kernel, ?_, ?_, ?_⟩
  · rw [← slash]
    exact parse_of_entry (by decide +kernel) (by decide)
  · rintro ⟨below, _⟩
    exact absurd (below "/etc/x" home (by decide) rfl (by decide +kernel)) (by decide +kernel)
  · rw [← empty]
    exact parse_of_entry (by decide +kernel) (by decide)
  · rintro ⟨_, literal⟩
    exact absurd (literal (.inr (.inr rfl))) (by decide +kernel)

end Settings

end Succession
