import Succession.Image.Arguments
import Succession.Proofs.CommandLine.Acts

/-!
# The command line of the next image

The arguments that are kept spell the acts of the original ones less some that only say what to
begin with, and what they leave out does not bear on any other option (`lasting_of_thinned`). With
the arguments added behind them they are read as before, unless the options had been ended by a
lone `--`: then what is added is taken for a command (`next_image_reads_back`).
-/

namespace Succession

/-! ## 1. What outlasts a restart -/

namespace Options

/-- The options less those that only say what to begin with. -/
def lasting (options : Options) : Options :=
  { options with noAutostart := false, layout := none, restart := none }

end Options

namespace Act

/-- Whether the act only says what to begin with. -/
def isInitial : Act → Bool
  | .switch .noAutostart | .setting .layout _ | .setting .restart _ => true
  | _ => false

theorem lasting_of_isInitial {a : Act} (initial : a.isInitial = true) {o o' : Options}
    (done : o.act a = .ok o') : o'.lasting = o.lasting := by
  match a, initial with
  | .switch .noAutostart, _ =>
    cases done
    rfl
  | .setting .layout _, _ | .setting .restart _, _ =>
    obtain ⟨_, _, rfl⟩ := map_eq_ok.mp done
    rfl

theorem lasting_switch (s : Switch) {o o' p : Options} (alike : o.lasting = p.lasting)
    (done : o.turnOn s = .ok o') : ∃ p', p.turnOn s = .ok p' ∧ o'.lasting = p'.lasting := by
  cases s with
  | help => cases done
  | noAutostart =>
    cases done
    exact ⟨_, rfl, alike⟩
  | verbose =>
    cases done
    exact ⟨_, rfl, congrArg (fun l : Options => { l with verbose := true }) alike⟩
  | debug =>
    cases done
    exact ⟨_, rfl, congrArg (fun l : Options => { l with debug := true }) alike⟩
  | disableSignalHandler =>
    cases done
    exact ⟨_, rfl, congrArg (fun l : Options => { l with disableSignalHandler := true }) alike⟩
  | version =>
    cases done
    exact ⟨_, rfl, congrArg (fun l : Options => { l with version := true }) alike⟩
  | moreVersion =>
    cases done
    exact ⟨_, rfl, congrArg (fun l : Options => { l with moreVersion := true }) alike⟩
  | socketPath =>
    cases done
    exact ⟨_, rfl, congrArg (fun l : Options => { l with socketPath := true }) alike⟩

theorem lasting_setting (key : Setting) {value : Bytes} {o o' p : Options}
    (alike : o.lasting = p.lasting) (done : o.assign key value = .ok o') :
    ∃ p', p.assign key value = .ok p' ∧ o'.lasting = p'.lasting := by
  cases key with
  | config =>
    obtain ⟨path, good, rfl⟩ := map_eq_ok.mp done
    exact ⟨_, map_eq_ok.mpr ⟨path, good, rfl⟩,
      congrArg (fun l : Options => { l with config := some path }) alike⟩
  | logSize =>
    obtain ⟨size, good, rfl⟩ := map_eq_ok.mp done
    exact ⟨_, map_eq_ok.mpr ⟨size, good, rfl⟩,
      congrArg (fun l : Options => { l with logSize := some size }) alike⟩
  | layout | restart =>
    obtain ⟨path, good, rfl⟩ := map_eq_ok.mp done
    exact ⟨_, map_eq_ok.mpr ⟨path, good, rfl⟩, alike⟩

theorem lasting_act (a : Act) {o o' p : Options} (alike : o.lasting = p.lasting)
    (done : o.act a = .ok o') : ∃ p', p.act a = .ok p' ∧ o'.lasting = p'.lasting := by
  cases a with
  | switch s => exact lasting_switch s alike done
  | setting key value => exact lasting_setting key alike done

end Act

/-- The second list is the first one less some acts that only say what to begin with. -/
inductive Thinned : List Act → List Act → Prop
  | nil : Thinned [] []
  | keep {acts left : List Act} (a : Act) : Thinned acts left → Thinned (a :: acts) (a :: left)
  | drop {acts left : List Act} {a : Act} :
      a.isInitial = true → Thinned acts left → Thinned (a :: acts) left

namespace Thinned

theorem refl (acts : List Act) : Thinned acts acts := by
  induction acts with
  | nil => exact .nil
  | cons a rest ih => exact .keep a ih

theorem append {acts left acts' left' : List Act} (front : Thinned acts left)
    (back : Thinned acts' left') : Thinned (acts ++ acts') (left ++ left') := by
  induction front with
  | nil => exact back
  | keep a _ ih => exact .keep a ih
  | drop initial _ ih => exact .drop initial ih

end Thinned

/-- Acts can be done without some of those that only say what to begin with, and do the same to
the other options. -/
theorem lasting_of_thinned {acts left : List Act} (thinned : Thinned acts left) {o o' p : Options}
    (alike : o.lasting = p.lasting) (done : acts.foldlM Options.act o = .ok o') :
    ∃ p', left.foldlM Options.act p = .ok p' ∧ o'.lasting = p'.lasting := by
  induction thinned generalizing o p with
  | nil =>
    cases done
    exact ⟨p, rfl, alike⟩
  | keep a _ ih =>
    obtain ⟨middle, first, others⟩ := foldlM_cons_ok.mp done
    obtain ⟨middle', first', alike'⟩ := Act.lasting_act a alike first
    obtain ⟨p', others', alike''⟩ := ih alike' others
    exact ⟨p', foldlM_cons_ok.mpr ⟨middle', first', others'⟩, alike''⟩
  | drop initial _ ih =>
    obtain ⟨middle, first, others⟩ := foldlM_cons_ok.mp done
    exact ih ((Act.lasting_of_isInitial initial first).trans alike) others

/-! ## 2. What becomes of the arguments -/

namespace Image

theorem eq_append_of_startsWith {argument : Bytes} {start : Bytes}
    (starts : Bytes.startsWith argument start = true) : ∃ rest, argument = start ++ rest := by
  obtain ⟨rest, same⟩ := List.isPrefixOf_iff_prefix.mp starts
  exact ⟨rest, same.symm⟩

/-- The spellings whose value is the next argument. -/
theorem spelling_of_droppedWithValue {argument : Bytes}
    (dropped : fate argument = .droppedWithValue) :
    argument = Bytes.ofString "--restart" ∨ argument = Bytes.ofString "-L" ∨
      argument = Bytes.ofString "--layout" := by
  unfold fate at dropped
  dsimp only at dropped
  split at dropped
  · cases dropped
  · split at dropped
    · next listed =>
      obtain ⟨text, member, same⟩ := List.any_eq_true.mp listed
      rw [← of_decide_eq_true same]
      simp only [List.mem_cons, List.not_mem_nil, or_false] at member
      rcases member with rfl | rfl | rfl
      · exact .inl rfl
      · exact .inr (.inl rfl)
      · exact .inr (.inr rfl)
    · split at dropped
      · cases dropped
      · split at dropped <;> cases dropped

/-- The spellings that stand alone. A lone `-L` is not among them. -/
theorem spelling_of_dropped {argument : Bytes} (dropped : fate argument = .dropped) :
    argument = Bytes.ofString "-a" ∨ argument = Bytes.ofString "--no-autostart" ∨
      (∃ value, argument = Bytes.ofString "--restart=" ++ value) ∨
      (∃ value, argument = Bytes.ofString "--layout=" ++ value) ∨
      ∃ b value, argument = Bytes.ofString "-L" ++ b :: value := by
  unfold fate at dropped
  dsimp only at dropped
  split at dropped
  · cases dropped
  · split at dropped
    · cases dropped
    · next unlisted =>
      split at dropped
      · next listed =>
        obtain ⟨text, member, same⟩ := List.any_eq_true.mp listed
        rw [← of_decide_eq_true same]
        simp only [List.mem_cons, List.not_mem_nil, or_false] at member
        rcases member with rfl | rfl
        · exact .inl rfl
        · exact .inr (.inl rfl)
      · split at dropped
        · next starts =>
          rcases Bool.or_eq_true_iff.mp starts with long | short
          · rcases Bool.or_eq_true_iff.mp long with restart | layout
            · exact .inr (.inr (.inl (eq_append_of_startsWith restart)))
            · exact .inr (.inr (.inr (.inl (eq_append_of_startsWith layout))))
          · obtain ⟨rest, rfl⟩ := eq_append_of_startsWith short
            cases rest with
            | nil => exact absurd rfl unlisted
            | cons b value => exact .inr (.inr (.inr (.inr ⟨b, value, rfl⟩)))
        · cases dropped

theorem doing_of_droppedWithValue {argument : Bytes} (dropped : fate argument = .droppedWithValue) :
    ∃ key, Doing.of? argument = some ⟨[], some key⟩ ∧
      ∀ value, (Act.setting key value).isInitial = true := by
  rcases spelling_of_droppedWithValue dropped with rfl | rfl | rfl
  · exact ⟨.restart, rfl, fun _ => rfl⟩
  · exact ⟨.layout, rfl, fun _ => rfl⟩
  · exact ⟨.layout, rfl, fun _ => rfl⟩

theorem doing_of_dropped {argument : Bytes} (dropped : fate argument = .dropped) :
    ∃ a, Doing.of? argument = some ⟨[a], none⟩ ∧ a.isInitial = true := by
  rcases spelling_of_dropped dropped with
    rfl | rfl | ⟨value, rfl⟩ | ⟨value, rfl⟩ | ⟨b, value, rfl⟩
  · exact ⟨.switch .noAutostart, rfl, rfl⟩
  · exact ⟨.switch .noAutostart, rfl, rfl⟩
  · exact ⟨.setting .restart value, rfl, rfl⟩
  · exact ⟨.setting .layout value, rfl, rfl⟩
  · exact ⟨.setting .layout (if b = Reading.equals then value else b :: value), rfl, rfl⟩

theorem fate_plain {argument : Bytes} (plain : looksLikeOption argument = false) :
    fate argument = .kept := by
  cases became : fate argument with
  | kept => rfl
  | dropped =>
    obtain ⟨_, doing, _⟩ := doing_of_dropped became
    exact absurd (looksLikeOption_of_doing doing) (by rw [plain]; decide)
  | droppedWithValue =>
    obtain ⟨_, doing, _⟩ := doing_of_droppedWithValue became
    exact absurd (looksLikeOption_of_doing doing) (by rw [plain]; decide)

theorem fate_endOfOptions : fate endOfOptions = .kept := by
  decide

theorem keep_cons_kept {argument : Bytes} {rest : List Bytes} (kept : fate argument = .kept) :
    keep (argument :: rest) = argument :: keep rest := by
  rw [keep.eq_def]
  simp only [kept]

theorem keep_cons_dropped {argument : Bytes} {rest : List Bytes}
    (dropped : fate argument = .dropped) : keep (argument :: rest) = keep rest := by
  rw [keep.eq_def]
  simp only [dropped]

theorem keep_cons_droppedWithValue {argument value : Bytes} {rest : List Bytes}
    (dropped : fate argument = .droppedWithValue) :
    keep (argument :: value :: rest) = keep rest := by
  rw [keep.eq_def]
  simp only [dropped]

theorem of_mem_keep {argument : Bytes} {arguments : List Bytes}
    (member : argument ∈ keep arguments) : argument ∈ arguments ∧ fate argument = .kept := by
  fun_induction keep arguments with
  | case1 => cases member
  | case2 first rest kept ih =>
    rcases List.mem_cons.mp member with rfl | later
    · exact ⟨List.mem_cons_self, kept⟩
    · exact (ih later).imp_left (List.mem_cons_of_mem _)
  | case3 first rest _ ih => exact (ih member).imp_left (List.mem_cons_of_mem _)
  | case4 => cases member
  | case5 first _ value rest ih =>
    exact (ih member).imp_left fun h => List.mem_cons_of_mem _ (List.mem_cons_of_mem _ h)

/-- Of a line of options, those that are left do the same but for what to begin with; what stands
behind such a line is kept or dropped by itself. -/
theorem keep_spells {arguments : List Bytes} {acts : List Act} (spells : Spells arguments acts)
    (behind : List Bytes) : ∃ kept left, keep (arguments ++ behind) = kept ++ keep behind ∧
      Spells kept left ∧ Thinned acts left := by
  induction spells with
  | nil => exact ⟨[], [], rfl, .nil, .nil⟩
  | @alone argument acts rest _ doing _ ih =>
    obtain ⟨kept, left, same, spells, thinned⟩ := ih
    cases became : fate argument with
    | kept =>
      refine ⟨argument :: kept, acts ++ left, ?_, .alone doing spells,
        (Thinned.refl acts).append thinned⟩
      rw [List.cons_append, keep_cons_kept became, same]
      rfl
    | dropped =>
      obtain ⟨a, doing', initial⟩ := doing_of_dropped became
      cases Option.some.inj (doing.symm.trans doing')
      refine ⟨kept, left, ?_, spells, .drop initial thinned⟩
      rw [List.cons_append, keep_cons_dropped became, same]
    | droppedWithValue =>
      -- The filter and the reader agree on which spellings take the next argument.
      obtain ⟨_, doing', _⟩ := doing_of_droppedWithValue became
      cases Option.some.inj (doing.symm.trans doing')
  | @withValue argument value acts key rest _ doing plain _ ih =>
    obtain ⟨kept, left, same, spells, thinned⟩ := ih
    cases became : fate argument with
    | kept =>
      refine ⟨argument :: value :: kept, acts ++ .setting key value :: left, ?_,
        .withValue doing plain spells, (Thinned.refl acts).append (.keep _ thinned)⟩
      rw [List.cons_append, keep_cons_kept became, List.cons_append,
        keep_cons_kept (fate_plain plain), same]
      rfl
    | dropped =>
      obtain ⟨_, doing', _⟩ := doing_of_dropped became
      cases Option.some.inj (doing.symm.trans doing')
    | droppedWithValue =>
      obtain ⟨_, doing', initial⟩ := doing_of_droppedWithValue became
      cases Option.some.inj (doing.symm.trans doing')
      refine ⟨kept, left, ?_, spells, .drop (initial value) thinned⟩
      rw [List.cons_append, List.cons_append, keep_cons_droppedWithValue became, same]

end Image

/-! ## 3. The line read again -/

namespace Reading

theorem finish_endOfOptions (r : Reading) : finish { r with trailing := true } = r.finish := by
  obtain ⟨options, pending, trailing, words⟩ := r
  rcases pending with _ | ⟨key, _ | value⟩
  · rfl
  · rfl
  · simp only [finish, settle]
    cases options.assign key value <;> rfl

theorem AmongOptions.readArgument {r r' : Reading} (among : AmongOptions r) {argument : Bytes}
    {rest : List Bytes} {options : Options} (going : argument ≠ endOfOptions)
    (first : r.readArgument argument = .ok r') (others : r'.complete rest = .ok options)
    (noCommand : options.command = []) : AmongOptions r' := by
  cases option : looksLikeOption argument with
  | true =>
    obtain ⟨d, _, done⟩ := (readArgument_option among.notTrailing option going).mp first
    exact among.does done
  | false =>
    rw [readArgument_plain among.notTrailing option, readPlain] at first
    split at first
    · cases first
      exact among.pend _
    · exact absurd noCommand (command_ne_nil first others)

/-- In a line without a command a lone `--` can only stand at the end, and it does nothing
there. -/
theorem ends_of_complete {arguments : List Bytes} {r : Reading} {options : Options}
    (among : AmongOptions r) (read : r.complete arguments = .ok options)
    (noCommand : options.command = []) :
    ∃ front, endOfOptions ∉ front ∧ r.complete front = .ok options ∧
      (arguments = front ∨ arguments = front ++ [endOfOptions]) := by
  induction arguments generalizing r with
  | nil => exact ⟨[], List.not_mem_nil, read, .inl rfl⟩
  | cons argument rest ih =>
    obtain ⟨r', first, others⟩ := complete_cons.mp read
    by_cases ended : argument = endOfOptions
    · subst ended
      rw [readArgument_endOfOptions among.notTrailing] at first
      cases first
      have long := length_command rfl others
      rw [noCommand, List.length_nil] at long
      cases List.eq_nil_of_length_eq_zero (show rest.length = 0 by omega)
      refine ⟨[], List.not_mem_nil, ?_, .inr rfl⟩
      rw [← others]
      exact (finish_endOfOptions r).symm
    · obtain ⟨front, going, read', shape⟩ :=
        ih (among.readArgument ended first others noCommand) others
      refine ⟨argument :: front, ?_, complete_cons.mpr ⟨r', first, read'⟩, ?_⟩
      · intro member
        rcases List.mem_cons.mp member with same | later
        · exact ended same.symm
        · exact going later
      · rcases shape with rfl | rfl
        · exact .inl rfl
        · exact .inr rfl

/-- A line without a command that ends in something else holds no lone `--` at all. -/
theorem going_of_complete {front : List Bytes} {last : Bytes} {r : Reading} {options : Options}
    (among : AmongOptions r) (read : r.complete (front ++ [last]) = .ok options)
    (noCommand : options.command = []) (notLast : last ≠ endOfOptions) :
    endOfOptions ∉ front ++ [last] := by
  obtain ⟨going, absent, _, same | ended⟩ := ends_of_complete among read noCommand
  · rw [same]
    exact absent
  · have lasts := congrArg List.getLast? ended
    rw [List.getLast?_concat, List.getLast?_concat] at lasts
    exact absurd (Option.some.inj lasts) notLast

theorem amongOptions_begin : AmongOptions {} := ⟨rfl, rfl, rfl⟩

end Reading

theorem isManagerMode_iff {options : Options} : options.isManagerMode = true ↔
    options.version = false ∧ options.moreVersion = false ∧ options.socketPath = false ∧
      options.command = [] := by
  simp [Options.isManagerMode, and_assoc]

theorem bytes_of_isAbsolute {p : Path} (absolute : p.isAbsolute = true) :
    ∃ rest, p.bytes = Path.separator :: rest := by
  have first := of_decide_eq_true absolute
  cases bytes : p.bytes with
  | nil =>
    rw [bytes] at first
    cases first
  | cons b rest =>
    rw [bytes] at first
    exact ⟨rest, by rw [Option.some.inj first]⟩

theorem looksLikeOption_of_isAbsolute {p : Path} (absolute : p.isAbsolute = true) :
    looksLikeOption p.bytes = false := by
  obtain ⟨rest, bytes⟩ := bytes_of_isAbsolute absolute
  rw [bytes]
  cases rest <;> rfl

theorem spells_added {p : Path} (absolute : p.isAbsolute = true) :
    Spells (Image.added (some p)) [.switch .noAutostart, .setting .restart p.bytes] :=
  .alone (show Doing.of? (Bytes.ofString "-a") = some ⟨[.switch .noAutostart], none⟩ from rfl)
    (.withValue (show Doing.of? (Bytes.ofString "--restart") = some ⟨[], some .restart⟩ from rfl)
      (looksLikeOption_of_isAbsolute absolute) .nil)

/-- The arguments of the next image are read if those of this one spell acts that were done. -/
theorem complete_next {arguments : List Bytes} {acts : List Act} {options : Options} {p : Path}
    (spells : Spells arguments acts) (done : acts.foldlM Options.act {} = .ok options)
    (absolute : p.isAbsolute = true) :
    ∃ again, ({} : Reading).complete (Image.keep arguments ++ Image.added (some p)) = .ok again ∧
      again.lasting = options.lasting ∧ again.noAutostart = true ∧ again.restart = some p := by
  obtain ⟨kept, left, same, spells', thinned⟩ := Image.keep_spells spells []
  rw [List.append_nil, Image.keep, List.append_nil] at same
  obtain ⟨middle, done', alike⟩ := lasting_of_thinned thinned rfl done
  have named : Options.readPath p.bytes = .ok p := by
    obtain ⟨rest, bytes⟩ := bytes_of_isAbsolute absolute
    rw [Options.readPath, if_neg (by rw [bytes]; exact List.cons_ne_nil _ _)]
  have added : [.switch .noAutostart, .setting .restart p.bytes].foldlM Options.act middle =
      .ok { middle with noAutostart := true, restart := some p } := by
    refine foldlM_cons_ok.mpr ⟨{ middle with noAutostart := true }, rfl, ?_⟩
    exact Reading.foldlM_act_singleton.mpr (map_eq_ok.mpr ⟨p, named, rfl⟩)
  rw [same]
  refine ⟨_, Reading.complete_of_spells (spells'.append (spells_added absolute))
    Reading.amongOptions_begin rfl (foldlM_append_ok.mpr ⟨middle, done', added⟩), ?_, rfl, rfl⟩
  exact alike.symm

/-- Behind a lone `--` the arguments that are added are words of a command. -/
theorem command_of_endOfOptions {kept : List Bytes} {p : Path} {again : Options}
    (absolute : p.isAbsolute = true) (ended : endOfOptions ∈ kept)
    (read : ({} : Reading).complete (kept ++ Image.added (some p)) = .ok again) :
    again.command ≠ [] := by
  intro noCommand
  have shape : kept ++ Image.added (some p) =
      (kept ++ [Bytes.ofString "-a", Bytes.ofString "--restart"]) ++ [p.bytes] := by
    rw [List.append_assoc]
    rfl
  have notLast : p.bytes ≠ endOfOptions := by
    obtain ⟨_, bytes⟩ := bytes_of_isAbsolute absolute
    rw [bytes]
    exact nofun
  rw [shape] at read
  exact Reading.going_of_complete Reading.amongOptions_begin read noCommand notLast
    (List.mem_append_left _ (List.mem_append_left _ ended))

/-- **The command line of the next image is read as this one was, if no lone `--` ends its
options.** The arguments of an image that runs the window manager, and the program's name, give
the next image a command line that is read again as one for the window manager, with the same
configuration, log and signal options, with autostart off, and with the snapshot to begin with and
to delete. A lone `--` is kept in front of what is added, which then reads as a command. -/
theorem next_image_reads_back {argv : List Bytes} {options : Options} {p : Path}
    (named : argv ≠ []) (read : Options.parse argv = .ok options)
    (manager : options.isManagerMode = true) (absolute : p.isAbsolute = true) :
    (∃ launch again, Image.next argv (some p) = .ok launch ∧
      Options.parse launch.commandLine = .ok again ∧ again.isManagerMode = true ∧
      again.config = options.config ∧ again.verbose = options.verbose ∧
      again.debug = options.debug ∧ again.logSize = options.logSize ∧
      again.disableSignalHandler = options.disableSignalHandler ∧
      again.noAutostart = true ∧ again.snapshot? = some (p, true)) ↔
    endOfOptions ∉ argv.drop 1 := by
  obtain ⟨program, arguments, rfl⟩ := List.exists_cons_of_ne_nil named
  obtain ⟨noVersion, noMoreVersion, noSocketPath, noCommand⟩ := isManagerMode_iff.mp manager
  have readAll : ({} : Reading).complete arguments = .ok options := read
  obtain ⟨front, going, readFront, shape⟩ :=
    Reading.ends_of_complete Reading.amongOptions_begin readAll noCommand
  obtain ⟨s, acts, settled, spells, done⟩ :=
    (Reading.spells_of_complete Reading.amongOptions_begin going readFront noCommand).1 nofun
  cases settled
  constructor
  · -- A lone `--` can only stand at the end. It is kept, and what is added stands behind it.
    rintro ⟨launch, again, launched, readAgain, manager', -⟩ ended
    cases launched
    rcases shape with rfl | rfl
    · exact going ended
    · obtain ⟨kept, left, same, _, _⟩ := Image.keep_spells spells [endOfOptions]
      have keptEnd : endOfOptions ∈ Image.keep (front ++ [endOfOptions]) := by
        rw [same, Image.keep_cons_kept Image.fate_endOfOptions]
        exact List.mem_append_right _ List.mem_cons_self
      exact command_of_endOfOptions absolute keptEnd readAgain (isManagerMode_iff.mp manager').2.2.2
  · intro open'
    rcases shape with rfl | rfl
    · obtain ⟨again, readAgain, alike, noAutostart, restart⟩ := complete_next spells done absolute
      obtain ⟨config, _, _, _, verbose, debug, logSize, handler, version, moreVersion, socketPath,
        command⟩ := Options.mk.inj alike
      refine ⟨_, again, rfl, readAgain, isManagerMode_iff.mpr ⟨?_, ?_, ?_, ?_⟩, config, verbose,
        debug, logSize, handler, noAutostart, by rw [Options.snapshot?, restart]⟩
      · exact version.trans noVersion
      · exact moreVersion.trans noMoreVersion
      · exact socketPath.trans noSocketPath
      · exact command.trans noCommand
    · exact absurd (List.mem_append_right _ List.mem_cons_self) open'

/-- Short options in one argument, a layout, and the snapshot of an earlier restart. -/
theorem next_image_reads_back_of_cluster :
    ∃ launch again,
      Image.next
        (["kestrel", "-Vac", "/etc/k", "-L", "l.json", "--restart=/old"].map Bytes.ofString)
        (some (Path.ofString "/new")) = .ok launch ∧
      Options.parse launch.commandLine = .ok again ∧ again.isManagerMode = true ∧
      again.config = some (Path.ofString "/etc/k") ∧ again.verbose = true ∧
      again.snapshot? = some (Path.ofString "/new", true) := by
  let options : Options :=
    { config := some (Path.ofString "/etc/k"), noAutostart := true,
      layout := some (Path.ofString "l.json"), restart := some (Path.ofString "/old"),
      verbose := true }
  have named : ["kestrel", "-Vac", "/etc/k", "-L", "l.json", "--restart=/old"].map Bytes.ofString ≠
      [] := nofun
  have read : Options.parse (["kestrel", "-Vac", "/etc/k", "-L", "l.json", "--restart=/old"].map
      Bytes.ofString) = .ok options := by rfl
  have absolute : (Path.ofString "/new").isAbsolute = true := rfl
  obtain ⟨launch, again, launched, readAgain, manager, config, verbose, _, _, _, _, snapshot⟩ :=
    (next_image_reads_back named read rfl absolute).mpr (by decide)
  exact ⟨launch, again, launched, readAgain, manager, config, verbose, snapshot⟩

/-- A lone `--` changes nothing in this image and makes a command of what is added for the
next. -/
theorem endOfOptions_makes_command :
    ∃ options launch again,
      Options.parse (["kestrel", "--"].map Bytes.ofString) = .ok options ∧
      options.isManagerMode = true ∧
      Image.next (["kestrel", "--"].map Bytes.ofString) (some (Path.ofString "/new")) =
        .ok launch ∧
      Options.parse launch.commandLine = .ok again ∧ again.isManagerMode = false ∧
      again.command = ["-a", "--restart", "/new"] ∧ again.noAutostart = false ∧
      again.snapshot? = none :=
  ⟨_, _, _, rfl, rfl, rfl, rfl, rfl, rfl, rfl, rfl⟩

end Succession
