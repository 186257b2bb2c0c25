import Succession.Proofs.CommandLine.NextImage
import Succession.Proofs.Text.Utf8RoundTrip

/-!
# What an image without a snapshot begins with

Where the snapshot of a restart could not be written, the next image is given none and should begin
afresh: of its arguments those that name a snapshot or a layout are taken out. The filter knows them
by how they begin, and it overlooks two kinds of spellings (`Image.overlooked_iff`): a layout that
stands behind switches in one argument, and an argument that is no text. The next image begins
afresh exactly if none of its arguments is of these kinds (`begins_afresh_iff`).
-/

namespace Succession

/-! ## 1. Naming a snapshot -/

/-- Whether a setting names what to restore the order from. -/
def Setting.namesSnapshot : Setting → Bool
  | .layout | .restart => true
  | .config | .logSize => false

/-- Whether an option names what to restore the order from. -/
def OptionKey.namesSnapshot : OptionKey → Bool
  | .setting key => key.namesSnapshot
  | .switch _ => false

/-- Whether an act names what to restore the order from. -/
def Act.namesSnapshot : Act → Bool
  | .setting key _ => key.namesSnapshot
  | .switch _ => false

/-- Whether what an argument does names a snapshot, if only with the value that is still to
come. -/
def Doing.namesSnapshot (d : Doing) : Bool :=
  d.acts.any Act.namesSnapshot || d.awaited.any Setting.namesSnapshot

/-- Whether an argument is an option that names a snapshot. -/
def namesSnapshot (argument : Bytes) : Bool := (Doing.of? argument).any Doing.namesSnapshot

theorem Options.snapshot?_eq_none {o : Options} :
    o.snapshot? = none ↔ o.restart = none ∧ o.layout = none := by
  unfold snapshot?
  cases o.restart <;> simp

theorem Options.snapshot?_act {a : Act} {o o' : Options} (done : o.act a = .ok o') :
    o'.snapshot? = none ↔ o.snapshot? = none ∧ a.namesSnapshot = false := by
  cases a with
  | switch s => cases s <;> cases done <;> simp [snapshot?_eq_none, Act.namesSnapshot]
  | setting key value =>
    cases key <;>
    · obtain ⟨_, _, rfl⟩ := map_eq_ok.mp done
      simp [snapshot?_eq_none, Act.namesSnapshot, Setting.namesSnapshot]

/-- Options begin with a snapshot if and only if they did before or an act names one. -/
theorem Options.snapshot?_acts {acts : List Act} {o o' : Options}
    (done : acts.foldlM Options.act o = .ok o') :
    o'.snapshot? = none ↔ o.snapshot? = none ∧ ∀ a ∈ acts, a.namesSnapshot = false := by
  induction acts generalizing o with
  | nil =>
    cases done
    simp
  | cons a rest ih =>
    obtain ⟨middle, first, others⟩ := foldlM_cons_ok.mp done
    rw [ih others, snapshot?_act first, List.forall_mem_cons, and_assoc]

theorem namesSnapshot_plain {argument : Bytes} (plain : looksLikeOption argument = false) :
    namesSnapshot argument = false := by
  cases doing : Doing.of? argument with
  | none => rw [namesSnapshot, doing, Option.any_none]
  | some d =>
    rw [looksLikeOption_of_doing doing] at plain
    cases plain

/-- A line of options names a snapshot by one of its arguments. -/
theorem Spells.namesSnapshot_iff {arguments : List Bytes} {acts : List Act}
    (spells : Spells arguments acts) :
    (∀ a ∈ acts, a.namesSnapshot = false) ↔
      ∀ argument ∈ arguments, namesSnapshot argument = false := by
  induction spells with
  | nil => simp
  | alone doing _ ih =>
    rw [List.forall_mem_append, List.forall_mem_cons, ih, namesSnapshot, doing]
    simp [Doing.namesSnapshot]
  | withValue doing plain _ ih =>
    rw [List.forall_mem_append, List.forall_mem_cons, List.forall_mem_cons, List.forall_mem_cons,
      ih, namesSnapshot_plain plain, namesSnapshot, doing]
    simp [Doing.namesSnapshot, Act.namesSnapshot, and_assoc]

/-! ## 2. How an option that names a snapshot is spelled -/

/-- The letter that stands for a layout among short options. -/
def layoutLetter : UInt8 := 0x4C

/-- Whether a byte stands for a switch among short options. -/
def isSwitch (b : UInt8) : Bool := (OptionKey.ofShort? b).any fun key => key matches .switch _

theorem OptionKey.ofShort?_namesSnapshot {b : UInt8} :
    (ofShort? b).any namesSnapshot = true ↔ b = layoutLetter := by
  constructor
  · intro names
    unfold ofShort? at names
    split at names
    case h_3 letter =>
      have code := congrArg Char.toNat letter
      rw [Utf8.toNat_ofNat_of_valid (.inl (by have := b.toNat_lt; omega))] at code
      exact UInt8.toNat_inj.mp code
    all_goals cases names
  · rintro rfl
    rfl

theorem OptionKey.ofLong?_namesSnapshot {name : Bytes} :
    (ofLong? name).any namesSnapshot = true ↔
      name = Bytes.ofString "layout" ∨ name = Bytes.ofString "restart" := by
  have listed : ∀ entry ∈ longNames, entry.2.namesSnapshot = true →
      entry.1 = "layout" ∨ entry.1 = "restart" := by
    decide
  constructor
  · intro names
    obtain ⟨key, found, names⟩ := (Option.any_eq_true _ _).mp names
    obtain ⟨⟨long, key⟩, searched, rfl⟩ := Option.map_eq_some_iff.mp found
    have same : Bytes.ofString long = name := by simpa using List.find?_some searched
    rcases listed _ (List.mem_of_find?_eq_some searched) names with text | text
    · exact .inl (by rw [← same, ← text])
    · exact .inr (by rw [← same, ← text])
  · rintro (rfl | rfl) <;> rfl

theorem Bytes.eq_of_cut? {separator : UInt8} {bytes before after : Bytes}
    (cut : cut? separator bytes = some (before, after)) : bytes = before ++ separator :: after := by
  induction bytes generalizing before with
  | nil => cases cut
  | cons b rest ih =>
    unfold cut? at cut
    split at cut
    · next here =>
      cases cut
      rw [here, List.nil_append]
    · obtain ⟨⟨start, _⟩, found, same⟩ := Option.map_eq_some_iff.mp cut
      cases same
      rw [ih found, List.cons_append]

namespace Doing

theorem namesSnapshot_alone {body : Bytes} (alone : Bytes.cut? Reading.equals body = none) :
    (ofLong? body).any namesSnapshot = (OptionKey.ofLong? body).any OptionKey.namesSnapshot := by
  unfold ofLong?
  rw [alone]
  cases OptionKey.ofLong? body with
  | none => rfl
  | some key => cases key <;> rfl

theorem namesSnapshot_joined {body name value : Bytes}
    (joined : Bytes.cut? Reading.equals body = some (name, value)) :
    (ofLong? body).any namesSnapshot = (OptionKey.ofLong? name).any OptionKey.namesSnapshot := by
  unfold ofLong?
  rw [joined]
  cases found : OptionKey.ofLong? name with
  | none => simp only [found, Option.any_none]
  | some key =>
    cases key with
    | switch s => simp only [found, Option.any_none, Option.any_some, OptionKey.namesSnapshot]
    | setting key =>
      simp [found, namesSnapshot, Act.namesSnapshot, OptionKey.namesSnapshot]

/-- A long option names a snapshot alone or with the value joined to it. -/
theorem ofLong?_namesSnapshot {body : Bytes} :
    (ofLong? body).any namesSnapshot = true ↔
      body = Bytes.ofString "layout" ∨ body = Bytes.ofString "restart" ∨
        ∃ value, body = Bytes.ofString "layout=" ++ value ∨
          body = Bytes.ofString "restart=" ++ value := by
  constructor
  · intro names
    cases cut : Bytes.cut? Reading.equals body with
    | none =>
      rw [namesSnapshot_alone cut] at names
      rcases OptionKey.ofLong?_namesSnapshot.mp names with layout | restart
      · exact .inl layout
      · exact .inr (.inl restart)
    | some pair =>
      have whole := Bytes.eq_of_cut? cut
      rw [namesSnapshot_joined cut] at names
      rcases OptionKey.ofLong?_namesSnapshot.mp names with layout | restart
      · exact .inr (.inr ⟨pair.2, .inl (by rw [whole, layout]; rfl)⟩)
      · exact .inr (.inr ⟨pair.2, .inr (by rw [whole, restart]; rfl)⟩)
  · rintro (rfl | rfl | ⟨value, rfl | rfl⟩) <;> rfl

/-- A setting among short options takes all that stands behind it. -/
theorem namesSnapshot_setting {b : UInt8} {rest : Bytes} {key : Setting}
    (found : OptionKey.ofShort? b = some (.setting key)) :
    (ofShort? (b :: rest)).any namesSnapshot = key.namesSnapshot := by
  rw [ofShort?, found]
  cases rest with
  | nil => rfl
  | cons c value => simp [namesSnapshot, Act.namesSnapshot]

theorem namesSnapshot_switch {b : UInt8} {rest : Bytes} {s : Switch}
    (found : OptionKey.ofShort? b = some (.switch s)) :
    (ofShort? (b :: rest)).any namesSnapshot = (ofShort? rest).any namesSnapshot := by
  rw [ofShort?, found]
  simp only [Option.any_map]
  rfl

/-- Among short options a layout stands first or behind switches. -/
theorem ofShort?_namesSnapshot {body : Bytes} :
    (ofShort? body).any namesSnapshot = true ↔
      ∃ switches value, (∀ b ∈ switches, isSwitch b = true) ∧
        body = switches ++ layoutLetter :: value := by
  constructor
  · intro names
    induction body with
    | nil => cases names
    | cons b rest ih =>
      cases found : OptionKey.ofShort? b with
      | none =>
        rw [ofShort?, found] at names
        cases names
      | some key =>
        cases key with
        | switch s =>
          rw [namesSnapshot_switch found] at names
          obtain ⟨switches, value, all, rfl⟩ := ih names
          refine ⟨b :: switches, value, ?_, rfl⟩
          exact List.forall_mem_cons.mpr ⟨by rw [isSwitch, found]; rfl, all⟩
        | setting key =>
          rw [namesSnapshot_setting found] at names
          have letter : b = layoutLetter := by
            rw [← OptionKey.ofShort?_namesSnapshot, found]
            exact names
          exact ⟨[], rest, List.forall_mem_nil _, by rw [letter, List.nil_append]⟩
  · rintro ⟨switches, value, all, rfl⟩
    induction switches with
    | nil =>
      have found : OptionKey.ofShort? layoutLetter = some (.setting .layout) := rfl
      exact namesSnapshot_setting found
    | cons b switches ih =>
      obtain ⟨⟨key, found, switch⟩, others⟩ :=
        (List.forall_mem_cons.mp all).imp_left (Option.any_eq_true _ _).mp
      cases key with
      | setting _ => cases switch
      | switch s =>
        rw [List.cons_append, namesSnapshot_switch found]
        exact ih others

end Doing

/-- The spellings that name a snapshot. -/
inductive NamesSnapshot : Bytes → Prop
  /-- A layout among short options, with what stands behind it as its value. -/
  | short (switches value : Bytes) : (∀ b ∈ switches, isSwitch b = true) →
      NamesSnapshot (Reading.hyphen :: (switches ++ layoutLetter :: value))
  | layout : NamesSnapshot (Bytes.ofString "--layout")
  | restart : NamesSnapshot (Bytes.ofString "--restart")
  | layoutJoined (value : Bytes) : NamesSnapshot (Bytes.ofString "--layout=" ++ value)
  | restartJoined (value : Bytes) : NamesSnapshot (Bytes.ofString "--restart=" ++ value)

theorem ne_hyphen_of_isSwitch {b : UInt8} (switch : isSwitch b = true) : b ≠ Reading.hyphen := by
  rintro rfl
  cases switch

theorem Doing.of?_short {b : UInt8} {body : Bytes} (short : b ≠ Reading.hyphen) :
    of? (Reading.hyphen :: b :: body) = ofShort? (b :: body) := by
  rw [of?, if_pos rfl, if_neg short]

theorem namesSnapshot_iff {argument : Bytes} :
    namesSnapshot argument = true ↔ NamesSnapshot argument := by
  constructor
  · intro names
    obtain ⟨d, doing, _⟩ := (Option.any_eq_true _ _).mp names
    obtain ⟨b, body, rfl⟩ := looksLikeOption_iff.mp (looksLikeOption_of_doing doing)
    by_cases long : b = Reading.hyphen
    · subst long
      have named : body ≠ [] := fun empty => by
        rw [empty] at doing
        cases doing
      rw [namesSnapshot, Doing.of?, if_pos rfl, if_pos rfl, if_neg named] at names
      rcases Doing.ofLong?_namesSnapshot.mp names with rfl | rfl | ⟨value, rfl | rfl⟩
      · exact .layout
      · exact .restart
      · exact .layoutJoined value
      · exact .restartJoined value
    · rw [namesSnapshot, Doing.of?_short long] at names
      obtain ⟨switches, value, all, same⟩ := Doing.ofShort?_namesSnapshot.mp names
      rw [same]
      exact .short switches value all
  · intro names
    cases names with
    | short switches value all =>
      have short := Doing.ofShort?_namesSnapshot.mpr ⟨switches, value, all, rfl⟩
      cases switches with
      | nil => exact short
      | cons b others =>
        rw [List.cons_append] at short
        rw [namesSnapshot, List.cons_append,
          Doing.of?_short (ne_hyphen_of_isSwitch (all b List.mem_cons_self))]
        exact short
    | layout | restart | layoutJoined value | restartJoined value => rfl

/-! ## 3. What the filter misses -/

namespace Image

/-- The joined spellings that the filter knows. -/
def joinedSpellings : List String := ["-L", "--layout=", "--restart="]

theorem fate_of_not_isText {argument : Bytes} (noText : Utf8.isText argument = false) :
    fate argument = .kept := by
  unfold fate
  rw [noText]
  rfl

theorem fate_joined {spelling : String} (known : spelling ∈ joinedSpellings) {value : Bytes}
    (text : Utf8.isText (Bytes.ofString spelling ++ value) = true) :
    fate (Bytes.ofString spelling ++ value) ≠ .kept := by
  have starts : Bytes.startsWith (Bytes.ofString spelling ++ value) (Bytes.ofString spelling) =
      true := List.isPrefixOf_iff_prefix.mpr (List.prefix_append _ _)
  unfold fate
  dsimp only
  rw [text]
  simp only [Bool.not_true, Bool.false_eq_true, if_false]
  split
  · exact nofun
  · split
    · exact nofun
    · simp only [joinedSpellings, List.mem_cons, List.not_mem_nil, or_false] at known
      rw [if_pos]
      · exact nofun
      · rcases known with rfl | rfl | rfl <;> simp only [starts, Bool.or_true, Bool.true_or]

/-- What is not passed on turns autostart off or begins like an option that names a snapshot. -/
theorem start_of_fate {argument : Bytes} (gone : fate argument ≠ .kept) :
    argument = Bytes.ofString "-a" ∨ ∃ b rest, (b = Reading.hyphen ∨ b = layoutLetter) ∧
      argument = Reading.hyphen :: b :: rest := by
  cases became : fate argument with
  | kept => exact absurd became gone
  | dropped =>
    rcases spelling_of_dropped became with
      same | rfl | ⟨value, rfl⟩ | ⟨value, rfl⟩ | ⟨b, value, rfl⟩
    · exact .inl same
    · exact .inr ⟨_, _, .inl rfl, rfl⟩
    · exact .inr ⟨_, _, .inl rfl, rfl⟩
    · exact .inr ⟨_, _, .inl rfl, rfl⟩
    · exact .inr ⟨_, _, .inr rfl, rfl⟩
  | droppedWithValue =>
    rcases spelling_of_droppedWithValue became with rfl | rfl | rfl
    · exact .inr ⟨_, _, .inl rfl, rfl⟩
    · exact .inr ⟨_, _, .inr rfl, rfl⟩
    · exact .inr ⟨_, _, .inl rfl, rfl⟩

theorem fate_behind_switches {switches value : Bytes} (behind : switches ≠ [])
    (all : ∀ b ∈ switches, isSwitch b = true) :
    fate (Reading.hyphen :: (switches ++ layoutLetter :: value)) = .kept := by
  refine Classical.byContradiction fun gone => ?_
  obtain ⟨c, others, rfl⟩ := List.exists_cons_of_ne_nil behind
  have switch := all c List.mem_cons_self
  rcases start_of_fate gone with same | ⟨b, rest, start, same⟩
  · have long := congrArg List.length same
    rw [List.length_cons, List.length_append, List.length_cons, List.length_cons] at long
    have : (Bytes.ofString "-a").length = 2 := rfl
    omega
  · cases same
    rcases start with rfl | rfl <;> cases switch

/-- The spellings that slip through the filter: a layout behind switches, since only an argument's
start is looked at, and an argument that is no text, since it is not looked at. -/
def Overlooked (argument : Bytes) : Prop :=
  (∃ switches value, switches ≠ [] ∧ (∀ b ∈ switches, isSwitch b = true) ∧
    argument = Reading.hyphen :: (switches ++ layoutLetter :: value)) ∨
  (Utf8.isText argument = false ∧
    ∃ spelling ∈ joinedSpellings, ∃ value, argument = Bytes.ofString spelling ++ value)

/-- These are all that name a snapshot and are passed on. -/
theorem overlooked_iff {argument : Bytes} :
    Overlooked argument ↔ fate argument = .kept ∧ namesSnapshot argument = true := by
  rw [namesSnapshot_iff, iff_comm]
  constructor
  · rintro ⟨kept, names⟩
    -- A joined spelling that is text would have been dropped.
    have noText {spelling : String} (known : spelling ∈ joinedSpellings) {value : Bytes}
        (same : argument = Bytes.ofString spelling ++ value) : Utf8.isText argument = false := by
      rw [Bool.eq_false_iff]
      intro text
      rw [same] at kept text
      exact fate_joined known text kept
    cases names with
    | short switches value all =>
      by_cases first : switches = []
      · subst first
        have known : "-L" ∈ joinedSpellings := by decide
        exact .inr ⟨noText known rfl, _, known, value, rfl⟩
      · exact .inl ⟨switches, value, first, all, rfl⟩
    | layout => cases kept
    | restart => cases kept
    | layoutJoined value =>
      have known : "--layout=" ∈ joinedSpellings := by decide
      exact .inr ⟨noText known rfl, _, known, value, rfl⟩
    | restartJoined value =>
      have known : "--restart=" ∈ joinedSpellings := by decide
      exact .inr ⟨noText known rfl, _, known, value, rfl⟩
  · rintro (⟨switches, value, behind, all, rfl⟩ | ⟨noText, spelling, known, value, rfl⟩)
    · exact ⟨fate_behind_switches behind all, .short switches value all⟩
    · refine ⟨fate_of_not_isText noText, ?_⟩
      simp only [joinedSpellings, List.mem_cons, List.not_mem_nil, or_false] at known
      rcases known with rfl | rfl | rfl
      · exact .short [] value (List.forall_mem_nil _)
      · exact .layoutJoined value
      · exact .restartJoined value

instance : DecidablePred Overlooked := fun _ => decidable_of_iff _ overlooked_iff.symm

/-! ## 4. What is passed on -/

/-- In a line of options the filter passes on every option that it does not know: none goes as the
value of another. -/
theorem mem_keep {arguments : List Bytes} {acts : List Act} (spells : Spells arguments acts)
    (behind : List Bytes) {argument : Bytes} (member : argument ∈ arguments)
    (option : looksLikeOption argument = true) (kept : fate argument = .kept) :
    argument ∈ keep (arguments ++ behind) := by
  induction spells with
  | nil => cases member
  | @alone first _ _ _ doing _ ih =>
    rw [List.cons_append]
    rcases List.mem_cons.mp member with rfl | later
    · rw [keep_cons_kept kept]
      exact List.mem_cons_self
    · cases became : fate first with
      | kept =>
        rw [keep_cons_kept became]
        exact List.mem_cons_of_mem _ (ih later)
      | dropped =>
        rw [keep_cons_dropped became]
        exact ih later
      | droppedWithValue =>
        obtain ⟨_, doing', _⟩ := doing_of_droppedWithValue became
        cases Option.some.inj (doing.symm.trans doing')
  | @withValue first value _ _ _ _ doing plain _ ih =>
    rw [List.cons_append, List.cons_append]
    -- What goes with a dropped option is its value, and a value is no option.
    have notValue : argument ≠ value := fun same => by
      rw [same, plain] at option
      cases option
    rcases List.mem_cons.mp member with rfl | later
    · rw [keep_cons_kept kept]
      exact List.mem_cons_self
    · have later := ih ((List.mem_cons.mp later).resolve_left notValue)
      cases became : fate first with
      | kept =>
        rw [keep_cons_kept became, keep_cons_kept (fate_plain plain)]
        exact List.mem_cons_of_mem _ (List.mem_cons_of_mem _ later)
      | dropped =>
        obtain ⟨_, doing', _⟩ := doing_of_dropped became
        cases Option.some.inj (doing.symm.trans doing')
      | droppedWithValue =>
        rw [keep_cons_droppedWithValue became]
        exact later

end Image

/-! ## 5. The next image without a snapshot -/

/-- Of the arguments of a manager's line those that are passed on name a snapshot exactly if one
was overlooked. -/
theorem Image.namesSnapshot_keep {arguments : List Bytes} {options : Options}
    (read : ({} : Reading).complete arguments = .ok options) (noCommand : options.command = []) :
    (∀ argument ∈ keep arguments, namesSnapshot argument = false) ↔
      ∀ argument ∈ arguments, ¬Overlooked argument := by
  obtain ⟨front, going, readFront, shape⟩ :=
    Reading.ends_of_complete Reading.amongOptions_begin read noCommand
  obtain ⟨_, acts, _, spells, _⟩ :=
    (Reading.spells_of_complete Reading.amongOptions_begin going readFront noCommand).1 nofun
  constructor
  · intro silent argument member overlooked
    obtain ⟨kept, names⟩ := overlooked_iff.mp overlooked
    have option : looksLikeOption argument = true := by
      rw [← Bool.not_eq_false]
      exact fun plain => by rw [namesSnapshot_plain plain] at names; cases names
    suffices passed : argument ∈ keep arguments by
      rw [silent argument passed] at names
      cases names
    rcases shape with rfl | rfl
    · have passed := mem_keep spells [] member option kept
      rwa [List.append_nil] at passed
    · rcases List.mem_append.mp member with inFront | last
      · exact mem_keep spells [endOfOptions] inFront option kept
      · rw [List.mem_singleton.mp last] at names
        cases names
  · intro none argument member
    obtain ⟨member, kept⟩ := of_mem_keep member
    rw [Bool.eq_false_iff]
    exact fun names => none argument member (overlooked_iff.mpr ⟨kept, names⟩)

/-- **An image that is given no snapshot begins afresh unless the filter overlooks an argument.**
Take any command line that is read in manager mode and leaves the next image, without a snapshot,
a line that is read in manager mode again. That image has nothing to restore if and only if none
of the arguments is a layout behind switches or an argument joined to a path that is no text. -/
theorem begins_afresh_iff {argv : List Bytes} {options again : Options} {launch : Image.Launch}
    (read : Options.parse argv = .ok options) (manager : options.isManagerMode = true)
    (launched : Image.next argv none = .ok launch)
    (readAgain : Options.parse launch.commandLine = .ok again)
    (manager' : again.isManagerMode = true) :
    again.snapshot? = none ↔ ∀ argument ∈ argv.drop 1, ¬Image.Overlooked argument := by
  cases argv with
  | nil => cases launched
  | cons program arguments =>
    cases launched
    have autostart : Bytes.ofString "-a" ≠ endOfOptions := by decide
    have noCommand := (isManagerMode_iff.mp manager').2.2.2
    have going := Reading.going_of_complete Reading.amongOptions_begin readAgain noCommand autostart
    obtain ⟨s, acts, settled, spells, done⟩ :=
      (Reading.spells_of_complete Reading.amongOptions_begin going readAgain noCommand).1 nofun
    cases settled
    have silent : namesSnapshot (Bytes.ofString "-a") = false := by decide
    calc again.snapshot? = none
      _ ↔ ∀ a ∈ acts, a.namesSnapshot = false := by
        rw [Options.snapshot?_acts done]
        exact and_iff_right rfl
      _ ↔ ∀ argument ∈ Image.keep arguments, namesSnapshot argument = false := by
        rw [spells.namesSnapshot_iff, List.forall_mem_append, List.forall_mem_singleton]
        exact and_iff_left silent
      _ ↔ ∀ argument ∈ arguments, ¬Image.Overlooked argument :=
        Image.namesSnapshot_keep read (isManagerMode_iff.mp manager).2.2.2

/-- Every spelling that the filter knows, with switches and another setting between them. -/
theorem begins_afresh_of_known : ∃ launch again,
    Image.next (["kestrel", "-Vd", "--restart=/old", "-L", "l.json", "-c", "/etc/k", "-Lm.json",
      "--layout", "n.json", "--restart", "/older", "--layout=o.json"].map Bytes.ofString) none =
        .ok launch ∧
      Options.parse launch.commandLine = .ok again ∧ again.isManagerMode = true ∧
      again.config = some (Path.ofString "/etc/k") ∧ again.snapshot? = none := by
  let argv := ["kestrel", "-Vd", "--restart=/old", "-L", "l.json", "-c", "/etc/k", "-Lm.json",
    "--layout", "n.json", "--restart", "/older", "--layout=o.json"].map Bytes.ofString
  let options : Options :=
    { config := some (Path.ofString "/etc/k"), layout := some (Path.ofString "o.json"),
      restart := some (Path.ofString "/older"), verbose := true, debug := true }
  let again : Options :=
    { config := some (Path.ofString "/etc/k"), noAutostart := true, verbose := true,
      debug := true }
  have read : Options.parse argv = .ok options := rfl
  have readAgain : Options.parse (Image.Launch.commandLine ⟨Bytes.ofString "kestrel",
      ["-Vd", "-c", "/etc/k", "-a"].map Bytes.ofString⟩) = .ok again := rfl
  refine ⟨_, again, rfl, readAgain, rfl, rfl, ?_⟩
  exact (begins_afresh_iff read rfl rfl readAgain rfl).mpr (by decide)

/-- A layout behind a switch is passed on and restored. -/
theorem switch_hides_layout : ∃ options launch again,
    Options.parse (["kestrel", "-VL", "x.json"].map Bytes.ofString) = .ok options ∧
      options.isManagerMode = true ∧
      Image.next (["kestrel", "-VL", "x.json"].map Bytes.ofString) none = .ok launch ∧
      Options.parse launch.commandLine = .ok again ∧ again.isManagerMode = true ∧
      again.snapshot? = some (Path.ofString "x.json", false) :=
  ⟨_, _, _, rfl, rfl, rfl, rfl, rfl, rfl⟩

end Succession
