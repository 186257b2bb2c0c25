import Succession.CommandLine.Parse
import Succession.Proofs.Outcome

/-!
# What a command line does

Reading holds a setting back until the next option, so how far it has come does not say what has
been done. A line of options alone does the same as a list of acts, done one by one: the acts that
its arguments spell (`Spells`). Whatever reads such a line to its end has done its acts
(`spells_of_complete`), and acts that can be done are read from any line that spells them
(`complete_of_spells`).
-/

namespace Succession

/-- What an option does. -/
inductive Act
  | switch (s : Switch)
  | setting (key : Setting) (value : Bytes)
deriving DecidableEq, Repr

namespace Options

/-- The options after an act. -/
def act (options : Options) : Act → Except UsageFault Options
  | .switch s => options.turnOn s
  | .setting key value => options.assign key value

theorem command_turnOn {options next : Options} {s : Switch} (done : options.turnOn s = .ok next) :
    next.command = options.command := by
  cases s <;> cases done <;> rfl

theorem command_assign {options next : Options} {key : Setting} {value : Bytes}
    (done : options.assign key value = .ok next) : next.command = options.command := by
  cases key <;>
  · obtain ⟨_, _, rfl⟩ := map_eq_ok.mp done
    rfl

theorem command_act {options next : Options} {a : Act} (done : options.act a = .ok next) :
    next.command = options.command := by
  cases a with
  | switch s => exact command_turnOn done
  | setting key value => exact command_assign done

theorem command_acts {acts : List Act} {options next : Options}
    (done : acts.foldlM act options = .ok next) : next.command = options.command := by
  induction acts generalizing options with
  | nil =>
    cases done
    rfl
  | cons a rest ih =>
    obtain ⟨middle, first, others⟩ := foldlM_cons_ok.mp done
    exact (ih others).trans (command_act first)

end Options

/-! ## 1. The acts of one argument -/

/-- What an argument does: some acts, and perhaps a setting whose value is the next argument. -/
structure Doing where
  acts : List Act
  awaited : Option Setting := none
deriving DecidableEq, Repr

namespace Doing

/-- What short options in one argument do, given without the hyphen. -/
def ofShort? : Bytes → Option Doing
  | [] => some ⟨[], none⟩
  | b :: rest =>
    match OptionKey.ofShort? b with
    | none => none
    | some (.switch s) => (ofShort? rest).map fun d => { d with acts := .switch s :: d.acts }
    | some (.setting key) =>
      match rest with
      | [] => some ⟨[], some key⟩
      | c :: value => some ⟨[.setting key (if c = Reading.equals then value else c :: value)], none⟩

/-- What a long option does, given without the hyphens. -/
def ofLong? (body : Bytes) : Option Doing :=
  match Bytes.cut? Reading.equals body with
  | none =>
    match OptionKey.ofLong? body with
    | none => none
    | some (.switch s) => some ⟨[.switch s], none⟩
    | some (.setting key) => some ⟨[], some key⟩
  | some (name, value) =>
    match OptionKey.ofLong? name with
    | some (.setting key) => some ⟨[.setting key value], none⟩
    | _ => none

/-- What an argument that looks like an option does. -/
def of? : Bytes → Option Doing
  | a :: b :: body =>
    if a = Reading.hyphen then
      if b = Reading.hyphen then if body = [] then none else ofLong? body
      else ofShort? (b :: body)
    else none
  | _ => none

end Doing

/-- Whether an argument looks like an option. -/
def looksLikeOption : Bytes → Bool
  | a :: _ :: _ => a = Reading.hyphen
  | _ => false

theorem looksLikeOption_iff {argument : Bytes} :
    looksLikeOption argument = true ↔ ∃ b body, argument = Reading.hyphen :: b :: body := by
  unfold looksLikeOption
  split
  · simp
  · next short =>
    refine ⟨nofun, ?_⟩
    rintro ⟨b, body, rfl⟩
    exact absurd rfl (short _ _ _)

/-- The lone `--`. -/
def endOfOptions : Bytes := [Reading.hyphen, Reading.hyphen]

/-- The arguments are options, and these are their acts. -/
inductive Spells : List Bytes → List Act → Prop
  | nil : Spells [] []
  | alone {argument : Bytes} {acts : List Act} {rest : List Bytes} {later : List Act} :
      Doing.of? argument = some ⟨acts, none⟩ → Spells rest later →
      Spells (argument :: rest) (acts ++ later)
  | withValue {argument value : Bytes} {acts : List Act} {key : Setting} {rest : List Bytes}
      {later : List Act} :
      Doing.of? argument = some ⟨acts, some key⟩ → looksLikeOption value = false →
      Spells rest later →
      Spells (argument :: value :: rest) (acts ++ .setting key value :: later)

theorem Spells.append {front back : List Bytes} {acts later : List Act} (h : Spells front acts)
    (h' : Spells back later) : Spells (front ++ back) (acts ++ later) := by
  induction h with
  | nil => exact h'
  | alone doing _ ih =>
    rw [List.append_assoc]
    exact .alone doing ih
  | withValue doing plain _ ih =>
    rw [List.append_assoc]
    exact .withValue doing plain ih

theorem looksLikeOption_of_doing {argument : Bytes} {d : Doing}
    (doing : Doing.of? argument = some d) : looksLikeOption argument = true := by
  unfold Doing.of? at doing
  split at doing
  · next a b body =>
    split at doing
    · next hyphen => exact looksLikeOption_iff.mpr ⟨b, body, by rw [hyphen]⟩
    · cases doing
  · cases doing

theorem going_of_doing {argument : Bytes} {d : Doing} (doing : Doing.of? argument = some d) :
    argument ≠ endOfOptions := by
  rintro rfl
  cases doing

namespace Reading

/-! ## 2. Reading one argument -/

/-- The reading after an option has done what it does. -/
def after (r : Reading) (options : Options) (awaited : Option Setting) : Reading :=
  { r with options := options, pending := awaited.map fun key => (key, none) }

theorem settle_eq_ok {r s : Reading} (settled : r.settle = .ok s) :
    s = { r with options := s.options, pending := none } := by
  obtain ⟨options, pending, trailing, words⟩ := r
  unfold settle at settled
  split at settled
  · next none =>
    cases settled
    simp only at none
    rw [none]
  · cases settled
  · obtain ⟨_, _, rfl⟩ := map_eq_ok.mp settled
    rfl

theorem settle_of_none {r : Reading} (none : r.pending = none) : r.settle = .ok r := by
  rw [settle, none]

theorem pending_of_settle {r s : Reading} (settled : r.settle = .ok s) : s.pending = none := by
  rw [settle_eq_ok settled]

theorem ok_eq_after {s r' : Reading} (idle : s.pending = none) (options : Options) :
    (Except.ok { s with options := options } : Except UsageFault Reading) = .ok r' ↔
      r' = s.after options none := by
  rw [after, Option.map_none, ← idle]
  exact ⟨fun h => (Except.ok.inj h).symm, fun h => congrArg Except.ok h.symm⟩

theorem turnOn_ok {r r' : Reading} {k : Switch} : r.turnOn k = .ok r' ↔
    ∃ s, r.settle = .ok s ∧ ∃ options, s.options.turnOn k = .ok options ∧
      r' = s.after options none := by
  unfold turnOn
  simp only [bind_eq_ok]
  refine exists_congr fun s => and_congr_right fun settled => ?_
  exact exists_congr fun options => and_congr_right fun _ =>
    ok_eq_after (pending_of_settle settled) options

theorem assign_ok {r r' : Reading} {key : Setting} {value : Bytes} : r.assign key value = .ok r' ↔
    ∃ s, r.settle = .ok s ∧ ∃ options, s.options.assign key value = .ok options ∧
      r' = s.after options none := by
  unfold assign
  simp only [bind_eq_ok]
  refine exists_congr fun s => and_congr_right fun settled => ?_
  exact exists_congr fun options => and_congr_right fun _ =>
    ok_eq_after (pending_of_settle settled) options

theorem await_ok {r r' : Reading} {key : Setting} : r.await key = .ok r' ↔
    ∃ s, r.settle = .ok s ∧ r' = s.after s.options (some key) := by
  unfold await
  simp only [bind_eq_ok]
  exact exists_congr fun s => and_congr_right fun _ =>
    ⟨fun h => (Except.ok.inj h).symm, fun h => congrArg Except.ok h.symm⟩

/-- Whether reading an argument that does this leads from one reading to another. -/
def Does (d : Doing) (r r' : Reading) : Prop :=
  ∃ s, r.settle = .ok s ∧ ∃ options, d.acts.foldlM Options.act s.options = .ok options ∧
    r' = s.after options d.awaited

theorem foldlM_act_singleton {options next : Options} {a : Act} :
    [a].foldlM Options.act options = .ok next ↔ options.act a = .ok next := by
  rw [foldlM_cons_ok]
  exact ⟨fun ⟨_, first, last⟩ => Except.ok.inj last ▸ first, fun h => ⟨next, h, rfl⟩⟩

theorem does_switch {r r' : Reading} {k : Switch} :
    Does ⟨[.switch k], none⟩ r r' ↔ r.turnOn k = .ok r' := by
  rw [turnOn_ok]
  simp only [Does, foldlM_act_singleton]
  rfl

theorem does_setting {r r' : Reading} {key : Setting} {value : Bytes} :
    Does ⟨[.setting key value], none⟩ r r' ↔ r.assign key value = .ok r' := by
  rw [assign_ok]
  simp only [Does, foldlM_act_singleton]
  rfl

theorem does_await {r r' : Reading} {key : Setting} :
    Does ⟨[], some key⟩ r r' ↔ r.await key = .ok r' := by
  rw [await_ok]
  refine exists_congr fun s => and_congr_right fun _ => ?_
  exact ⟨fun ⟨_, same, h⟩ => Except.ok.inj same ▸ h, fun h => ⟨s.options, rfl, h⟩⟩

/-- A switch in front of other short options. -/
theorem does_cons {r r' : Reading} {k : Switch} {d : Doing} :
    Does { d with acts := .switch k :: d.acts } r r' ↔
      ∃ middle, r.turnOn k = .ok middle ∧ Does d middle r' := by
  constructor
  · rintro ⟨s, settled, options, done, rfl⟩
    obtain ⟨first, turned, others⟩ := foldlM_cons_ok.mp done
    refine ⟨s.after first none, turnOn_ok.mpr ⟨s, settled, first, turned, rfl⟩, ?_⟩
    exact ⟨_, settle_of_none rfl, options, others, rfl⟩
  · rintro ⟨middle, turned, s, settled, options, done, rfl⟩
    obtain ⟨s', settled', first, turned', rfl⟩ := turnOn_ok.mp turned
    rw [settle_of_none rfl] at settled
    cases settled
    exact ⟨s', settled', options, foldlM_cons_ok.mpr ⟨first, turned', done⟩, rfl⟩

theorem readShort_ok {r r' : Reading} {b : UInt8} {body : Bytes} :
    r.readShort (b :: body) = .ok r' ↔ ∃ d, Doing.ofShort? (b :: body) = some d ∧ Does d r r' := by
  induction body generalizing r b with
  | nil =>
    rw [readShort, Doing.ofShort?]
    cases OptionKey.ofShort? b with
    | none => simp
    | some key =>
      cases key with
      | setting key => simp [does_await]
      | switch k =>
        have whole : (r.turnOn k >>= fun r => readShort r []) = .ok r' ↔ r.turnOn k = .ok r' := by
          rw [bind_eq_ok]
          exact ⟨fun ⟨_, first, last⟩ => Except.ok.inj last ▸ first, fun h => ⟨r', h, rfl⟩⟩
        simp [whole, Doing.ofShort?, does_switch]
  | cons c body ih =>
    rw [readShort, Doing.ofShort?]
    cases OptionKey.ofShort? b with
    | none => simp
    | some key =>
      cases key with
      | setting key =>
        by_cases joined : c = equals
        · simp [joined, does_setting]
        · simp [joined, does_setting]
      | switch k =>
        simp only [bind_eq_ok, ih]
        constructor
        · rintro ⟨middle, turned, d, doing, done⟩
          exact ⟨_, by rw [doing]; rfl, does_cons.mpr ⟨middle, turned, done⟩⟩
        · rintro ⟨d, doing, done⟩
          obtain ⟨d', doing', rfl⟩ := Option.map_eq_some_iff.mp doing
          obtain ⟨middle, turned, done'⟩ := does_cons.mp done
          exact ⟨middle, turned, d', doing', done'⟩

theorem readLong_ok {r r' : Reading} {body : Bytes} :
    r.readLong body = .ok r' ↔ ∃ d, Doing.ofLong? body = some d ∧ Does d r r' := by
  rw [readLong, Doing.ofLong?]
  cases Bytes.cut? equals body with
  | none =>
    cases OptionKey.ofLong? body with
    | none => simp
    | some key =>
      cases key with
      | switch k => simp [does_switch]
      | setting key => simp [does_await]
  | some cut =>
    obtain ⟨name, value⟩ := cut
    simp only
    cases OptionKey.ofLong? name with
    | none => simp
    | some key =>
      cases key with
      | switch k => simp
      | setting key => simp [does_setting]

/-- An argument that looks like an option is read by doing what it says. -/
theorem readArgument_option {r r' : Reading} (options : r.trailing = false) {argument : Bytes}
    (option : looksLikeOption argument = true) (going : argument ≠ endOfOptions) :
    r.readArgument argument = .ok r' ↔ ∃ d, Doing.of? argument = some d ∧ Does d r r' := by
  obtain ⟨b, body, rfl⟩ := looksLikeOption_iff.mp option
  rw [readArgument.eq_def, options, Doing.of?]
  simp only [Bool.false_eq_true, if_false, if_true]
  by_cases long : b = hyphen
  · subst long
    have named : body ≠ [] := fun empty => going (by rw [empty]; rfl)
    simp only [if_true, if_neg named]
    exact readLong_ok
  · simp only [if_neg long]
    exact readShort_ok

theorem readArgument_plain {r : Reading} (options : r.trailing = false) {argument : Bytes}
    (plain : looksLikeOption argument = false) :
    r.readArgument argument = r.readPlain argument := by
  rw [readArgument.eq_def, options]
  simp only [Bool.false_eq_true, if_false]
  split
  · next a b body =>
    rw [if_neg fun same => by simp [looksLikeOption, same] at plain]
  · rfl

theorem readArgument_endOfOptions {r : Reading} (options : r.trailing = false) :
    r.readArgument endOfOptions = .ok { r with trailing := true } := by
  rw [readArgument.eq_def, options]
  rfl

/-! ## 3. Reading a whole line -/

/-- Reads the arguments that are left, to the end. -/
def complete (r : Reading) (arguments : List Bytes) : Except UsageFault Options := do
  (← arguments.foldlM readArgument r).finish

theorem complete_cons {r : Reading} {argument : Bytes} {rest : List Bytes} {options : Options} :
    r.complete (argument :: rest) = .ok options ↔
      ∃ r', r.readArgument argument = .ok r' ∧ r'.complete rest = .ok options := by
  simp only [complete, bind_eq_ok, foldlM_cons_ok]
  constructor
  · rintro ⟨last, ⟨middle, first, others⟩, finished⟩
    exact ⟨middle, first, last, others, finished⟩
  · rintro ⟨middle, first, last, others, finished⟩
    exact ⟨last, ⟨middle, first, others⟩, finished⟩

theorem length_of_mapM {α β : Type} {f : α → Option β} {l : List α} {l' : List β}
    (read : l.mapM f = some l') : l'.length = l.length := by
  induction l generalizing l' with
  | nil =>
    cases read
    rfl
  | cons a l ih =>
    simp only [List.mapM_cons, Option.bind_eq_bind, Option.bind_eq_some_iff] at read
    obtain ⟨b, _, rest, others, same⟩ := read
    cases same
    rw [List.length_cons, List.length_cons, ih others]

theorem finish_ok {r : Reading} {options : Options} (finished : r.finish = .ok options) :
    ∃ s command, r.settle = .ok s ∧ r.words.mapM Utf8.decode? = some command ∧
      options = { s.options with command := command } := by
  obtain ⟨s, settled, finished⟩ := bind_eq_ok.mp finished
  have words : s.words = r.words := by rw [settle_eq_ok settled]
  split at finished
  · next command read =>
    rw [words] at read
    exact ⟨s, command, settled, read, (Except.ok.inj finished).symm⟩
  · cases finished

/-- Once the options have ended, every argument is a word of the command. -/
theorem length_command {r : Reading} (trailing : r.trailing = true) {arguments : List Bytes}
    {options : Options} (read : r.complete arguments = .ok options) :
    options.command.length = r.words.length + arguments.length := by
  induction arguments generalizing r with
  | nil =>
    obtain ⟨_, _, _, words, rfl⟩ := finish_ok (show r.finish = .ok options from read)
    exact length_of_mapM words
  | cons argument rest ih =>
    obtain ⟨r', first, others⟩ := complete_cons.mp read
    rw [readArgument.eq_def, if_pos trailing] at first
    obtain ⟨s, settled, same⟩ := bind_eq_ok.mp first
    cases same
    rw [ih rfl others, settle_eq_ok settled]
    simp only [List.length_append, List.length_cons, List.length_nil]
    omega

/-- A word that no setting waits for begins a command. -/
theorem command_ne_nil {r r' : Reading} {argument : Bytes} {rest : List Bytes} {options : Options}
    (first : r.readWord argument = .ok r') (others : r'.complete rest = .ok options) :
    options.command ≠ [] := by
  obtain ⟨s, _, same⟩ := bind_eq_ok.mp first
  cases same
  have long := length_command rfl others
  rw [List.length_append, List.length_singleton] at long
  intro noCommand
  rw [noCommand, List.length_nil] at long
  omega

/-- No word of a command has been read and the options have not ended. -/
structure AmongOptions (r : Reading) : Prop where
  notTrailing : r.trailing = false
  noWords : r.words = []
  noCommand : r.options.command = []

namespace AmongOptions

theorem settle {r s : Reading} (among : AmongOptions r) (settled : r.settle = .ok s) :
    AmongOptions s := by
  have same := settle_eq_ok settled
  refine ⟨by rw [same]; exact among.notTrailing, by rw [same]; exact among.noWords, ?_⟩
  unfold Reading.settle at settled
  split at settled
  · cases settled
    exact among.noCommand
  · cases settled
  · obtain ⟨options, done, rfl⟩ := map_eq_ok.mp settled
    exact (Options.command_assign done).trans among.noCommand

theorem does {r r' : Reading} {d : Doing} (among : AmongOptions r) (done : Does d r r') :
    AmongOptions r' := by
  obtain ⟨s, settled, options, acted, rfl⟩ := done
  have settledAmong := among.settle settled
  exact ⟨settledAmong.notTrailing, settledAmong.noWords,
    (Options.command_acts acted).trans settledAmong.noCommand⟩

theorem pend {r : Reading} (among : AmongOptions r) (pending : Option (Setting × Option Bytes)) :
    AmongOptions { r with pending := pending } :=
  ⟨among.notTrailing, among.noWords, among.noCommand⟩

/-- At the end there is nothing left but to settle. -/
theorem complete_nil {r : Reading} (among : AmongOptions r) {options : Options} :
    r.complete [] = .ok options ↔ ∃ s, r.settle = .ok s ∧ options = s.options := by
  have last : r.complete [] = r.finish := rfl
  rw [last, finish, bind_eq_ok]
  refine exists_congr fun s => and_congr_right fun settled => ?_
  obtain ⟨_, noWords, noCommand⟩ := among.settle settled
  have same : { s.options with command := [] } = s.options := by rw [← noCommand]
  rw [noWords]
  show Except.ok { s.options with command := [] } = Except.ok options ↔ _
  rw [same]
  exact ⟨fun h => (Except.ok.inj h).symm, fun h => congrArg Except.ok h.symm⟩

end AmongOptions

/-- A line of options that is read to its end, whatever setting is held back, spells acts, and
they have been done. -/
theorem spells_of_complete {arguments : List Bytes} {r : Reading} {options : Options}
    (among : AmongOptions r) (going : endOfOptions ∉ arguments)
    (read : r.complete arguments = .ok options) (noCommand : options.command = []) :
    ((∀ key, r.pending ≠ some (key, none)) → ∃ s acts, r.settle = .ok s ∧ Spells arguments acts ∧
      acts.foldlM Options.act s.options = .ok options) ∧
    ∀ key, r.pending = some (key, none) → ∃ value rest acts, arguments = value :: rest ∧
      looksLikeOption value = false ∧ Spells rest acts ∧
      (.setting key value :: acts).foldlM Options.act r.options = .ok options := by
  -- By induction on the arguments. An option whose value is to come makes the second half the
  -- hypothesis for the rest, and the value itself makes it the first half again.
  induction arguments generalizing r with
  | nil =>
    obtain ⟨s, settled, rfl⟩ := among.complete_nil.mp read
    refine ⟨fun _ => ⟨s, [], settled, .nil, rfl⟩, fun key awaiting => ?_⟩
    rw [Reading.settle, awaiting] at settled
    cases settled
  | cons argument rest ih =>
    obtain ⟨r', first, others⟩ := complete_cons.mp read
    have goingFirst : argument ≠ endOfOptions := fun same => going (same ▸ List.mem_cons_self)
    have goingOthers : endOfOptions ∉ rest := fun later => going (List.mem_cons_of_mem _ later)
    cases option : looksLikeOption argument with
    | true =>
      obtain ⟨d, doing, done⟩ :=
        (readArgument_option among.notTrailing option goingFirst).mp first
      have next := ih (among.does done) goingOthers others
      obtain ⟨s, settled, middle, acted, rfl⟩ := done
      refine ⟨fun _ => ?_, fun key awaiting => ?_⟩
      · obtain ⟨acts, awaited⟩ := d
        cases awaited with
        | none =>
          obtain ⟨s', later, settled', spells, acted'⟩ := next.1 nofun
          rw [settle_of_none rfl] at settled'
          cases settled'
          exact ⟨s, acts ++ later, settled, .alone doing spells,
            foldlM_append_ok.mpr ⟨middle, acted, acted'⟩⟩
        | some key =>
          obtain ⟨value, rest', later, rfl, plain, spells, acted'⟩ := next.2 key rfl
          exact ⟨s, acts ++ .setting key value :: later, settled, .withValue doing plain spells,
            foldlM_append_ok.mpr ⟨middle, acted, acted'⟩⟩
      · rw [Reading.settle, awaiting] at settled
        cases settled
    | false =>
      rw [readArgument_plain among.notTrailing option, readPlain] at first
      split at first
      · next key awaiting =>
        cases first
        refine ⟨fun idle => absurd awaiting (idle key), fun key' awaiting' => ?_⟩
        cases Option.some.inj (awaiting.symm.trans awaiting')
        obtain ⟨s, acts, settled, spells, acted⟩ :=
          (ih (among.pend _) goingOthers others).1 nofun
        obtain ⟨middle, assigned, rfl⟩ := map_eq_ok.mp settled
        exact ⟨argument, rest, acts, rfl, option, spells,
          foldlM_cons_ok.mpr ⟨middle, assigned, acted⟩⟩
      · -- Nothing waits for the argument, so it is the first word of a command.
        exact absurd noCommand (command_ne_nil first others)

/-- Acts that can be done are read from any line that spells them. -/
theorem complete_of_spells {arguments : List Bytes} {acts : List Act}
    (spells : Spells arguments acts) {r s : Reading} {options : Options} (among : AmongOptions r)
    (settled : r.settle = .ok s) (acted : acts.foldlM Options.act s.options = .ok options) :
    r.complete arguments = .ok options := by
  induction spells generalizing r s with
  | nil => exact among.complete_nil.mpr ⟨s, settled, (Except.ok.inj acted).symm⟩
  | @alone _ acts _ _ doing _ ih =>
    obtain ⟨middle, front, back⟩ := foldlM_append_ok.mp acted
    have done : Does ⟨acts, none⟩ r (s.after middle none) := ⟨s, settled, middle, front, rfl⟩
    refine complete_cons.mpr ⟨_, ?_, ih (among.does done) (settle_of_none rfl) back⟩
    exact (readArgument_option among.notTrailing (looksLikeOption_of_doing doing)
      (going_of_doing doing)).mpr ⟨_, doing, done⟩
  | @withValue _ value acts key _ _ doing plain _ ih =>
    obtain ⟨middle, front, back⟩ := foldlM_append_ok.mp acted
    obtain ⟨next, assigned, others⟩ := foldlM_cons_ok.mp back
    have done : Does ⟨acts, some key⟩ r (s.after middle (some key)) :=
      ⟨s, settled, middle, front, rfl⟩
    have awaiting := among.does done
    have first : r.readArgument _ = .ok (s.after middle (some key)) :=
      (readArgument_option among.notTrailing (looksLikeOption_of_doing doing)
        (going_of_doing doing)).mpr ⟨_, doing, done⟩
    have second : (s.after middle (some key)).readArgument value =
        .ok { s.after middle (some key) with pending := some (key, some value) } := by
      rw [readArgument_plain awaiting.notTrailing plain]
      rfl
    refine complete_cons.mpr ⟨_, first, complete_cons.mpr ⟨_, second, ?_⟩⟩
    exact ih (awaiting.pend _) (map_eq_ok.mpr ⟨next, assigned, rfl⟩) others

end Reading

end Succession
