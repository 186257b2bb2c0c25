import Mathlib.Logic.Relation
import Succession.Proofs.Settings.Meaning

/-!
# A settings file and the order of its lines

1. Settings are read off the entries that count, in whichever order these stand (`ofEntries`), and
   they are what the lines mean (`Means`, `ofEntries_means`), unless the lines are refused
   (`Refused`, `parse_fails_iff`).
2. Comments, blank lines and lines of unknown keys may come and go, and lines may change places with
   lines of other keys (`Edit`): what known keys hold and which malformed line is the first stay as
   they are (`Edit.agree`, `Edit.firstMalformed`).
3. So the settings follow the lines and nothing else (`settings_follow_lines`).
-/

namespace Succession.Settings

open Text (trimChars)

variable {home : Option Bytes} {text : String} {lines lines' : List (List Char)}
  {line line' : List Char} {key key' value value' start : String} {entries : List Entry}

/-! ## 1. The settings of the lines -/

/-- The settings that entries spell when they are gone through as they stand. -/
def ofEntries (home : Option Bytes) (entries : List Entry) : Except SettingsFault Settings := do
  let socketPath :=
    match entries.lookup "ipc_socket" with
    | some value => if value = "" then none else some (expandHome home value)
    | none => none
  let autostart ← commands "exec." entries
  let autostartAlways ← commands "exec_always." entries
  return ⟨socketPath, autostart, autostartAlways⟩

/-- A text is refused for its lines, or it spells the settings of the entries that count. -/
theorem parse_eq (home : Option Bytes) (text : String) :
    (parse home text).map Prod.fst =
      (readEntries 1 (splitLines text.toList)).bind fun entries =>
        ofEntries home (latest entries) := by
  unfold parse ofEntries
  cases readEntries 1 (splitLines text.toList) with
  | error fault => rfl
  | ok found =>
    simp only [Except.bind, bind]
    cases commands "exec." (latest found) with
    | error fault => rfl
    | ok autostart =>
      cases commands "exec_always." (latest found) <;> rfl

/-- The settings are what the lines mean: the socket is what its key holds, unless that is nothing,
and the commands are those of the numbered keys. -/
structure Means (home : Option Bytes) (lines : List (List Char)) (settings : Settings) : Prop where
  socketPath : ∀ path, settings.socketPath = some path ↔
    ∃ value, Holds lines "ipc_socket" value ∧ value ≠ "" ∧ path = expandHome home value
  autostart : Distinct lines "exec." → Lists lines "exec." settings.autostart
  autostartAlways :
    Distinct lines "exec_always." → Lists lines "exec_always." settings.autostartAlways

/-- Some line gives a value to a key that has the start and no number. -/
def Misnumbers (lines : List (List Char)) (start : String) : Prop :=
  ∃ line ∈ lines, ∃ key value, Gives line key value ∧ Misnumbered start key

/-- Some line is malformed, or some key of a command has no number. -/
def Refused (lines : List (List Char)) : Prop :=
  (∃ line ∈ lines, Malformed line) ∨ Misnumbers lines "exec." ∨ Misnumbers lines "exec_always."

theorem misnumbers_iff :
    Misnumbers lines start ↔ ∃ key value, Holds lines key value ∧ Misnumbered start key := by
  constructor
  · rintro ⟨line, member, key, value, gives, bad⟩
    obtain ⟨last, holds⟩ := exists_holds member gives
    exact ⟨key, last, holds, bad⟩
  · rintro ⟨key, value, holds, bad⟩
    obtain ⟨line, member, gives⟩ := holds.gives
    exact ⟨line, member, key, value, gives, bad⟩

/-- Commands are listed exactly if their keys are all numbered. -/
theorem Represents.listed_iff (represents : Represents entries lines) :
    (∃ listed, commands start entries = .ok listed) ↔ ¬Misnumbers lines start := by
  rw [represents.commands_eq_ok, misnumbers_iff]
  simp only [not_exists, not_and]

theorem ofEntries_eq_ok {settings : Settings} :
    ofEntries home entries = .ok settings ↔
      settings.socketPath = (match entries.lookup "ipc_socket" with
        | some value => if value = "" then none else some (expandHome home value)
        | none => none) ∧
      commands "exec." entries = .ok settings.autostart ∧
      commands "exec_always." entries = .ok settings.autostartAlways := by
  rw [ofEntries]
  simp only [bind_eq_ok]
  constructor
  · rintro ⟨autostart, first, autostartAlways, second, done⟩
    cases done
    exact ⟨rfl, first, second⟩
  · rintro ⟨socket, first, second⟩
    exact ⟨_, first, _, second, by rw [← socket]; rfl⟩

/-- Entries spell settings exactly if the keys of their commands are all numbered. -/
theorem Represents.ofEntries_ok_iff (represents : Represents entries lines)
    (home : Option Bytes) :
    (∃ settings, ofEntries home entries = .ok settings) ↔
      ¬Misnumbers lines "exec." ∧ ¬Misnumbers lines "exec_always." := by
  rw [← represents.listed_iff, ← represents.listed_iff]
  constructor
  · rintro ⟨settings, done⟩
    obtain ⟨-, first, second⟩ := ofEntries_eq_ok.mp done
    exact ⟨⟨_, first⟩, ⟨_, second⟩⟩
  · rintro ⟨⟨autostart, first⟩, ⟨autostartAlways, second⟩⟩
    exact ⟨⟨_, autostart, autostartAlways⟩, ofEntries_eq_ok.mpr ⟨rfl, first, second⟩⟩

/-- The settings that entries spell are what the lines mean. -/
theorem Represents.ofEntries_means (represents : Represents entries lines) {settings : Settings}
    (done : ofEntries home entries = .ok settings) : Means home lines settings := by
  obtain ⟨socket, first, second⟩ := ofEntries_eq_ok.mp done
  refine ⟨fun path => ?_, fun distinct => represents.lists distinct first,
    fun distinct => represents.lists distinct second⟩
  rw [socket]
  split
  · next value found =>
    have holds : Holds lines "ipc_socket" value :=
      (represents.2 _ _).mp ((lookup_eq_some_iff_mem represents.1).mp found)
    split
    · next empty =>
      refine iff_of_false nofun ?_
      rintro ⟨other, holdsOther, some, -⟩
      exact some (holds.unique holdsOther ▸ empty)
    · next some =>
      rw [Option.some.injEq, eq_comm]
      constructor
      · exact fun spelled => ⟨value, holds, some, spelled⟩
      · rintro ⟨other, holdsOther, -, spelled⟩
        rw [spelled, holds.unique holdsOther]
  · next absent =>
    refine iff_of_false nofun ?_
    rintro ⟨value, holds, -⟩
    have present := (lookup_eq_some_iff_mem represents.1).mpr ((represents.2 _ _).mpr holds)
    cases absent.symm.trans present

/-- Lines without two keys of one number mean one thing at most. -/
theorem Means.unique {settings settings' : Settings} (means : Means home lines settings)
    (means' : Means home lines settings') (once : Distinct lines "exec.")
    (onceAlways : Distinct lines "exec_always.") : settings = settings' := by
  obtain ⟨socketPath, autostart, autostartAlways⟩ := settings
  obtain ⟨socketPath', autostart', autostartAlways'⟩ := settings'
  obtain rfl : socketPath = socketPath' := Option.ext fun path =>
    (means.socketPath path).trans (means'.socketPath path).symm
  obtain rfl := (means.autostart once).unique (means'.autostart once)
  obtain rfl := (means.autostartAlways onceAlways).unique (means'.autostartAlways onceAlways)
  rfl

/-- A text without a malformed line is read from the entries that count. -/
theorem parse_of_sound (home : Option Bytes)
    (sound : ∀ line ∈ splitLines text.toList, ¬Malformed line) :
    (parse home text).map Prod.fst =
      ofEntries home (latest ((splitLines text.toList).filterMap entryOf?)) := by
  rw [parse_eq, readEntries_sound sound]
  rfl

/-- The first malformed line is the fault of a text. -/
theorem parse_of_malformed {before after : List (List Char)}
    (split : splitLines text.toList = before ++ line :: after)
    (sound : ∀ other ∈ before, ¬Malformed other) (malformed : Malformed line) :
    parse home text =
      .error (.noEquals (before.length + 1) (String.ofList (trimChars line))) := by
  rw [parse, split, readEntries_malformed sound malformed, Nat.add_comm]
  rfl

/-- A text is refused exactly if its lines are. -/
theorem parse_fails_iff (home : Option Bytes) (text : String) :
    (∃ fault, parse home text = .error fault) ↔ Refused (splitLines text.toList) := by
  rcases sound_or_malformed (splitLines text.toList) with
    sound | ⟨before, line, after, split, malformed, sound⟩
  · have none : ¬∃ line ∈ splitLines text.toList, Malformed line := fun ⟨line, member, bad⟩ =>
      sound line member bad
    rw [Refused, or_iff_right none, ← not_iff_not, not_or,
      ← (represents_latest _).ofEntries_ok_iff home, ← parse_of_sound home sound]
    cases parse home text with
    | error fault => exact iff_of_false (fun h => h ⟨fault, rfl⟩) nofun
    | ok result => exact iff_of_true nofun ⟨result.1, rfl⟩
  · refine iff_of_true ⟨_, parse_of_malformed split sound malformed⟩ (.inl ⟨line, ?_, malformed⟩)
    exact split ▸ List.mem_append_right _ List.mem_cons_self

/-- The settings of a text are what its lines mean. -/
theorem means_of_parse {settings : Settings} {notices : List Notice}
    (done : parse home text = .ok (settings, notices)) :
    Means home (splitLines text.toList) settings := by
  have sound : ∀ line ∈ splitLines text.toList, ¬Malformed line := fun line member bad => by
    obtain ⟨fault, refused⟩ := (parse_fails_iff home text).mpr (.inl ⟨line, member, bad⟩)
    cases done.symm.trans refused
  have spelled := parse_of_sound home sound
  rw [done] at spelled
  exact (represents_latest _).ofEntries_means spelled.symm

/-! ## 2. Lines that may come, go and change places -/

/-- One change that should not matter: a line that is silent comes in, or one of an unknown key, or
two neighbours with different keys change places. -/
inductive Edit : List (List Char) → List (List Char) → Prop
  | silent (before after) {line} : Silent line → Edit (before ++ after) (before ++ line :: after)
  | unknown (before after) {line key value} : Gives line key value → isKnown key = false →
      Edit (before ++ after) (before ++ line :: after)
  | swap (before after) {line line' key key' value value'} : Gives line key value →
      Gives line' key' value' → key ≠ key' →
      Edit (before ++ line :: line' :: after) (before ++ line' :: line :: after)

/-- The lines are the same up to such changes, made and unmade. -/
def Reworded : List (List Char) → List (List Char) → Prop := Relation.EqvGen Edit

/-- The first malformed line has this text, trimmed. -/
def FirstMalformed (lines : List (List Char)) (text : List Char) : Prop :=
  ∃ before line after, lines = before ++ line :: after ∧ (∀ other ∈ before, ¬Malformed other) ∧
    Malformed line ∧ text = trimChars line

theorem isKnown_of_begins (command : start = "exec." ∨ start = "exec_always.")
    (begins : start.toList <+: key.toList) : isKnown key = true := by
  have front : start.toList.isPrefixOf key.toList = true := List.isPrefixOf_iff_prefix.mpr begins
  rw [isKnown]
  rcases command with rfl | rfl
  · rw [front, Bool.or_true, Bool.true_or]
  · rw [front, Bool.or_true]

/-- Known keys hold the same, and the first malformed line is the same, if there is one. -/
def Agree (lines lines' : List (List Char)) : Prop :=
  (∀ key value, isKnown key = true → (Holds lines key value ↔ Holds lines' key value)) ∧
    ∀ text, FirstMalformed lines text ↔ FirstMalformed lines' text

theorem holds_cons_iff :
    Holds (line :: lines) key value ↔
      Holds lines key value ∨ Gives line key value ∧ ∀ other, ¬Holds lines key other := by
  rw [holds_cons]
  refine or_congr_right (and_congr_right fun _ => ⟨?_, ?_⟩)
  · rintro none other holds
    obtain ⟨later, member, gives⟩ := holds.gives
    exact none later member other gives
  · rintro none later member other gives
    obtain ⟨last, holds⟩ := exists_holds member gives
    exact none last holds

theorem firstMalformed_cons {text : List Char} :
    FirstMalformed (line :: lines) text ↔
      (Malformed line ∧ text = trimChars line) ∨ ¬Malformed line ∧ FirstMalformed lines text := by
  constructor
  · rintro ⟨before, first, after, same, sound, malformed, named⟩
    cases before with
    | nil =>
      cases same
      exact .inl ⟨malformed, named⟩
    | cons other before =>
      cases same
      obtain ⟨here, later⟩ := List.forall_mem_cons.mp sound
      exact .inr ⟨here, before, first, after, rfl, later, malformed, named⟩
  · rintro (⟨malformed, named⟩ | ⟨sound, before, first, after, rfl, later, malformed, named⟩)
    · exact ⟨[], line, lines, rfl, nofun, malformed, named⟩
    · exact ⟨line :: before, first, after, rfl, List.forall_mem_cons.mpr ⟨sound, later⟩, malformed,
        named⟩

theorem Agree.symm (agree : Agree lines lines') : Agree lines' lines :=
  ⟨fun key value known => (agree.1 key value known).symm, fun text => (agree.2 text).symm⟩

theorem Agree.cons (agree : Agree lines lines') : Agree (line :: lines) (line :: lines') := by
  refine ⟨fun key value known => ?_, fun text => ?_⟩
  · simp only [holds_cons_iff, agree.1 key _ known]
  · simp only [firstMalformed_cons, agree.2]

theorem Agree.append (before : List (List Char)) (agree : Agree lines lines') :
    Agree (before ++ lines) (before ++ lines') := by
  induction before with
  | nil => exact agree
  | cons line rest ih => exact ih.cons

theorem Gives.not_malformed (gives : Gives line key value) : ¬Malformed line := fun malformed => by
  cases (read_of_gives gives).symm.trans (read_of_malformed malformed)

/-- A line that is not malformed and gives nothing to a known key may as well not be there. -/
theorem agree_cons_of_mute (sound : ¬Malformed line)
    (mute : ∀ key value, Gives line key value → isKnown key = false) :
    Agree lines (line :: lines) := by
  refine ⟨fun key value known => ?_, fun text => ?_⟩
  · rw [holds_cons_iff, or_iff_left]
    rintro ⟨gives, -⟩
    cases known.symm.trans (mute key value gives)
  · rw [firstMalformed_cons, or_iff_right fun h => sound h.1, and_iff_right sound]

/-- Neighbours with different keys may change places. -/
theorem agree_swap (gives : Gives line key value) (gives' : Gives line' key' value')
    (differ : key ≠ key') : Agree (line :: line' :: lines) (line' :: line :: lines) := by
  refine ⟨fun other content _ => ?_, fun text => ?_⟩
  · by_cases mine : other = key
    · have none : ∀ w, ¬Gives line' other w := fun w there =>
        differ (mine.symm.trans (gives'.unique there).1)
      simp only [holds_cons_iff, none, false_and, or_false]
    · have none : ∀ w, ¬Gives line other w := fun w here => mine (gives.unique here).1
      simp only [holds_cons_iff, none, false_and, or_false]
  · simp only [firstMalformed_cons, gives.not_malformed, gives'.not_malformed, false_and,
      not_false_eq_true, true_and, false_or]

/-- No such change matters. -/
theorem Edit.agree (edit : Edit lines lines') : Agree lines lines' := by
  cases edit with
  | silent before after silent =>
    refine (agree_cons_of_mute (fun malformed => malformed.1 silent) ?_).append before
    exact fun key value gives => absurd silent gives.1
  | unknown before after gives unknown =>
    refine (agree_cons_of_mute gives.not_malformed fun other content gives' => ?_).append before
    rw [(gives.unique gives').1, unknown]
  | swap before after gives gives' differ => exact (agree_swap gives gives' differ).append before

/-- Nor does any sequence of them. -/
theorem Reworded.agree (reworded : Reworded lines lines') : Agree lines lines' := by
  induction reworded with
  | rel _ _ edit => exact edit.agree
  | refl => exact ⟨fun _ _ _ => .rfl, fun _ => .rfl⟩
  | symm _ _ _ ih => exact ih.symm
  | trans _ _ _ _ _ ih ih' =>
    exact ⟨fun key value known => (ih.1 key value known).trans (ih'.1 key value known),
      fun text => (ih.2 text).trans (ih'.2 text)⟩

/-! ## 3. The settings follow the lines -/

theorem Numbers.isKnown {n : Int} (command : start = "exec." ∨ start = "exec_always.")
    (numbers : Numbers start key n) : isKnown key = true := by
  obtain ⟨suffix, whole, -⟩ := numbers
  exact isKnown_of_begins command ⟨suffix, whole.symm⟩

theorem Agree.distinct (agree : Agree lines lines')
    (command : start = "exec." ∨ start = "exec_always.") (distinct : Distinct lines start) :
    Distinct lines' start := fun key key' value value' _ holds holds' numbers numbers' =>
  distinct ((agree.1 key value (numbers.isKnown command)).mpr holds)
    ((agree.1 key' value' (numbers'.isKnown command)).mpr holds') numbers numbers'

theorem Agree.lists {listed : List String} (agree : Agree lines lines')
    (command : start = "exec." ∨ start = "exec_always.") (lists : Lists lines start listed) :
    Lists lines' start listed := by
  obtain ⟨numbered, same, rising, members⟩ := lists
  refine ⟨numbered, same, rising, fun n value => (members n value).trans ?_⟩
  exact exists_congr fun key => and_congr_right fun numbers =>
    agree.1 key value (numbers.isKnown command)

/-- What lines mean is what lines that agree with them mean. -/
theorem Agree.means {settings : Settings} (agree : Agree lines lines')
    (means : Means home lines settings) : Means home lines' settings where
  socketPath path := (means.socketPath path).trans (exists_congr fun value =>
    and_congr_left' (agree.1 "ipc_socket" value (by decide)))
  autostart distinct :=
    agree.lists (.inl rfl) (means.autostart (agree.symm.distinct (.inl rfl) distinct))
  autostartAlways distinct :=
    agree.lists (.inr rfl) (means.autostartAlways (agree.symm.distinct (.inr rfl) distinct))

theorem exists_malformed_iff :
    (∃ line ∈ lines, Malformed line) ↔ ∃ text, FirstMalformed lines text := by
  constructor
  · rintro ⟨line, member, malformed⟩
    rcases sound_or_malformed lines with sound | ⟨before, first, after, split, bad, sound⟩
    · exact absurd malformed (sound line member)
    · exact ⟨_, before, first, after, split, sound, bad, rfl⟩
  · rintro ⟨text, before, line, after, rfl, -, malformed, -⟩
    exact ⟨line, List.mem_append_right _ List.mem_cons_self, malformed⟩

theorem Agree.misnumbers (agree : Agree lines lines')
    (command : start = "exec." ∨ start = "exec_always.") :
    Misnumbers lines start ↔ Misnumbers lines' start := by
  rw [misnumbers_iff, misnumbers_iff]
  exact exists_congr fun key => exists_congr fun value => and_congr_left fun bad =>
    agree.1 key value (isKnown_of_begins command bad.1)

/-- Lines are refused if lines that agree with them are. -/
theorem Agree.refused (agree : Agree lines lines') : Refused lines ↔ Refused lines' := by
  rw [Refused, Refused, exists_malformed_iff, exists_malformed_iff, agree.misnumbers (.inl rfl),
    agree.misnumbers (.inr rfl), exists_congr agree.2]

/-- The fault of entries is the key of a command that has no number. -/
theorem ofEntries_eq_error {fault : SettingsFault}
    (failed : ofEntries home entries = .error fault) : ∃ key cause, fault = .badIndex key cause := by
  have cause {start} (refused : commands start entries = .error fault) :
      ∃ key cause, fault = .badIndex key cause := by
    cases found : indexed start entries with
    | error other =>
      rw [commands, found] at refused
      cases refused
      obtain ⟨key, cause, same, -⟩ := indexed_eq_error found
      exact ⟨key, cause, same⟩
    | ok pairs =>
      rw [commands, found] at refused
      cases refused
  cases first : commands "exec." entries with
  | error other =>
    rw [ofEntries, first] at failed
    cases failed
    exact cause first
  | ok autostart =>
    cases second : commands "exec_always." entries with
    | error other =>
      rw [ofEntries, first, second] at failed
      cases failed
      exact cause second
    | ok autostartAlways =>
      rw [ofEntries, first, second] at failed
      cases failed

/-- A text is refused for a line without `=` exactly if it has a malformed line, and then for the
first. -/
theorem parse_noEquals_iff {named : String} :
    (∃ number, parse home text = .error (.noEquals number named)) ↔
      ∃ line, FirstMalformed (splitLines text.toList) line ∧ named = String.ofList line := by
  constructor
  · rintro ⟨number, failed⟩
    rcases sound_or_malformed (splitLines text.toList) with
      sound | ⟨before, line, after, split, malformed, sound⟩
    · have refused := parse_of_sound home sound
      rw [failed] at refused
      obtain ⟨key, cause, same⟩ := ofEntries_eq_error refused.symm
      cases same
    · cases failed.symm.trans (parse_of_malformed split sound malformed)
      exact ⟨_, ⟨before, line, after, split, sound, malformed, rfl⟩, rfl⟩
  · rintro ⟨trimmed, ⟨before, line, after, split, sound, malformed, rfl⟩, rfl⟩
    exact ⟨_, parse_of_malformed split sound malformed⟩

/-- The settings of a text, or nothing if it is refused. -/
def settings? (home : Option Bytes) (text : String) : Option Settings :=
  ((parse home text).map Prod.fst).toOption

theorem settings?_eq_some {settings : Settings} :
    settings? home text = some settings ↔
      ∃ notices, parse home text = .ok (settings, notices) := by
  rw [settings?, toOption_eq_some, map_eq_ok]
  constructor
  · rintro ⟨⟨settings, notices⟩, done, rfl⟩
    exact ⟨notices, done⟩
  · rintro ⟨notices, done⟩
    exact ⟨_, done, rfl⟩

theorem settings?_eq_none :
    settings? home text = none ↔ Refused (splitLines text.toList) := by
  rw [← parse_fails_iff home text, settings?]
  cases parse home text with
  | error fault => exact iff_of_true rfl ⟨fault, rfl⟩
  | ok result => exact iff_of_false nofun nofun

/-- Texts whose lines agree spell the same settings. -/
theorem settings?_congr {other : String}
    (agree : Agree (splitLines text.toList) (splitLines other.toList))
    (once : Distinct (splitLines text.toList) "exec.")
    (onceAlways : Distinct (splitLines text.toList) "exec_always.") :
    settings? home other = settings? home text := by
  cases spelled : settings? home text with
  | none => exact settings?_eq_none.mpr (agree.refused.mp (settings?_eq_none.mp spelled))
  | some settings =>
    cases spelled' : settings? home other with
    | none =>
      have refused : settings? home text = none :=
        settings?_eq_none.mpr (agree.refused.mpr (settings?_eq_none.mp spelled'))
      cases spelled.symm.trans refused
    | some settings' =>
      obtain ⟨notices, done⟩ := settings?_eq_some.mp spelled
      obtain ⟨notices', done'⟩ := settings?_eq_some.mp spelled'
      rw [(agree.symm.means (means_of_parse done')).unique (means_of_parse done) once onceAlways]

/-- In whichever order the entries that count are gone through, they spell the settings of the
text. -/
theorem Represents.ofEntries_eq {order : List Entry}
    (represents : Represents order (splitLines text.toList))
    (sound : ∀ line ∈ splitLines text.toList, ¬Malformed line)
    (once : Distinct (splitLines text.toList) "exec.")
    (onceAlways : Distinct (splitLines text.toList) "exec_always.") :
    (ofEntries home order).toOption = settings? home text := by
  have latest := represents_latest (splitLines text.toList)
  have both := (represents.ofEntries_ok_iff home).trans (latest.ofEntries_ok_iff home).symm
  rw [settings?, parse_of_sound home sound]
  cases here : ofEntries home order with
  | error fault =>
    cases there : ofEntries home _ with
    | error other => rfl
    | ok settings =>
      obtain ⟨settings', spelled⟩ := both.mpr ⟨settings, there⟩
      cases here.symm.trans spelled
  | ok settings =>
    obtain ⟨settings', there⟩ := both.mp ⟨settings, here⟩
    rw [there, (represents.ofEntries_means here).unique (latest.ofEntries_means there) once
      onceAlways]

/-- The lines of a text are what stands between its line feeds. -/
def linesOf (text : String) : List (List Char) := text.toList.splitOn '\n'

/-- Settings follow the lines. A text is refused exactly if some line is malformed or some key of a
command has no number, and the first malformed line is named; otherwise its settings are what its
lines mean. Where no two keys of a start have one number, the settings are the same in whichever
order the entries are gone through, and the same for every rewording of the lines. -/
theorem settings_follow_lines (home : Option Bytes) (text : String) :
    ((∃ fault, parse home text = .error fault) ↔ Refused (linesOf text)) ∧
    (∀ before line after, linesOf text = before ++ line :: after →
      (∀ other ∈ before, ¬Malformed other) → Malformed line →
      parse home text = .error (.noEquals (before.length + 1) (String.ofList (trimChars line)))) ∧
    (∀ settings notices, parse home text = .ok (settings, notices) →
      Means home (linesOf text) settings) ∧
    (Distinct (linesOf text) "exec." → Distinct (linesOf text) "exec_always." →
      (∀ order, Represents order (linesOf text) → (∀ line ∈ linesOf text, ¬Malformed line) →
        (ofEntries home order).toOption = settings? home text) ∧
      ∀ other, Reworded (linesOf text) (linesOf other) →
        settings? home other = settings? home text) ∧
    ∀ other, Reworded (linesOf text) (linesOf other) → ∀ named,
      (∃ number, parse home other = .error (.noEquals number named)) ↔
        ∃ number, parse home text = .error (.noEquals number named) := by
  simp only [linesOf, ← splitLines_eq]
  refine ⟨parse_fails_iff home text, fun before line after split sound malformed => ?_,
    fun settings notices done => means_of_parse done, fun once onceAlways =>
    ⟨fun order represents sound => ?_, fun other reworded => ?_⟩, fun other reworded named => ?_⟩
  · exact parse_of_malformed split sound malformed
  · exact represents.ofEntries_eq sound once onceAlways
  · exact settings?_congr reworded.agree once onceAlways
  · rw [parse_noEquals_iff, parse_noEquals_iff]
    exact exists_congr fun line => and_congr_left' (reworded.agree.2 line).symm

/-- Two commands, the later number first. -/
def backward : String := "exec.10 = a\nexec.2 = b"

/-- The same commands the other way round, with a comment and a key that means nothing. -/
def forward : String := "exec.2 = b\n# note\nexec.10 = a\nbell = on"

theorem backward_reworded : Reworded (linesOf backward) (linesOf forward) := by
  have gives {line key value} (read : Line.read line = .entry key value) : Gives line key value :=
    read_eq_entry.mp read
  let first := "exec.10 = a".toList
  let second := "exec.2 = b".toList
  let note := "# note".toList
  let bell := "bell = on".toList
  have swapped : Edit [first, second] [second, first] :=
    .swap [] [] (gives rfl) (gives rfl) (by decide)
  have noted : Edit [second, first] [second, note, first] :=
    .silent [second] [first] (read_eq_skipped.mp rfl)
  have rung : Edit [second, note, first] [second, note, first, bell] :=
    .unknown [second, note, first] [] (gives rfl) (by decide)
  exact .trans _ _ _ (.rel _ _ swapped) (.trans _ _ _ (.rel _ _ noted) (.rel _ _ rung))

theorem backward_represented :
    Represents [("exec.10", "a"), ("exec.2", "b")] (linesOf backward) := by
  have entries : latest ((splitLines backward.toList).filterMap entryOf?) =
      [("exec.10", "a"), ("exec.2", "b")] := by decide +kernel
  rw [← entries, linesOf, ← splitLines_eq]
  exact represents_latest _

theorem backward_distinct (start : String) (command : start = "exec." ∨ start = "exec_always.") :
    Distinct (linesOf backward) start := by
  intro key key' value value' n holds holds' numbers numbers'
  have member := (backward_represented.2 key value).mpr holds
  have member' := (backward_represented.2 key' value').mpr holds'
  have same := (number?_eq_some.mpr numbers).trans (number?_eq_some.mpr numbers').symm
  have one : number? start key ≠ none := by rw [number?_eq_some.mpr numbers]; nofun
  have apart : ∀ entry ∈ [("exec.10", "a"), ("exec.2", "b")],
      ∀ other ∈ [("exec.10", "a"), ("exec.2", "b")],
      number? start entry.1 = number? start other.1 → number? start entry.1 ≠ none →
        entry.1 = other.1 := by
    rcases command with rfl | rfl <;> decide +kernel
  exact apart _ member _ member' same one

theorem settings_of_backward : settings? none backward = some ⟨none, ["b", "a"], []⟩ := by
  have read : readEntries 1 (splitLines backward.toList) =
      .ok [("exec.10", "a"), ("exec.2", "b")] := by decide +kernel
  have kept : latest [("exec.10", "a"), ("exec.2", "b")] =
      [("exec.10", "a"), ("exec.2", "b")] := by decide +kernel
  have first : commands "exec." [("exec.10", "a"), ("exec.2", "b")] = .ok ["b", "a"] := by
    have numbered : indexed "exec." [("exec.10", "a"), ("exec.2", "b")] =
        .ok [(10, "a"), (2, "b")] := by decide +kernel
    rw [commands, numbered]
    simp [Except.map, List.mergeSort, List.MergeSort.Internal.splitInTwo]
  have second : commands "exec_always." [("exec.10", "a"), ("exec.2", "b")] = .ok [] := by
    have numbered : indexed "exec_always." [("exec.10", "a"), ("exec.2", "b")] = .ok [] := by
      decide +kernel
    rw [commands, numbered]
    simp [Except.map]
  have spelled : ofEntries none [("exec.10", "a"), ("exec.2", "b")] =
      .ok ⟨none, ["b", "a"], []⟩ := ofEntries_eq_ok.mpr ⟨by decide +kernel, first, second⟩
  rw [settings?, parse_eq, read, Except.bind, kept, spelled]
  rfl

/-- Where the commands change places and lines without meaning come in, the settings stay. -/
theorem settings_follow_lines_of_backward :
    Reworded (linesOf backward) (linesOf forward) ∧ Distinct (linesOf backward) "exec." ∧
      Distinct (linesOf backward) "exec_always." ∧
      settings? none forward = some ⟨none, ["b", "a"], []⟩ := by
  have once := backward_distinct "exec." (.inl rfl)
  have onceAlways := backward_distinct "exec_always." (.inr rfl)
  refine ⟨backward_reworded, once, onceAlways, ?_⟩
  rw [← settings_of_backward]
  exact ((settings_follow_lines none backward).2.2.2.1 once onceAlways).2 forward backward_reworded

end Succession.Settings
