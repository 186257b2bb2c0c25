import Mathlib.Data.List.Nodup
import Succession.Lookup
import Succession.Proofs.Outcome
import Succession.Proofs.Settings.Lines
import Succession.Proofs.Text.NumeralMeaning

/-!
# What a settings file means

1. A key holds the value of the last line that gives it one (`Holds`, `mem_latest`).
2. A key may number a command (`Numbers`). Commands are listed by these numbers, in whichever order
   their keys are gone through (`commands_eq_ok`, `commands_perm`).
-/

namespace Succession.Settings

variable {line : List Char} {lines rest : List (List Char)} {key value start : String}
  {entries : List Entry}

/-! ## 1. The last line of a key -/

/-- The last line that gives the key a value gives it this value. -/
def Holds (lines : List (List Char)) (key value : String) : Prop :=
  ∃ before line after, lines = before ++ line :: after ∧ Gives line key value ∧
    ∀ later ∈ after, ∀ other, ¬Gives later key other

theorem not_holds_nil : ¬Holds [] key value := by
  rintro ⟨before, line, after, same, _⟩
  cases before <;> cases same

theorem holds_cons :
    Holds (line :: rest) key value ↔
      Holds rest key value ∨
        Gives line key value ∧ ∀ later ∈ rest, ∀ other, ¬Gives later key other := by
  constructor
  · rintro ⟨before, last, after, same, gives, none⟩
    cases before with
    | nil =>
      cases same
      exact .inr ⟨gives, none⟩
    | cons first before =>
      cases same
      exact .inl ⟨before, last, after, rfl, gives, none⟩
  · rintro (⟨before, last, after, rfl, gives, none⟩ | ⟨gives, none⟩)
    · exact ⟨line :: before, last, after, rfl, gives, none⟩
    · exact ⟨[], line, rest, rfl, gives, none⟩

theorem Holds.gives (holds : Holds lines key value) : ∃ line ∈ lines, Gives line key value := by
  obtain ⟨before, line, after, rfl, gives, _⟩ := holds
  exact ⟨line, List.mem_append_right _ List.mem_cons_self, gives⟩

/-- A key to which some line gives a value holds one. -/
theorem exists_holds (member : line ∈ lines) (gives : Gives line key value) :
    ∃ last, Holds lines key last := by
  induction lines generalizing line value with
  | nil => cases member
  | cons first rest ih =>
    by_cases again : ∃ later ∈ rest, ∃ other, Gives later key other
    · obtain ⟨later, inRest, other, givesOther⟩ := again
      obtain ⟨last, holds⟩ := ih inRest givesOther
      exact ⟨last, holds_cons.mpr (.inl holds)⟩
    · rcases List.mem_cons.mp member with rfl | inRest
      · refine ⟨value, holds_cons.mpr (.inr ⟨gives, fun later inRest other givesOther => ?_⟩)⟩
        exact again ⟨later, inRest, other, givesOther⟩
      · exact absurd ⟨line, inRest, value, gives⟩ again

/-- Some entry of the lines has the key exactly if some line gives it a value. -/
theorem any_entryOf? :
    ((lines.filterMap entryOf?).any fun e => e.1 = key) = true ↔
      ∃ line ∈ lines, ∃ value, Gives line key value := by
  simp only [List.any_eq_true, List.mem_filterMap, decide_eq_true_eq]
  constructor
  · rintro ⟨⟨key, value⟩, ⟨line, member, found⟩, rfl⟩
    exact ⟨line, member, value, entryOf?_eq_some.mp found⟩
  · rintro ⟨line, member, value, gives⟩
    exact ⟨(key, value), ⟨line, member, entryOf?_eq_some.mpr gives⟩, rfl⟩

/-- The entries that count are those of the lines that do. -/
theorem mem_latest :
    (key, value) ∈ latest (lines.filterMap entryOf?) ↔ Holds lines key value := by
  induction lines with
  | nil => exact iff_of_false List.not_mem_nil not_holds_nil
  | cons line rest ih =>
    rw [holds_cons, ← ih]
    cases found : entryOf? line with
    | none =>
      rw [List.filterMap_cons_none found, or_iff_left]
      rintro ⟨gives, _⟩
      cases found.symm.trans (entryOf?_eq_some.mpr gives)
    | some entry =>
      obtain ⟨given, content⟩ := entry
      have gives := entryOf?_eq_some.mp found
      rw [List.filterMap_cons_some found, latest]
      split
      · next again =>
        rw [or_iff_left]
        rintro ⟨here, none⟩
        obtain ⟨rfl, rfl⟩ := gives.unique here
        obtain ⟨later, member, other, givesOther⟩ := any_entryOf?.mp again
        exact none later member other givesOther
      · next once =>
        rw [List.mem_cons, or_comm, Prod.mk.injEq]
        refine or_congr_right ⟨?_, ?_⟩
        · rintro ⟨rfl, rfl⟩
          exact ⟨gives, fun later member other givesOther =>
            once (any_entryOf?.mpr ⟨later, member, other, givesOther⟩)⟩
        · rintro ⟨here, _⟩
          exact gives.unique here

theorem latest_sublist (entries : List Entry) : (latest entries).Sublist entries := by
  induction entries with
  | nil => exact .slnil
  | cons entry rest ih =>
    rw [latest]
    split
    · exact ih.cons _
    · exact ih.cons_cons _

/-- Each key counts once. -/
theorem nodup_latest (entries : List Entry) : ((latest entries).map Prod.fst).Nodup := by
  induction entries with
  | nil => exact List.nodup_nil
  | cons entry rest ih =>
    rw [latest]
    split
    · exact ih
    · next once =>
      refine List.nodup_cons.mpr ⟨fun member => once ?_, ih⟩
      obtain ⟨other, inRest, same⟩ := List.mem_map.mp member
      exact List.any_eq_true.mpr
        ⟨other, (latest_sublist rest).subset inRest, decide_eq_true same⟩

theorem Holds.unique {other : String} (holds : Holds lines key value)
    (holdsOther : Holds lines key other) : value = other := by
  have once := nodup_latest (lines.filterMap entryOf?)
  have first := (lookup_eq_some_iff_mem once).mpr (mem_latest.mpr holds)
  have second := (lookup_eq_some_iff_mem once).mpr (mem_latest.mpr holdsOther)
  exact Option.some.inj (first.symm.trans second)

/-- Entries that hold what the lines do, each key once, in whichever order. -/
def Represents (entries : List Entry) (lines : List (List Char)) : Prop :=
  (entries.map Prod.fst).Nodup ∧ ∀ key value, (key, value) ∈ entries ↔ Holds lines key value

theorem represents_latest (lines : List (List Char)) :
    Represents (latest (lines.filterMap entryOf?)) lines :=
  ⟨nodup_latest _, fun _ _ => mem_latest⟩

theorem Represents.perm {order : List Entry} (represents : Represents entries lines)
    (perm : order.Perm entries) : Represents order lines :=
  ⟨(perm.map Prod.fst).nodup_iff.mpr represents.1, fun key value =>
    perm.mem_iff.trans (represents.2 key value)⟩

/-! ## 2. Numbered commands -/

/-- The key is the start and then a numeral that denotes the number. -/
def Numbers (start key : String) (n : Int) : Prop :=
  ∃ suffix, key.toList = start.toList ++ suffix ∧ Numeral.Denotes suffix n ∧
    n ≤ NumeralRange.word64.high

/-- The key has the start, and what stands behind it denotes no number. -/
def Misnumbered (start key : String) : Prop :=
  start.toList <+: key.toList ∧ ∀ n, ¬Numbers start key n

/-- The number of a key, if it has one. -/
def number? (start key : String) : Option Int :=
  (start.toList.isPrefixOf? key.toList).bind fun suffix =>
    (Numeral.read .word64 suffix).toOption

theorem number?_eq_some {n : Int} : number? start key = some n ↔ Numbers start key n := by
  rw [number?, Option.bind_eq_some_iff, Numbers]
  refine exists_congr fun suffix => ?_
  rw [List.isPrefixOf?_eq_some_iff_append_eq, eq_comm, toOption_eq_some, Numeral.read_eq_ok rfl]

theorem Numbers.unique {n m : Int} (numbers : Numbers start key n)
    (numbers' : Numbers start key m) : n = m :=
  Option.some.inj ((number?_eq_some.mpr numbers).symm.trans (number?_eq_some.mpr numbers'))

/-- The commands among the entries are those whose keys are numbered, unless some key has the start
and no number. -/
theorem indexed_eq_ok {pairs : List (Int × String)} :
    indexed start entries = .ok pairs ↔
      (∀ entry ∈ entries, ¬Misnumbered start entry.1) ∧
        pairs = entries.filterMap fun entry => (number? start entry.1).map (·, entry.2) := by
  induction entries generalizing pairs with
  | nil => exact ⟨fun h => ⟨nofun, (Except.ok.inj h).symm⟩, fun h => h.2 ▸ rfl⟩
  | cons entry rest ih =>
    obtain ⟨key, value⟩ := entry
    rw [indexed, List.forall_mem_cons]
    split
    · next foreign =>
      have unnumbered : number? start key = none := by rw [number?, foreign]; rfl
      have apart : ¬Misnumbered start key := by
        rintro ⟨⟨suffix, whole⟩, _⟩
        cases foreign.symm.trans (List.isPrefixOf?_eq_some_iff_append_eq.mpr whole)
      rw [List.filterMap_cons_none (by rw [unnumbered]; rfl), ih, and_iff_right apart]
    · next suffix found =>
      have whole := List.isPrefixOf?_eq_some_iff_append_eq.mp found
      split
      · next cause bad =>
        refine iff_of_false nofun fun h => h.1.1 ⟨⟨suffix, whole⟩, fun n numbers => ?_⟩
        rw [← number?_eq_some, number?, found] at numbers
        cases (toOption_eq_some.mp numbers).symm.trans bad
      · next n read =>
        have numbered : number? start key = some n := by
          rw [number?, found]
          exact toOption_eq_some.mpr read
        have sound : ¬Misnumbered start key := fun h => h.2 n (number?_eq_some.mp numbered)
        rw [List.filterMap_cons_some (by rw [numbered]; rfl), map_eq_ok, and_iff_right sound]
        constructor
        · rintro ⟨others, done, rfl⟩
          obtain ⟨all, rfl⟩ := ih.mp done
          exact ⟨all, rfl⟩
        · rintro ⟨all, rfl⟩
          exact ⟨_, ih.mpr ⟨all, rfl⟩, rfl⟩

/-- The fault of a numbering is a key that has the start and no number. -/
theorem indexed_eq_error {fault : SettingsFault} (failed : indexed start entries = .error fault) :
    ∃ key cause, fault = .badIndex key cause ∧ Misnumbered start key ∧
      ∃ value, (key, value) ∈ entries := by
  induction entries with
  | nil => cases failed
  | cons entry rest ih =>
    obtain ⟨key, value⟩ := entry
    rw [indexed] at failed
    have onward (rest_failed : indexed start rest = .error fault) :
        ∃ key' cause, fault = .badIndex key' cause ∧ Misnumbered start key' ∧
          ∃ content, (key', content) ∈ (key, value) :: rest := by
      obtain ⟨key', cause, same, bad, content, member⟩ := ih rest_failed
      exact ⟨key', cause, same, bad, content, List.mem_cons_of_mem _ member⟩
    split at failed
    · exact onward failed
    · next suffix found =>
      split at failed
      · next cause unread =>
        cases failed
        refine ⟨key, cause, rfl, ⟨⟨suffix, List.isPrefixOf?_eq_some_iff_append_eq.mp found⟩, ?_⟩,
          value, List.mem_cons_self⟩
        intro n numbers
        rw [← number?_eq_some, number?, found] at numbers
        cases (toOption_eq_some.mp numbers).symm.trans unread
      · next n read =>
        cases done : indexed start rest with
        | error other =>
          rw [done] at failed
          cases failed
          exact onward done
        | ok pairs =>
          rw [done] at failed
          cases failed

/-- No two keys with a value have one number. -/
def Distinct (lines : List (List Char)) (start : String) : Prop :=
  ∀ ⦃key key' value value' n⦄, Holds lines key value → Holds lines key' value' →
    Numbers start key n → Numbers start key' n → key = key'

/-- The commands are the values of the numbered keys, their numbers rising. -/
def Lists (lines : List (List Char)) (start : String) (commands : List String) : Prop :=
  ∃ numbered : List (Int × String),
    commands = numbered.map Prod.snd ∧ numbered.Pairwise (·.1 < ·.1) ∧
      ∀ n value, (n, value) ∈ numbered ↔ ∃ key, Numbers start key n ∧ Holds lines key value

/-- The lines list one sequence of commands. -/
theorem Lists.unique {commands commands' : List String} (lists : Lists lines start commands)
    (lists' : Lists lines start commands') : commands = commands' := by
  obtain ⟨numbered, rfl, rising, members⟩ := lists
  obtain ⟨numbered', rfl, rising', members'⟩ := lists'
  have same : ∀ pair, pair ∈ numbered ↔ pair ∈ numbered' := fun pair =>
    (members pair.1 pair.2).trans (members' pair.1 pair.2).symm
  have once : numbered.Nodup :=
    rising.imp fun {a b} (lt : a.1 < b.1) => ne_of_apply_ne Prod.fst (Int.ne_of_lt lt)
  have once' : numbered'.Nodup :=
    rising'.imp fun {a b} (lt : a.1 < b.1) => ne_of_apply_ne Prod.fst (Int.ne_of_lt lt)
  have perm : numbered.Perm numbered' := (List.perm_ext_iff_of_nodup once once').mpr same
  have equal : numbered = numbered' :=
    perm.eq_of_pairwise (fun a b _ _ lt gt => absurd lt (Int.lt_asymm gt)) rising rising'
  rw [equal]

/-- The numbered commands among entries, in the order of the entries. -/
theorem Represents.mem_numbered (represents : Represents entries lines) {n : Int} :
    (n, value) ∈ entries.filterMap (fun entry => (number? start entry.1).map (·, entry.2)) ↔
      ∃ key, Numbers start key n ∧ Holds lines key value := by
  simp only [List.mem_filterMap, Option.map_eq_some_iff, number?_eq_some, Prod.mk.injEq]
  constructor
  · rintro ⟨⟨key, content⟩, member, m, numbers, rfl, rfl⟩
    exact ⟨key, numbers, (represents.2 key content).mp member⟩
  · rintro ⟨key, numbers, holds⟩
    exact ⟨(key, value), (represents.2 key value).mpr holds, n, numbers, rfl, rfl⟩

/-- Where no two keys have one number, no two numbered commands have. -/
theorem Represents.numbers_differ (represents : Represents entries lines)
    (distinct : Distinct lines start) :
    (entries.filterMap fun entry => (number? start entry.1).map (·, entry.2)).Pairwise
      fun a b => a.1 ≠ b.1 := by
  have apart : entries.Pairwise fun a b => a.1 ≠ b.1 := List.pairwise_map.mp represents.1
  refine List.pairwise_filterMap.mpr (apart.imp_of_mem fun {first second} here there differ => ?_)
  intro a found b found' same
  obtain ⟨n, numbers, rfl⟩ := Option.map_eq_some_iff.mp found
  obtain ⟨m, numbers', rfl⟩ := Option.map_eq_some_iff.mp found'
  obtain rfl : n = m := same
  exact differ (distinct ((represents.2 _ _).mp here) ((represents.2 _ _).mp there)
    (number?_eq_some.mp numbers) (number?_eq_some.mp numbers'))

/-- What entries without a bad key list is what the lines do, in whichever order they stand. -/
theorem Represents.lists {listed : List String} (represents : Represents entries lines)
    (distinct : Distinct lines start) (done : commands start entries = .ok listed) :
    Lists lines start listed := by
  obtain ⟨pairs, found, rfl⟩ := map_eq_ok.mp done
  obtain ⟨-, rfl⟩ := indexed_eq_ok.mp found
  set pairs := entries.filterMap fun entry => (number? start entry.1).map (·, entry.2) with _
  have perm : (pairs.mergeSort fun a b => a.1 ≤ b.1).Perm pairs := List.mergeSort_perm _ _
  have sorted : (pairs.mergeSort fun a b => a.1 ≤ b.1).Pairwise fun a b => a.1 ≤ b.1 := by
    refine (List.pairwise_mergeSort ?_ ?_ pairs).imp of_decide_eq_true
    · exact fun a b c le le' => decide_eq_true
        (Int.le_trans (of_decide_eq_true le) (of_decide_eq_true le'))
    · exact fun a b => by simpa using Int.le_total a.1 b.1
  have differ : (pairs.mergeSort fun a b => a.1 ≤ b.1).Pairwise fun a b => a.1 ≠ b.1 :=
    (perm.pairwise_iff Ne.symm).mpr (represents.numbers_differ distinct)
  refine ⟨_, rfl, ?_, fun n value => perm.mem_iff.trans represents.mem_numbered⟩
  exact (sorted.and differ).imp fun ⟨le, ne⟩ => Int.lt_iff_le_and_ne.mpr ⟨le, ne⟩

/-- Entries are listed unless some key has the start and no number. -/
theorem Represents.commands_eq_ok (represents : Represents entries lines) :
    (∃ listed, commands start entries = .ok listed) ↔
      ∀ key value, Holds lines key value → ¬Misnumbered start key := by
  constructor
  · rintro ⟨listed, done⟩ key value holds
    obtain ⟨pairs, found, -⟩ := map_eq_ok.mp done
    exact (indexed_eq_ok.mp found).1 (key, value) ((represents.2 key value).mpr holds)
  · intro sound
    exact ⟨_, map_eq_ok.mpr ⟨_, indexed_eq_ok.mpr ⟨fun entry member =>
      sound entry.1 entry.2 ((represents.2 _ _).mp member), rfl⟩, rfl⟩⟩

end Succession.Settings
