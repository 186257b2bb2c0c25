import Mathlib.Data.List.TakeDrop
import Succession.Proofs.Text.Trimming
import Succession.Settings.Basic

/-!
# What the lines of a settings file say

1. A text is cut at its line feeds (`splitLines_eq`). A line is blank or a comment (`Silent`), or
   gives a value to a key (`Gives`), or is neither (`Malformed`), and it is read as what it is
   (`read_eq_skipped`, `read_eq_entry`, `read_eq_malformed`).
2. All lines are read, unless one is malformed: then the first such line is the fault
   (`readEntries_sound`, `readEntries_malformed`).
-/

namespace Succession.Settings

open Text (isBlank trimChars AllBlank)

variable {line text : List Char} {lines : List (List Char)} {key value : String}

/-! ## 1. One line -/

theorem splitLines_eq (text : List Char) : splitLines text = text.splitOn '\n' := by
  rw [List.splitOn_eq_splitOnP]
  induction text with
  | nil => rfl
  | cons c rest ih =>
    rw [List.splitOnP_cons_eq_if_modifyHead]
    by_cases ends : c = '\n'
    · subst ends
      exact congrArg ([] :: ·) ih
    · rw [if_neg (by simpa using ends), ← ih]
      obtain ⟨line, others, split⟩ :=
        List.exists_cons_of_ne_nil (ih ▸ List.splitOnP_ne_nil _ _ : splitLines rest ≠ [])
      rw [splitLines, split]
      · rfl
      · exact fun same => ends same

/-- A line is blank, or its first character that is not blank is `#`. -/
def Silent (line : List Char) : Prop :=
  AllBlank line ∨ ∃ blanks rest, line = blanks ++ '#' :: rest ∧ AllBlank blanks

/-- A line gives a value to a key: it is not silent, the key is what stands before its first `=`,
and the value what stands behind, both trimmed. -/
def Gives (line : List Char) (key value : String) : Prop :=
  ¬Silent line ∧ ∃ before after, line = before ++ '=' :: after ∧ '=' ∉ before ∧
    key = String.ofList (trimChars before) ∧ value = String.ofList (trimChars after)

/-- A line is not silent and has no `=`. -/
def Malformed (line : List Char) : Prop := ¬Silent line ∧ '=' ∉ line

theorem silent_iff :
    Silent line ↔ trimChars line = [] ∨ ∃ rest, trimChars line = '#' :: rest := by
  rw [Silent, Text.trimChars_eq_nil]
  refine or_congr_right ⟨?_, ?_⟩
  · rintro ⟨blanks, rest, rfl, blank⟩
    rw [Text.trimChars_append_cons (by decide), Text.trimStart, Text.dropWhile_eq_nil blank]
    exact ⟨_, rfl⟩
  · rintro ⟨rest, trimmed⟩
    obtain ⟨before, after, whole, blank, _⟩ := Text.exists_trimChars line
    refine ⟨before, rest ++ after, ?_, blank⟩
    rw [trimmed, List.append_assoc] at whole
    exact whole

theorem read_of_silent (silent : Silent line) : Line.read line = .skipped := by
  rw [Line.read]
  rcases silent_iff.mp silent with trimmed | ⟨rest, trimmed⟩
  · simp only [trimmed]
  · simp only [trimmed]

/-- A line that is not silent is read as what stands around its first `=`. -/
theorem read_of_not_silent (speaks : ¬Silent line) :
    Line.read line =
      match (trimChars line).span (· ≠ '=') with
      | (_, []) => .malformed (String.ofList (trimChars line))
      | (key, _ :: value) =>
        .entry (String.ofList (trimChars key)) (String.ofList (trimChars value)) := by
  rw [Line.read]
  split
  · next trimmed => exact absurd (silent_iff.mpr (.inl trimmed)) speaks
  · next rest trimmed => exact absurd (silent_iff.mpr (.inr ⟨rest, trimmed⟩)) speaks
  · rfl

theorem read_of_malformed (malformed : Malformed line) :
    Line.read line = .malformed (String.ofList (trimChars line)) := by
  obtain ⟨speaks, none⟩ := malformed
  have inside : ∀ c ∈ trimChars line, decide (c ≠ '=') = true := by
    obtain ⟨before, after, whole, _⟩ := Text.exists_trimChars line
    rintro c member
    refine decide_eq_true fun same => none ?_
    rw [whole, ← same]
    exact List.mem_append_left _ (List.mem_append_right _ member)
  rw [read_of_not_silent speaks, List.span_eq_takeWhile_dropWhile,
    List.dropWhile_eq_nil_iff.mpr inside]

theorem read_of_gives (gives : Gives line key value) : Line.read line = .entry key value := by
  obtain ⟨speaks, before, after, rfl, first, rfl, rfl⟩ := gives
  have inside : ∀ c ∈ Text.trimStart before, decide (c ≠ '=') = true := fun c member =>
    decide_eq_true fun same => first (same ▸ (List.dropWhile_suffix _).subset member)
  rw [read_of_not_silent speaks, Text.trimChars_append_cons (by decide),
    List.span_eq_takeWhile_dropWhile, List.takeWhile_append_of_pos inside,
    List.dropWhile_append_of_pos inside]
  simp only [List.dropWhile_cons, List.takeWhile_cons, ne_eq, not_true, decide_false,
    Bool.false_eq_true, if_false, List.append_nil]
  rw [Text.trimChars_trimStart, Text.trimChars_trimEnd]

/-- Every line is of one of the three kinds. -/
theorem line_cases (line : List Char) :
    Silent line ∨ (∃ key value, Gives line key value) ∨ Malformed line := by
  by_cases silent : Silent line
  · exact .inl silent
  by_cases some : '=' ∈ line
  · obtain ⟨before, after, rfl, first⟩ := List.eq_append_cons_of_mem some
    exact .inr (.inl ⟨_, _, silent, before, after, rfl, first, rfl, rfl⟩)
  · exact .inr (.inr ⟨silent, some⟩)

theorem read_eq_skipped : Line.read line = .skipped ↔ Silent line := by
  refine ⟨fun read => ?_, read_of_silent⟩
  rcases line_cases line with silent | ⟨key, value, gives⟩ | malformed
  · exact silent
  · cases (read_of_gives gives).symm.trans read
  · cases (read_of_malformed malformed).symm.trans read

theorem read_eq_entry : Line.read line = .entry key value ↔ Gives line key value := by
  refine ⟨fun read => ?_, read_of_gives⟩
  rcases line_cases line with silent | ⟨key', value', gives⟩ | malformed
  · cases (read_of_silent silent).symm.trans read
  · cases (read_of_gives gives).symm.trans read
    exact gives
  · cases (read_of_malformed malformed).symm.trans read

theorem read_eq_malformed {text : String} :
    Line.read line = .malformed text ↔
      Malformed line ∧ text = String.ofList (trimChars line) := by
  constructor
  · intro read
    rcases line_cases line with silent | ⟨key, value, gives⟩ | malformed
    · cases (read_of_silent silent).symm.trans read
    · cases (read_of_gives gives).symm.trans read
    · cases (read_of_malformed malformed).symm.trans read
      exact ⟨malformed, rfl⟩
  · rintro ⟨malformed, rfl⟩
    exact read_of_malformed malformed

/-- A line gives one value to one key. -/
theorem Gives.unique {key' value' : String} (gives : Gives line key value)
    (gives' : Gives line key' value') : key' = key ∧ value' = value := by
  cases (read_of_gives gives).symm.trans (read_of_gives gives')
  exact ⟨rfl, rfl⟩

/-! ## 2. All lines -/

/-- What a line gives, if it gives something. -/
def entryOf? (line : List Char) : Option Entry :=
  match Line.read line with
  | .entry key value => some (key, value)
  | _ => none

theorem entryOf?_eq_some : entryOf? line = some (key, value) ↔ Gives line key value := by
  rw [← read_eq_entry, entryOf?]
  split
  · next read => rw [read, Line.entry.injEq, Option.some.injEq, Prod.mk.injEq]
  · next other => exact iff_of_false nofun fun read => other key value read

/-- Where no line is malformed, the entries are what the lines give. -/
theorem readEntries_sound (sound : ∀ line ∈ lines, ¬Malformed line) (number : Nat) :
    readEntries number lines = .ok (lines.filterMap entryOf?) := by
  induction lines generalizing number with
  | nil => rfl
  | cons line rest ih =>
    obtain ⟨here, later⟩ := List.forall_mem_cons.mp sound
    rw [readEntries, List.filterMap_cons, entryOf?]
    split
    · next read =>
      rw [read]
      exact ih later (number + 1)
    · next key value read =>
      rw [read, ih later (number + 1)]
      rfl
    · next text read => exact absurd (read_eq_malformed.mp read).1 here

/-- The first malformed line is the fault. -/
theorem readEntries_malformed {before after : List (List Char)}
    (sound : ∀ line ∈ before, ¬Malformed line) (malformed : Malformed line) (number : Nat) :
    readEntries number (before ++ line :: after) =
      .error (.noEquals (number + before.length) (String.ofList (trimChars line))) := by
  induction before generalizing number with
  | nil =>
    rw [List.nil_append, readEntries, read_of_malformed malformed]
    rfl
  | cons first rest ih =>
    obtain ⟨here, later⟩ := List.forall_mem_cons.mp sound
    have onward := ih later (number + 1)
    rw [Nat.add_right_comm, Nat.add_assoc, ← List.length_cons (a := first)] at onward
    rw [List.cons_append, readEntries]
    split
    · exact onward
    · rw [onward]
      rfl
    · next text read => exact absurd (read_eq_malformed.mp read).1 here

/-- Either no line is malformed, or there is a first one that is. -/
theorem sound_or_malformed (lines : List (List Char)) :
    (∀ line ∈ lines, ¬Malformed line) ∨
      ∃ before line after, lines = before ++ line :: after ∧ Malformed line ∧
        ∀ other ∈ before, ¬Malformed other := by
  induction lines with
  | nil => exact .inl nofun
  | cons line rest ih =>
    by_cases here : Malformed line
    · exact .inr ⟨[], line, rest, rfl, here, nofun⟩
    rcases ih with sound | ⟨before, first, after, rfl, malformed, sound⟩
    · exact .inl (List.forall_mem_cons.mpr ⟨here, sound⟩)
    · exact .inr ⟨line :: before, first, after, rfl, malformed,
        List.forall_mem_cons.mpr ⟨here, sound⟩⟩

end Succession.Settings
