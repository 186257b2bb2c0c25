import Mathlib.Data.List.TakeWhile
import Succession.Text.Blank

/-!
# Trimming

A text is blank characters, what trimming leaves of it, and blank characters again
(`exists_trimChars`). So blanks at its ends do not matter (`trimChars_blanks_append`,
`trimChars_append_blanks`), and what was trimmed is not trimmed further (`trim_trim`). At a
character that is not blank both ends are trimmed apart (`trimChars_append_cons`).
-/

namespace Succession.Text

variable {text blanks : List Char}

/-- All characters are blank. -/
abbrev AllBlank (text : List Char) : Prop := ∀ c ∈ text, isBlank c = true

theorem dropWhile_blanks_append (blank : AllBlank blanks) (text : List Char) :
    (blanks ++ text).dropWhile isBlank = text.dropWhile isBlank := by
  induction blanks with
  | nil => rfl
  | cons c rest ih =>
    obtain ⟨first, others⟩ := List.forall_mem_cons.mp blank
    rw [List.cons_append, List.dropWhile_cons_of_pos first, ih others]

theorem dropWhile_eq_nil (blank : AllBlank blanks) : blanks.dropWhile isBlank = [] := by
  have all := dropWhile_blanks_append blank []
  rwa [List.append_nil] at all

theorem trimChars_blanks_append (blank : AllBlank blanks) (text : List Char) :
    trimChars (blanks ++ text) = trimChars text := by
  rw [trimChars, trimStart, dropWhile_blanks_append blank]
  rfl

theorem trimEnd_append_blanks (blank : AllBlank blanks) (text : List Char) :
    trimEnd (text ++ blanks) = trimEnd text := by
  have backwards : AllBlank blanks.reverse := fun c member => blank c (List.mem_reverse.mp member)
  rw [trimEnd, List.reverse_append, dropWhile_blanks_append backwards]
  rfl

theorem trimChars_append_blanks (blank : AllBlank blanks) (text : List Char) :
    trimChars (text ++ blanks) = trimChars text := by
  rw [trimChars, trimChars, trimStart, trimStart, List.dropWhile_append]
  split
  · next none =>
    rw [List.isEmpty_iff.mp none, dropWhile_eq_nil blank]
  · exact trimEnd_append_blanks blank _

/-- Trimming removes blank characters at both ends and nothing else. -/
theorem exists_trimChars (text : List Char) :
    ∃ before after, text = before ++ trimChars text ++ after ∧ AllBlank before ∧
      AllBlank after := by
  refine ⟨text.takeWhile isBlank, ((trimStart text).reverse.takeWhile isBlank).reverse, ?_, ?_, ?_⟩
  · rw [List.append_assoc, trimChars, trimEnd, ← List.reverse_append,
      List.takeWhile_append_dropWhile, List.reverse_reverse, trimStart,
      List.takeWhile_append_dropWhile]
  · exact fun c member => List.mem_takeWhile_imp member
  · exact fun c member => List.mem_takeWhile_imp (List.mem_reverse.mp member)

theorem trimChars_eq_nil : trimChars text = [] ↔ AllBlank text := by
  constructor
  · intro none c member
    obtain ⟨before, after, whole, front, back⟩ := exists_trimChars text
    rw [whole, none, List.append_nil, List.mem_append] at member
    exact member.elim (front c) (back c)
  · intro blank
    have all := trimChars_append_blanks blank []
    rwa [List.nil_append] at all

theorem trimChars_trimStart (text : List Char) : trimChars (trimStart text) = trimChars text := by
  have blank : AllBlank (text.takeWhile isBlank) := fun c member => List.mem_takeWhile_imp member
  have same := trimChars_blanks_append blank (text.dropWhile isBlank)
  rw [List.takeWhile_append_dropWhile] at same
  exact same.symm

theorem trimChars_trimEnd (text : List Char) : trimChars (trimEnd text) = trimChars text := by
  have blank : AllBlank (text.reverse.takeWhile isBlank).reverse := fun c member =>
    List.mem_takeWhile_imp (List.mem_reverse.mp member)
  have same := trimChars_append_blanks blank (trimEnd text)
  rw [trimEnd, ← List.reverse_append, List.takeWhile_append_dropWhile, List.reverse_reverse] at same
  exact same.symm

theorem dropWhile_append_cons {c : Char} (visible : isBlank c = false) (front back : List Char) :
    (front ++ c :: back).dropWhile isBlank = front.dropWhile isBlank ++ c :: back := by
  rw [List.dropWhile_append]
  split
  · next none =>
    rw [List.isEmpty_iff.mp none, List.nil_append, List.dropWhile_cons_of_neg (by simp [visible])]
  · rfl

/-- What stands before a visible character is trimmed at the start, and what stands behind it at the
end. -/
theorem trimChars_append_cons {c : Char} (visible : isBlank c = false) (front back : List Char) :
    trimChars (front ++ c :: back) = trimStart front ++ c :: trimEnd back := by
  rw [trimChars, trimStart, dropWhile_append_cons visible, trimEnd, List.reverse_append,
    List.reverse_cons, List.append_assoc, List.singleton_append, dropWhile_append_cons visible,
    List.reverse_append, List.reverse_cons, List.reverse_reverse, List.append_assoc,
    List.singleton_append]
  rfl

theorem trimChars_trimChars (text : List Char) : trimChars (trimChars text) = trimChars text := by
  obtain ⟨before, after, whole, front, back⟩ := exists_trimChars text
  have same := congrArg trimChars whole
  rwa [trimChars_append_blanks back, trimChars_blanks_append front, eq_comm] at same

/-- What was trimmed is not trimmed further. -/
theorem trim_trim (text : String) : trim (trim text) = trim text := by
  rw [trim, trim, String.toList_ofList, trimChars_trimChars]

end Succession.Text
