import Succession.Proofs.Text.NumeralDigits
import Succession.Text.Blank

/-!
# A number is read back from its decimal text

Digits are read as the number they stand for as long as that number is in the range
(`readDigits_eq_ok`), and digits have no blanks that trimming could remove. A number from zero on is
therefore read back from its text, trimmed or not (`parse?_trim_render`).
-/

namespace Succession

namespace Text

theorem trimStart_of_visible {text : List Char} (visible : ∀ c ∈ text, isBlank c = false) :
    trimStart text = text := by
  cases text with
  | nil => rfl
  | cons c rest =>
    have first := visible c List.mem_cons_self
    rw [trimStart, List.dropWhile_cons_of_neg (by simp [first])]

/-- Trimming removes nothing where nothing is blank. -/
theorem trim_of_visible {text : List Char} (visible : ∀ c ∈ text, isBlank c = false) :
    trim (String.ofList text) = String.ofList text := by
  have backwards : ∀ c ∈ text.reverse, isBlank c = false := fun c member =>
    visible c (List.mem_reverse.mp member)
  have atEnd : text.reverse.dropWhile isBlank = text.reverse := trimStart_of_visible backwards
  rw [trim, String.toList_ofList, trimChars, trimStart_of_visible visible, trimEnd, atEnd,
    List.reverse_reverse]

end Text

namespace Numeral

/-- Whether a character is a decimal digit. -/
def IsDigit (c : Char) : Prop := 48 ≤ c.toNat ∧ c.toNat < 58

theorem digit?_of_isDigit {c : Char} (digit : IsDigit c) : digit? c = some (c.toNat - 48) := by
  have bounds : '0' ≤ c ∧ c ≤ '9' := by
    simp only [Char.le_def, UInt32.le_iff_toNat_le]
    exact ⟨digit.1, Nat.le_of_lt_succ digit.2⟩
  rw [digit?, if_pos bounds]
  rfl

theorem isBlank_of_isDigit {c : Char} (digit : IsDigit c) : Text.isBlank c = false := by
  obtain ⟨low, high⟩ := digit
  simp only [Text.isBlank, Text.blankRanges, List.any_cons, List.any_nil, Bool.or_false,
    Bool.or_eq_false_iff, Bool.and_eq_false_iff, decide_eq_false_iff_not, Nat.not_le]
  omega

theorem le_valueOnto (n : Nat) (digits : List Char) : n ≤ valueOnto n digits := by
  induction digits generalizing n with
  | nil => exact Nat.le_refl n
  | cons c rest ih =>
    rw [valueOnto, List.foldl_cons]
    exact Nat.le_trans (by omega) (ih (n * 10 + (c.toNat - 48)))

/-- Digits are read as the number they stand for, if that number is not too large. -/
theorem readDigits_eq_ok {range : NumeralRange} {digits : List Char}
    (all : ∀ c ∈ digits, IsDigit c) {n : Nat} (small : (valueOnto n digits : Int) ≤ range.high) :
    readDigits range false n digits = .ok (valueOnto n digits) := by
  induction digits generalizing n with
  | nil => rfl
  | cons c rest ih =>
    have onward : valueOnto n (c :: rest) = valueOnto (n * 10 + (c.toNat - 48)) rest := rfl
    -- The number read so far is at most the whole, so it is in the range as well.
    have within : ((n * 10 + (c.toNat - 48) : Nat) : Int) ≤ range.high := by
      have more := le_valueOnto (n * 10 + (c.toNat - 48)) rest
      rw [onward] at small
      omega
    have next : (n : Int) * 10 + ((c.toNat - 48 : Nat) : Int) =
        ((n * 10 + (c.toNat - 48) : Nat) : Int) := by push_cast; rfl
    rw [readDigits, digit?_of_isDigit (all c List.mem_cons_self)]
    simp only [Bool.false_eq_true, if_false, next, if_pos within]
    rw [ih (fun d member => all d (List.mem_cons_of_mem _ member)) (onward ▸ small), onward]

/-- A text of digits is a numeral without a sign. -/
theorem read_of_digits {range : NumeralRange} {digits : List Char} (nonempty : digits ≠ [])
    (all : ∀ c ∈ digits, IsDigit c) : read range digits = readDigits range false 0 digits := by
  cases digits with
  | nil => exact absurd rfl nonempty
  | cons c rest =>
    have first := all c List.mem_cons_self
    have plus : c ≠ '+' := by rintro rfl; exact absurd first.1 (by decide)
    have minus : c ≠ '-' := by rintro rfl; exact absurd first.1 (by decide)
    unfold read
    split
    all_goals simp_all

/-- A number from zero on is read back from its text. -/
theorem parse?_trim_render {range : NumeralRange} {n : Int} (nonnegative : 0 ≤ n)
    (small : n ≤ range.high) : parse? range (Text.trim (render n)) = some n := by
  have digits : intDigits n = natDigits n.natAbs := if_neg (by omega)
  have all : ∀ c ∈ natDigits n.natAbs, IsDigit c := digit_of_mem_natDigits n.natAbs
  have value : (valueOnto 0 (natDigits n.natAbs) : Int) = n := by
    rw [value_natDigits]
    omega
  have readBack : readDigits range false 0 (natDigits n.natAbs) = .ok n := by
    have done := @readDigits_eq_ok range _ all 0 (by rw [value]; exact small)
    rw [value] at done
    exact done
  rw [render, digits, Text.trim_of_visible fun c member => isBlank_of_isDigit (all c member),
    parse?, String.toList_ofList, read_of_digits (natDigits_ne_nil _) all, readBack]
  rfl

end Numeral

end Succession
