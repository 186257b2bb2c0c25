import Mathlib.Data.List.Basic
import Mathlib.Data.List.TakeDrop
import Mathlib.Tactic.SplitIfs
import Succession.Json.Lexer
import Succession.Json.Writer
import Succession.Proofs.Text.NumeralDigits
import Succession.Proofs.Text.Utf8RoundTrip

/-!
# Single JSON tokens are read back

`readToken_quoted`: a quoted text is read as that text, whatever its characters.
`readToken_integer`: an integer is read as itself where nothing follows that would prolong it. A
token of another kind is read whatever follows it (`readToken_render`).
-/

namespace Succession.Json

open Utf8 (encodeChar encodeChars)

/-! ## Strings -/

/-- Whether a byte stands for itself inside a string. -/
def isPlain (b : UInt8) : Prop := b ≠ quote ∧ ¬b < 0x20 ∧ b ≠ backslash

theorem readParts_plain {bytes : Bytes} (plain : ∀ b ∈ bytes, isPlain b) (rest : Bytes) :
    readParts (bytes ++ rest) =
      (readParts rest).map fun (parts, after) => (bytes.map .byte ++ parts, after) := by
  induction bytes with
  | nil =>
    simp
  | cons b bytes ih =>
    obtain ⟨closing, control, escape⟩ := plain b (by simp)
    rw [List.cons_append, readParts.eq_def]
    simp only [if_neg closing, if_neg control, if_pos escape]
    rw [ih fun d member => plain d (List.mem_cons_of_mem _ member), Option.map_map]
    rfl

theorem joinParts_bytes (bytes : Bytes) (parts : List StringPart) :
    joinParts (bytes.map .byte ++ parts) = (joinParts parts).map (bytes ++ ·) := by
  induction bytes with
  | nil => simp
  | cons b bytes ih =>
    rw [List.map_cons, List.cons_append, joinParts, ih, Option.map_map]
    rfl

theorem plain_encodeChar {c : Char} (visible : 0x20 ≤ c.toNat) (notQuote : c ≠ '"')
    (notBackslash : c ≠ '\\') : ∀ b ∈ encodeChar c, isPlain b := by
  intro b member
  have named {k : Nat} (h : c.toNat = k) : c = Char.ofNat k := by
    rw [← h, Char.ofNat_toNat]
  have number : b.toNat ≠ 0x22 ∧ 0x20 ≤ b.toNat ∧ b.toNat ≠ 0x5C := by
    by_cases small : c.toNat < 0x80
    · rw [Utf8.encodeChar_ascii small, List.mem_singleton] at member
      rw [member, Utf8.toNat_ofNat_of_lt (by omega)]
      exact ⟨fun h => notQuote (named h), visible, fun h => notBackslash (named h)⟩
    · have := Utf8.le_of_mem_encodeChar (by omega) member
      omega
  refine ⟨fun h => number.1 (by rw [h]; rfl), fun h => ?_, fun h => number.2.2 (by rw [h]; rfl)⟩
  rw [UInt8.lt_iff_toNat_lt] at h
  exact absurd h (Nat.not_lt.mpr number.2.1)

theorem hexUnit?_control {n : Nat} (control : n < 0x20) :
    hexUnit? 0x30 0x30 (UInt8.ofNat (hexChar (n / 16)).toNat) (UInt8.ofNat (hexChar (n % 16)).toNat)
      = some n := by
  have all : ∀ n < 0x20, hexUnit? 0x30 0x30 (UInt8.ofNat (hexChar (n / 16)).toNat)
      (UInt8.ofNat (hexChar (n % 16)).toNat) = some n := by decide
  exact all n control

theorem hexChar_ascii {n : Nat} (small : n < 16) : (hexChar n).toNat < 0x80 := by
  have all : ∀ n < 16, (hexChar n).toNat < 0x80 := by decide
  exact all n small

/-- An escaped character is read as parts that spell it. -/
theorem read_escape (c : Char) : ∃ parts : List StringPart,
    (∀ rest, readParts (encodeChars (escape c) ++ rest) =
      (readParts rest).map fun (later, after) => (parts ++ later, after)) ∧
    ∀ later, joinParts (parts ++ later) = (joinParts later).map (encodeChar c ++ ·) := by
  unfold escape
  split
  case h_8 notQuote notBackslash _ _ _ _ _ =>
    split_ifs with control
    · refine ⟨[.unit c.toNat], fun rest => ?_, fun later => ?_⟩
      · have first := hexChar_ascii (n := c.toNat / 16) (by omega)
        have second := hexChar_ascii (n := c.toNat % 16) (by omega)
        have bytes : encodeChars
            ['\\', 'u', '0', '0', hexChar (c.toNat / 16), hexChar (c.toNat % 16)] =
            [0x5C, 0x75, 0x30, 0x30, UInt8.ofNat (hexChar (c.toNat / 16)).toNat,
              UInt8.ofNat (hexChar (c.toNat % 16)).toNat] := by
          rw [Utf8.encodeChars_ascii (by simp [first, second])]
          rfl
        rw [bytes]
        simp only [List.cons_append, List.nil_append]
        rw [readParts.eq_def]
        simp [quote, backslash, hexUnit?_control control]
      · have leading : isLeading c.toNat = false := by simp [isLeading]; omega
        have trailing : isTrailing c.toNat = false := by simp [isTrailing]; omega
        rw [List.singleton_append, joinParts.eq_def]
        simp [leading, trailing, Char.ofNat_toNat]
    · refine ⟨(encodeChar c).map .byte, fun rest => ?_, joinParts_bytes _⟩
      have single : encodeChars [c] = encodeChar c := by simp [encodeChars]
      rw [single]
      exact readParts_plain (plain_encodeChar (by omega) notQuote notBackslash) rest
  all_goals
    refine ⟨(encodeChar _).map .byte, fun rest => ?_, joinParts_bytes _⟩
    simp [encodeChars, encodeChar, readParts, quote, backslash, shortEscape?]
/-- A text is read back from how it is written inside a string. -/
theorem read_escaped (text : List Char) : ∃ parts : List StringPart,
    (∀ rest, readParts (encodeChars (text.flatMap escape) ++ quote :: rest) = some (parts, rest)) ∧
    joinParts parts = some (encodeChars text) := by
  induction text with
  | nil =>
    refine ⟨[], fun rest => ?_, rfl⟩
    rw [List.flatMap_nil, encodeChars, List.flatMap_nil, List.nil_append, readParts.eq_def]
    simp
  | cons c text ih =>
    obtain ⟨later, readLater, spellLater⟩ := ih
    obtain ⟨parts, read, spell⟩ := read_escape c
    refine ⟨parts ++ later, fun rest => ?_, ?_⟩
    · rw [List.flatMap_cons, Utf8.encodeChars_append, List.append_assoc, read, readLater]
      rfl
    · rw [spell, spellLater, Utf8.encodeChars_cons]
      rfl

theorem readToken_quoted (text : List Char) (rest : Bytes) :
    readToken (encodeChars (quoted text) ++ rest) = some (.string (some text), rest) := by
  obtain ⟨parts, read, spell⟩ := read_escaped text
  have bytes : encodeChars (quoted text) ++ rest =
      quote :: (encodeChars (text.flatMap escape) ++ quote :: rest) := by
    rw [quoted, List.cons_append, Utf8.encodeChars_cons, Utf8.encodeChars_append]
    simp [encodeChars, encodeChar, quote]
  have spelled : textOfParts parts = some text := by
    rw [textOfParts, spell, Option.bind_some, Utf8.decode?_encodeChars]
    simp
  have unmarked : mark? quote = none := by decide
  rw [bytes, readToken.eq_def]
  simp only [unmarked, if_true]
  rw [read, Option.map_some, spelled]

/-! ## Numbers -/

/-- Whether a number ends where these bytes follow it. -/
def EndsNumber (rest : Bytes) : Prop :=
  ∀ b ∈ rest.head?, isDigit b = false ∧ b ≠ 0x2E ∧ b ≠ 0x65 ∧ b ≠ 0x45

theorem span_digits {digits rest : Bytes} (all : ∀ b ∈ digits, isDigit b = true)
    (ends : EndsNumber rest) : (digits ++ rest).span isDigit = (digits, rest) := by
  have none : rest.takeWhile isDigit = [] ∧ rest.dropWhile isDigit = rest := by
    cases rest with
    | nil => exact ⟨rfl, rfl⟩
    | cons b rest =>
      have stop := (ends b rfl).1
      simp [stop]
  rw [List.span_eq_takeWhile_dropWhile, List.takeWhile_append_of_pos all,
    List.dropWhile_append_of_pos all, none.1, none.2, List.append_nil]

theorem readFraction_ends {rest : Bytes} (ends : EndsNumber rest) :
    readFraction rest = some (false, rest) := by
  cases rest with
  | nil => rfl
  | cons b rest =>
    obtain ⟨_, point, small, capital⟩ := ends b rfl
    unfold readFraction
    split
    · next h => exact absurd (List.cons.inj h).1 point
    · simp [readExponent, small, capital]

theorem digitsValue_map {digits : List Char} (small : ∀ c ∈ digits, 48 ≤ c.toNat ∧ c.toNat < 58) :
    digitsValue (digits.map fun c => UInt8.ofNat c.toNat) = Numeral.valueOnto 0 digits := by
  rw [digitsValue, Numeral.valueOnto, List.foldl_map]
  refine List.foldl_ext _ _ _ fun n c member => ?_
  rw [Utf8.toNat_ofNat_of_lt (by have := small c member; omega)]

theorem isDigit_of_bounds {c : Char} (bounds : 48 ≤ c.toNat ∧ c.toNat < 58) :
    isDigit (UInt8.ofNat c.toNat) = true := by
  simp only [isDigit, Bool.and_eq_true, decide_eq_true_eq, UInt8.le_iff_toNat_le]
  rw [Utf8.toNat_ofNat_of_lt (by omega)]
  simp only [UInt8.reduceToNat]
  omega

theorem readNumber_digits (negative : Bool) {n : Nat} (nonzero : negative = true → n ≠ 0)
    {rest : Bytes} (ends : EndsNumber rest) :
    readNumber negative (encodeChars (Numeral.natDigits n) ++ rest) =
      some (.integer (if negative then -(n : Int) else n), rest) := by
  have digits := Numeral.digit_of_mem_natDigits n
  have value := digitsValue_map digits
  rw [Numeral.value_natDigits] at value
  have allDigits :
      ∀ b ∈ (Numeral.natDigits n).map fun c => UInt8.ofNat c.toNat, isDigit b = true := by
    intro b member
    obtain ⟨c, found, rfl⟩ := List.mem_map.mp member
    exact isDigit_of_bounds (digits c found)
  have split := span_digits allDigits ends
  rw [Utf8.encodeChars_ascii fun c member => by have := digits c member; omega]
  unfold readNumber
  rw [split]
  cases spelled : Numeral.natDigits n with
  | nil => exact absurd spelled (Numeral.natDigits_ne_nil n)
  | cons c later =>
    rw [spelled] at value digits
    have noZero : ¬(UInt8.ofNat c.toNat = 0x30 ∧ later ≠ []) := by
      rintro ⟨zero, more⟩
      have code : c.toNat = 48 := by
        have := congrArg UInt8.toNat zero
        rwa [Utf8.toNat_ofNat_of_lt (by have := digits c (by simp); omega)] at this
      have first : c = '0' := by rw [← Char.ofNat_toNat c, code]
      rw [first] at spelled
      exact more (Numeral.natDigits_eq_zero_cons spelled)
    rw [List.map_cons] at value ⊢
    simp only [value, readFraction_ends ends, Option.map_some]
    rw [if_neg (by simpa using noZero), if_neg (by cases negative <;> simp_all)]

theorem digit_begins_number {b : UInt8} (digit : isDigit b = true) :
    mark? b = none ∧ b ≠ quote ∧ b ≠ 0x2D := by
  have all : ∀ n < 58, 48 ≤ n → mark? (UInt8.ofNat n) = none ∧ UInt8.ofNat n ≠ quote ∧
      UInt8.ofNat n ≠ 0x2D := by decide
  simp only [isDigit, Bool.and_eq_true, decide_eq_true_eq, UInt8.le_iff_toNat_le,
    UInt8.reduceToNat] at digit
  have known := all b.toNat (by omega) (by omega)
  rwa [UInt8.ofNat_toNat] at known

theorem readToken_integer (n : Int) {rest : Bytes} (ends : EndsNumber rest) :
    readToken (encodeChars (Numeral.intDigits n) ++ rest) = some (.integer n, rest) := by
  unfold Numeral.intDigits
  split_ifs with negative
  · have bytes : encodeChars ('-' :: Numeral.natDigits n.natAbs) ++ rest =
        0x2D :: (encodeChars (Numeral.natDigits n.natAbs) ++ rest) := by
      rw [Utf8.encodeChars_cons, List.append_assoc]
      rfl
    have unmarked : mark? 0x2D = none := by decide
    have notQuote : (0x2D : UInt8) ≠ quote := by decide
    rw [bytes, readToken.eq_def]
    simp only [unmarked, notQuote, if_true, if_false]
    rw [readNumber_digits true (by omega) ends]
    simp only [if_true, Option.some.injEq, Prod.mk.injEq, and_true, Token.integer.injEq]
    omega
  · have read := readNumber_digits false (n := n.natAbs) nofun ends
    have digits := Numeral.digit_of_mem_natDigits n.natAbs
    cases spelled : Numeral.natDigits n.natAbs with
    | nil => exact absurd spelled (Numeral.natDigits_ne_nil _)
    | cons c later =>
      rw [spelled] at read digits
      have first := digits c (by simp)
      have digit := isDigit_of_bounds first
      obtain ⟨unmarked, notQuote, notMinus⟩ := digit_begins_number digit
      rw [Utf8.encodeChars_cons, Utf8.encodeChar_ascii (by omega), List.singleton_append,
        List.cons_append] at read ⊢
      rw [readToken.eq_def]
      simp only [unmarked, notQuote, notMinus, digit, if_true, if_false]
      rw [read]
      simp only [Option.some.injEq, Prod.mk.injEq, and_true, Token.integer.injEq]
      simp only [Bool.false_eq_true, if_false]
      omega

/-! ## Other tokens -/

/-- Whether a token keeps its value when it is written. -/
def Token.isExact : Token → Bool
  | fractional | string none => false
  | _ => true

/-- Whether a part is an integer. -/
def Piece.isInteger : Piece → Bool
  | token (.integer _) => true
  | _ => false

theorem words_eq : words = [([0x6E, 0x75, 0x6C, 0x6C], .null),
    ([0x74, 0x72, 0x75, 0x65], .boolean true),
    ([0x66, 0x61, 0x6C, 0x73, 0x65], .boolean false)] := by
  decide

/-- A token that is no number is read whatever follows it. -/
theorem readToken_render {t : Token} (exact : t.isExact = true)
    (noInteger : (Piece.token t).isInteger = false) (rest : Bytes) :
    readToken (encodeChars t.render ++ rest) = some (t, rest) := by
  cases t with
  | integer n => cases noInteger
  | fractional => cases exact
  | string text =>
    cases text with
    | none => cases exact
    | some text => exact readToken_quoted text rest
  | boolean b =>
    cases b <;> simp [Token.render, encodeChars, encodeChar, readToken, mark?, quote, isDigit,
      words_eq, List.isPrefixOf?]
  | _ => simp [Token.render, encodeChars, encodeChar, readToken, mark?, quote, isDigit, words_eq,
      List.isPrefixOf?]

end Succession.Json
