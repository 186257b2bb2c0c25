/-!
# Decimal numerals

Numbers in settings, arguments and environment values are read as decimal numerals of a bounded
range. A reader works from left to right and reports the first thing that is wrong: no digits at
all, a character that is no digit, or a value outside the range.
-/

namespace Succession

/-- The numbers that a numeral of some kind may denote, both ends included. -/
structure NumeralRange where
  low : Int
  high : Int
deriving DecidableEq, Repr

/-- Thirty-two-bit numbers with a sign. -/
def NumeralRange.int32 : NumeralRange := ⟨-2147483648, 2147483647⟩

/-- Thirty-two-bit numbers without a sign. -/
def NumeralRange.word32 : NumeralRange := ⟨0, 4294967295⟩

/-- Sixty-four-bit numbers without a sign. -/
def NumeralRange.word64 : NumeralRange := ⟨0, 18446744073709551615⟩

/-- Whether the number is in the range. -/
def NumeralRange.contains (range : NumeralRange) (n : Int) : Bool :=
  range.low ≤ n && n ≤ range.high

/-- What can be wrong with a numeral. -/
inductive NumeralFault
  | empty
  | invalidDigit
  | tooLarge
  | tooSmall
deriving DecidableEq, Repr

/-- The wording of a numeral's fault. -/
def NumeralFault.message : NumeralFault → String
  | .empty => "cannot parse integer from empty string"
  | .invalidDigit => "invalid digit found in string"
  | .tooLarge => "number too large to fit in target type"
  | .tooSmall => "number too small to fit in target type"

namespace Numeral

/-- The value of a decimal digit. -/
def digit? (c : Char) : Option Nat :=
  if '0' ≤ c ∧ c ≤ '9' then some (c.toNat - '0'.toNat) else none

/-- Reads digits onto `value`, away from zero on the side that `negative` tells; a bad digit is
noticed before the value leaves the range. -/
def readDigits (range : NumeralRange) (negative : Bool) : Int → List Char →
    Except NumeralFault Int
  | value, [] => .ok value
  | value, c :: rest =>
    match digit? c with
    | none => .error .invalidDigit
    | some d =>
      if negative then
        let next := value * 10 - d
        if range.low ≤ next then readDigits range negative next rest else .error .tooSmall
      else
        let next := value * 10 + d
        if next ≤ range.high then readDigits range negative next rest else .error .tooLarge

/-- Reads a numeral: digits after an optional `+`, or after a `-` if the range has numbers below
zero. A sign alone is a bad digit. -/
def read (range : NumeralRange) : List Char → Except NumeralFault Int
  | [] => .error .empty
  | ['+'] => .error .invalidDigit
  | ['-'] => .error .invalidDigit
  | '+' :: digits => readDigits range false 0 digits
  | '-' :: digits =>
    if range.low < 0 then readDigits range true 0 digits else .error .invalidDigit
  | digits => readDigits range false 0 digits

/-- The number that the text denotes in the range, if it is a numeral. -/
def parse? (range : NumeralRange) (text : String) : Option Int :=
  (read range text.toList).toOption

/-- The digits of a number, the most significant first. -/
def natDigits (n : Nat) : List Char :=
  if n < 10 then [Char.ofNat (48 + n)]
  else natDigits (n / 10) ++ [Char.ofNat (48 + n % 10)]
termination_by n

/-- The decimal text of an integer, with `-` before a negative one. -/
def intDigits (n : Int) : List Char :=
  if n < 0 then '-' :: natDigits n.natAbs else natDigits n.natAbs

/-- The decimal text of an integer. -/
def render (n : Int) : String := String.ofList (intDigits n)

end Numeral

end Succession
