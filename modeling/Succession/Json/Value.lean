import Succession.Bytes
import Succession.Text.Numeral
import Succession.Text.Utf8

/-!
# JSON values and tokens

State that outlives a process is kept as JSON. A text is first cut into tokens and the tokens are
then put together to a value. Numbers that are whole are exact; a number with a fraction or an
exponent is kept without its value, since no field is read from one. A string may be ill formed
(a lone surrogate, bytes that are not text); that matters only where its value is wanted.
-/

namespace Succession.Json

/-- The smallest parts of a JSON text. A string holds `none` if it spells no text. -/
inductive Token
  | openBrace
  | closeBrace
  | openBracket
  | closeBracket
  | colon
  | comma
  | null
  | boolean (b : Bool)
  | integer (n : Int)
  /-- A number that is written with a fraction or an exponent, or as minus zero. -/
  | fractional
  | string (text : Option (List Char))
deriving DecidableEq, Repr

/-- A JSON value; the members of an object keep their order and may repeat a key. -/
inductive Value
  | null
  | boolean (b : Bool)
  | integer (n : Int)
  | fractional
  | string (text : Option (List Char))
  | array (items : List Value)
  | object (members : List (Option (List Char) × Value))
deriving Repr, Inhabited

namespace Value

/-- The values of the fields of a record, in the order of `names`. A record is an object with
each name at most once and any other members, or an array of the values in order, where values at
the end may be missing. -/
def fields? (names : List String) : Value → Option (List (Option Value))
  | .array items =>
    if items.length ≤ names.length then
      some ((items.map some) ++ List.replicate (names.length - items.length) none)
    else none
  | .object members =>
    if members.all fun (key, _) => key.isSome then
      names.mapM fun name =>
        match members.filter fun (key, _) => key = some name.toList with
        | [] => some none
        | [(_, value)] => some (some value)
        | _ => none
    else none
  | _ => none

/-- The integer in a range that the value is. -/
def integer? (range : NumeralRange) : Value → Option Int
  | .integer n => if range.contains n then some n else none
  | _ => none

/-- The text that the value is. -/
def text? : Value → Option (List Char)
  | .string text => text
  | _ => none

/-- The elements of the value if it is an array. -/
def items? : Value → Option (List Value)
  | .array items => some items
  | _ => none

/-- The word that the value names: a string, or an object with it as the only key, of null. -/
def word? : Value → Option (List Char)
  | .string text => text
  | .object [(key, .null)] => key
  | _ => none

end Value

end Succession.Json
