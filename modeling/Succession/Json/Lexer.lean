import Succession.Json.Value

/-!
# Cutting a JSON text into tokens

Only the four JSON white space bytes may stand between tokens. Words, numbers and strings have
the strict JSON spellings.
-/

namespace Succession.Json

/-- Whether the byte is JSON white space. -/
def isSpace (b : UInt8) : Bool := b = 0x20 || b = 0x0A || b = 0x0D || b = 0x09

/-- The quotation mark. -/
def quote : UInt8 := 0x22

/-- The backslash, which begins an escape. -/
def backslash : UInt8 := 0x5C

/-- Whether the byte is a decimal digit. -/
def isDigit (b : UInt8) : Bool := 0x30 ≤ b && b ≤ 0x39

/-- The value of a hexadecimal digit. -/
def hexDigit? (b : UInt8) : Option Nat :=
  if 0x30 ≤ b && b ≤ 0x39 then some (b.toNat - 0x30)
  else if 0x41 ≤ b && b ≤ 0x46 then some (b.toNat - 0x37)
  else if 0x61 ≤ b && b ≤ 0x66 then some (b.toNat - 0x57)
  else none

/-- The number that four hexadecimal digits spell. -/
def hexUnit? (a b c d : UInt8) : Option Nat := do
  return (((← hexDigit? a) * 16 + (← hexDigit? b)) * 16 + (← hexDigit? c)) * 16 + (← hexDigit? d)

/-- The byte that a one-letter escape stands for. -/
def shortEscape? (b : UInt8) : Option UInt8 :=
  match Char.ofNat b.toNat with
  | '"' => some quote
  | '\\' => some backslash
  | '/' => some 0x2F
  | 'b' => some 0x08
  | 'f' => some 0x0C
  | 'n' => some 0x0A
  | 'r' => some 0x0D
  | 't' => some 0x09
  | _ => none

/-- Whether the number is the first half of a surrogate pair. -/
def isLeading (unit : Nat) : Bool := 0xD800 ≤ unit && unit < 0xDC00

/-- Whether the number is the second half of a surrogate pair. -/
def isTrailing (unit : Nat) : Bool := 0xDC00 ≤ unit && unit < 0xE000

/-- A part of a string as it is written: a byte that stands for itself or is named by a short
escape, or the code unit that a numeric escape names. -/
inductive StringPart
  | byte (b : UInt8)
  | unit (n : Nat)
deriving DecidableEq, Repr

/-- Reads a string after its opening quotation mark: its parts and what follows the closing
one. -/
def readParts : Bytes → Option (List StringPart × Bytes)
  | [] => none
  | b :: rest =>
    if b = quote then some ([], rest)
    else if b < 0x20 then none
    else if b ≠ backslash then (readParts rest).map fun (parts, after) => (.byte b :: parts, after)
    else
      match rest with
      | 0x75 :: h :: i :: j :: k :: rest' =>
        match hexUnit? h i j k with
        | none => none
        | some n => (readParts rest').map fun (parts, after) => (.unit n :: parts, after)
      | e :: rest' =>
        match shortEscape? e with
        | none => none
        | some byte => (readParts rest').map fun (parts, after) => (.byte byte :: parts, after)
      | [] => none

/-- The bytes that the parts of a string spell. Two escapes may name the halves of one character;
half a character alone spells nothing. -/
def joinParts : List StringPart → Option Bytes
  | [] => some []
  | .byte b :: rest => (joinParts rest).map (b :: ·)
  | .unit n :: rest =>
    if isLeading n then
      match rest with
      | .unit second :: rest' =>
        if isTrailing second then
          let code := 0x10000 + (n - 0xD800) * 0x400 + (second - 0xDC00)
          (joinParts rest').map (Utf8.encodeChar (Char.ofNat code) ++ ·)
        else none
      | _ => none
    else if isTrailing n then none
    else (joinParts rest).map (Utf8.encodeChar (Char.ofNat n) ++ ·)

/-- The text that the parts of a string spell. -/
def textOfParts (parts : List StringPart) : Option (List Char) :=
  ((joinParts parts).bind Utf8.decode?).map String.toList

/-- The number that decimal digits spell. -/
def digitsValue (digits : Bytes) : Nat := digits.foldl (fun n b => n * 10 + (b.toNat - 0x30)) 0

/-- What follows the exponent of a number, whether or not there is one, and whether there is. -/
def readExponent (bytes : Bytes) : Option (Bool × Bytes) :=
  match bytes with
  | e :: rest =>
    if e = 0x65 || e = 0x45 then
      let digits :=
        match rest with
        | s :: rest' => if s = 0x2B || s = 0x2D then rest' else rest
        | [] => []
      match digits.span isDigit with
      | ([], _) => none
      | (_, after) => some (true, after)
    else some (false, bytes)
  | [] => some (false, bytes)

/-- What follows the fraction and the exponent of a number, and whether there is one of them. -/
def readFraction (bytes : Bytes) : Option (Bool × Bytes) :=
  match bytes with
  | 0x2E :: rest =>
    match rest.span isDigit with
    | ([], _) => none
    | (_, after) => (readExponent after).map fun (_, after) => (true, after)
  | _ => readExponent bytes

/-- Reads a number after its sign: digits without a needless zero, then perhaps a fraction and an
exponent. -/
def readNumber (negative : Bool) (bytes : Bytes) : Option (Token × Bytes) :=
  match bytes.span isDigit with
  | ([], _) => none
  | (d :: digits, after) =>
    if d = 0x30 && !digits.isEmpty then none
    else
      (readFraction after).map fun (broken, after) =>
        let n := digitsValue (d :: digits)
        if broken || (negative && n = 0) then (.fractional, after)
        else (.integer (if negative then -(n : Int) else n), after)

/-- The tokens that are words. -/
def words : List (Bytes × Token) :=
  [(Bytes.ofString "null", .null), (Bytes.ofString "true", .boolean true),
    (Bytes.ofString "false", .boolean false)]

/-- The tokens that are one byte. -/
def mark? (b : UInt8) : Option Token :=
  match Char.ofNat b.toNat with
  | '\x7b' => some .openBrace
  | '\x7d' => some .closeBrace
  | '[' => some .openBracket
  | ']' => some .closeBracket
  | ':' => some .colon
  | ',' => some .comma
  | _ => none

/-- Reads the token that the bytes begin with. -/
def readToken (bytes : Bytes) : Option (Token × Bytes) :=
  match bytes with
  | [] => none
  | b :: rest =>
    match mark? b with
    | some token => some (token, rest)
    | none =>
      if b = quote then
        (readParts rest).map fun (parts, after) => (.string (textOfParts parts), after)
      else if b = 0x2D then readNumber true rest
      else if isDigit b then readNumber false bytes
      else
        words.findSome? fun (word, token) =>
          (word.isPrefixOf? bytes).map fun after => (token, after)

/-- The tokens of a text, at most `limit` steps of it. -/
def tokensUpTo : Nat → Bytes → Option (List Token)
  | _, [] => some []
  | 0, _ :: _ => none
  | limit + 1, b :: rest =>
    if isSpace b then tokensUpTo limit rest
    else
      match readToken (b :: rest) with
      | none => none
      | some (token, after) => (tokensUpTo limit after).map (token :: ·)

/-- The tokens of a text, if it consists of tokens and white space. -/
def tokens? (bytes : Bytes) : Option (List Token) := tokensUpTo bytes.length bytes

end Succession.Json
