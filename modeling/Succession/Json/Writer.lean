import Succession.Json.Value

/-!
# Writing JSON

A text is written from tokens with white space between some of them. A string is quoted with the
short escapes where there are such, with a numeric one for every other control character, and
with all other characters as they are.
-/

namespace Succession.Json

/-- A lower-case hexadecimal digit. -/
def hexChar (n : Nat) : Char := if n < 10 then Char.ofNat (48 + n) else Char.ofNat (87 + n)

/-- How a character is written inside a string. -/
def escape (c : Char) : List Char :=
  match c with
  | '"' => ['\\', '"']
  | '\\' => ['\\', '\\']
  | '\x08' => ['\\', 'b']
  | '\x0c' => ['\\', 'f']
  | '\n' => ['\\', 'n']
  | '\r' => ['\\', 'r']
  | '\t' => ['\\', 't']
  | _ =>
    if c.toNat < 0x20 then
      ['\\', 'u', '0', '0', hexChar (c.toNat / 16), hexChar (c.toNat % 16)]
    else [c]

/-- How a text is written as a string. -/
def quoted (text : List Char) : List Char := '"' :: text.flatMap escape ++ ['"']

/-- How a token is written. A number with a fraction and a string that is no text have lost their
spelling; they stand for themselves as one and as the replacement character. -/
def Token.render : Token → List Char
  | openBrace => ['\x7b']
  | closeBrace => ['\x7d']
  | openBracket => ['[']
  | closeBracket => [']']
  | colon => [':']
  | comma => [',']
  | null => ['n', 'u', 'l', 'l']
  | boolean true => ['t', 'r', 'u', 'e']
  | boolean false => ['f', 'a', 'l', 's', 'e']
  | integer n => Numeral.intDigits n
  | fractional => ['-', '0']
  | string (some text) => quoted text
  | string none => ['"', '\\', 'u', 'd', '8', '0', '0', '"']

/-- A part of a laid-out text. -/
inductive Piece
  | token (t : Token)
  /-- A line break and a number of blanks. -/
  | line (indent : Nat)
  | blank
deriving DecidableEq, Repr

/-- How a part is written. -/
def Piece.render : Piece → List Char
  | token t => t.render
  | line indent => '\n' :: List.replicate indent ' '
  | blank => [' ']

/-- The text of some parts. -/
def render (pieces : List Piece) : List Char := pieces.flatMap Piece.render

/-- A string token of a fixed text. -/
def Token.word (text : String) : Token := .string (some text.toList)

end Succession.Json
