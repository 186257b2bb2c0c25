import Succession.Json.Lexer

/-!
# Putting tokens together to a value

The reader keeps a stack of the arrays and objects that are open. `step` says what one token does;
reading is `step` folded over the tokens, so that a value may be nested to any depth.
-/

namespace Succession.Json

/-- An array or an object that is not closed yet, its parts the latest first. -/
inductive Frame
  | array (items : List Value)
  | object (members : List (Option (List Char) × Value)) (key : Option (List Char))
deriving Repr

/-- What may come next. -/
inductive Expectation
  | value
  /-- A value, or the end of the array that was just opened. -/
  | valueOrClose
  | key
  /-- A key, or the end of the object that was just opened. -/
  | keyOrClose
  | colon
  /-- A comma or the end of what is open. -/
  | commaOrClose
  /-- The value is complete. -/
  | nothing (result : Value)
deriving Repr

/-- How far reading has come. -/
structure ReaderState where
  expected : Expectation := .value
  open_ : List Frame := []
deriving Repr

namespace ReaderState

/-- A value is complete: it becomes part of what is open. -/
def deliver (v : Value) : List Frame → ReaderState
  | [] => ⟨.nothing v, []⟩
  | .array items :: frames => ⟨.commaOrClose, .array (v :: items) :: frames⟩
  | .object members key :: frames => ⟨.commaOrClose, .object ((key, v) :: members) none :: frames⟩

/-- The value that a token is by itself. -/
def scalar? : Token → Option Value
  | .null => some .null
  | .boolean b => some (.boolean b)
  | .integer n => some (.integer n)
  | .fractional => some .fractional
  | .string text => some (.string text)
  | _ => none

/-- A token where a value is expected. -/
def beginValue (frames : List Frame) : Token → Option ReaderState
  | .openBracket => some ⟨.valueOrClose, .array [] :: frames⟩
  | .openBrace => some ⟨.keyOrClose, .object [] none :: frames⟩
  | token => (scalar? token).map fun v => deliver v frames

/-- A token where a key is expected, after the members read so far. -/
def beginMember : List Frame → Token → Option ReaderState
  | .object members _ :: frames, .string text => some ⟨.colon, .object members text :: frames⟩
  | _, _ => none

/-- A token that closes what is open. -/
def close : List Frame → Token → Option ReaderState
  | .array items :: frames, .closeBracket => some (deliver (.array items.reverse) frames)
  | .object members _ :: frames, .closeBrace => some (deliver (.object members.reverse) frames)
  | _, _ => none

/-- A comma. -/
def next : List Frame → Option ReaderState
  | .array items :: frames => some ⟨.value, .array items :: frames⟩
  | .object members key :: frames => some ⟨.key, .object members key :: frames⟩
  | [] => none

/-- What one token does. -/
def step (s : ReaderState) (token : Token) : Option ReaderState :=
  match s.expected with
  | .value => beginValue s.open_ token
  | .valueOrClose =>
    if token = .closeBracket then close s.open_ token else beginValue s.open_ token
  | .key => beginMember s.open_ token
  | .keyOrClose => if token = .closeBrace then close s.open_ token else beginMember s.open_ token
  | .colon => if token = .colon then some ⟨.value, s.open_⟩ else none
  | .commaOrClose => if token = .comma then next s.open_ else close s.open_ token
  | .nothing _ => none

end ReaderState

/-- The value that the tokens spell. -/
def valueOfTokens? (tokens : List Token) : Option Value := do
  let s ← tokens.foldlM ReaderState.step {}
  match s.expected with
  | .nothing v => some v
  | _ => none

/-- The value that a JSON text spells. -/
def parse? (bytes : Bytes) : Option Value := do
  valueOfTokens? (← tokens? bytes)

end Succession.Json
