import Succession.Bytes

/-!
# UTF-8

Text is written as UTF-8 and read back in two ways: strictly, where one bad byte makes the whole
sequence no text, and lossily, where each maximal ill-formed part becomes one replacement
character. Both are views of `pieces`, which decodes a byte sequence part by part and never fails.
-/

namespace Succession.Utf8

/-- The lowest byte of a sequence after the first one, and how many code points it tells apart. -/
def continuation (n : Nat) : UInt8 := UInt8.ofNat (0x80 + n % 0x40)

/-- The bytes of one character: one to four, by the size of its code point. -/
def encodeChar (c : Char) : Bytes :=
  let n := c.toNat
  if n < 0x80 then [UInt8.ofNat n]
  else if n < 0x800 then [UInt8.ofNat (0xC0 + n / 0x40), continuation n]
  else if n < 0x10000 then
    [UInt8.ofNat (0xE0 + n / 0x1000), continuation (n / 0x40), continuation n]
  else
    [UInt8.ofNat (0xF0 + n / 0x40000), continuation (n / 0x1000), continuation (n / 0x40),
      continuation n]

/-- The bytes of a text. -/
def encodeChars (text : List Char) : Bytes := text.flatMap encodeChar

/-- The bytes of a text. -/
def encode (text : String) : Bytes := encodeChars text.toList

/-- How many bytes the sequence that begins with `lead` has; zero if no sequence begins with it. -/
def sequenceLength (lead : UInt8) : Nat :=
  if lead < 0x80 then 1
  else if lead < 0xC2 then 0
  else if lead < 0xE0 then 2
  else if lead < 0xF0 then 3
  else if lead < 0xF5 then 4
  else 0

/-- Whether `b` is a byte that only continues a sequence. -/
def isContinuation (b : UInt8) : Bool := 0x80 ≤ b && b < 0xC0

/-- Whether `b` may stand second after `lead`. The narrower ranges keep out overlong forms,
surrogates and code points beyond the last one. -/
def follows (lead b : UInt8) : Bool :=
  if lead = 0xE0 then 0xA0 ≤ b && b < 0xC0
  else if lead = 0xED then 0x80 ≤ b && b < 0xA0
  else if lead = 0xF0 then 0x90 ≤ b && b < 0xC0
  else if lead = 0xF4 then 0x80 ≤ b && b < 0x90
  else isContinuation b

/-- The payload of a continuation byte. -/
def payload (b : UInt8) : Nat := b.toNat % 0x40

/-- The bytes decoded part by part: a well-formed sequence gives its character, and each longest
start of a sequence that breaks off (or a byte that starts none) gives `none`. -/
def pieces : Bytes → List (Option Char)
  | [] => []
  | a :: rest =>
    match sequenceLength a with
    | 1 => some (Char.ofNat a.toNat) :: pieces rest
    | 2 =>
      match rest with
      | b :: rest' =>
        if follows a b then some (Char.ofNat (a.toNat % 0x20 * 0x40 + payload b)) :: pieces rest'
        else none :: pieces (b :: rest')
      | [] => [none]
    | 3 =>
      match rest with
      | b :: c :: rest' =>
        if follows a b then
          if isContinuation c then
            some (Char.ofNat (a.toNat % 0x10 * 0x1000 + payload b * 0x40 + payload c))
              :: pieces rest'
          else none :: pieces (c :: rest')
        else none :: pieces (b :: c :: rest')
      | [b] => if follows a b then [none] else none :: pieces [b]
      | [] => [none]
    | 4 =>
      match rest with
      | b :: c :: d :: rest' =>
        if follows a b then
          if isContinuation c then
            if isContinuation d then
              some (Char.ofNat (a.toNat % 8 * 0x40000 + payload b * 0x1000 + payload c * 0x40
                + payload d)) :: pieces rest'
            else none :: pieces (d :: rest')
          else none :: pieces (c :: d :: rest')
        else none :: pieces (b :: c :: d :: rest')
      | [b, c] =>
        if follows a b then
          if isContinuation c then [none] else none :: pieces [c]
        else none :: pieces [b, c]
      | [b] => if follows a b then [none] else none :: pieces [b]
      | [] => [none]
    | _ => none :: pieces rest

/-- The text that the bytes spell, if every part of them is well formed. -/
def decode? (bytes : Bytes) : Option String :=
  ((pieces bytes).mapM id).map String.ofList

/-- Whether the bytes are text. -/
def isText (bytes : Bytes) : Bool := (decode? bytes).isSome

/-- The character that stands for an ill-formed part. -/
def replacement : Char := Char.ofNat 0xFFFD

/-- The text that the bytes spell, with the replacement character for each ill-formed part. -/
def lossy (bytes : Bytes) : String :=
  String.ofList ((pieces bytes).map fun piece => piece.getD replacement)

end Succession.Utf8

namespace Succession

/-- The UTF-8 bytes of a text. -/
def Bytes.ofString (text : String) : Bytes := Utf8.encode text

end Succession
