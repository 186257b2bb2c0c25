/-!
# Blank characters

The characters that trimming removes are those with the Unicode property White_Space: tab to
carriage return, space, next line, no-break space, and the space separators and line separators
further up.
-/

namespace Succession.Text

/-- The code point ranges of the property White_Space, both ends included. -/
def blankRanges : List (Nat × Nat) :=
  [(0x9, 0xD), (0x20, 0x20), (0x85, 0x85), (0xA0, 0xA0), (0x1680, 0x1680), (0x2000, 0x200A),
    (0x2028, 0x2029), (0x202F, 0x202F), (0x205F, 0x205F), (0x3000, 0x3000)]

/-- Whether the character is white space. -/
def isBlank (c : Char) : Bool :=
  blankRanges.any fun (low, high) => low ≤ c.toNat && c.toNat ≤ high

/-- The characters without the blank ones at the start. -/
def trimStart (text : List Char) : List Char := text.dropWhile isBlank

/-- The characters without the blank ones at the end. -/
def trimEnd (text : List Char) : List Char := (text.reverse.dropWhile isBlank).reverse

/-- The characters without the blank ones at both ends. -/
def trimChars (text : List Char) : List Char := trimEnd (trimStart text)

/-- The text without the blank characters at both ends. -/
def trim (text : String) : String := String.ofList (trimChars text.toList)

end Succession.Text
