/-!
# Byte strings

Arguments, paths, environment values, file contents and everything that goes over a socket are
sequences of bytes that need not be text. This module holds the few operations on them that are
not in the standard library.
-/

namespace Succession

/-- A sequence of bytes with no assumption that it is text. -/
abbrev Bytes := List UInt8

namespace Bytes

/-- The line feed. -/
def newline : UInt8 := 10

/-- The byte zero, which the system's strings cannot hold. -/
def nul : UInt8 := 0

/-- The pieces between the occurrences of `separator`; there is always at least one
(`split_ne_nil`). -/
def split (separator : UInt8) : Bytes → List Bytes
  | [] => [[]]
  | b :: rest =>
    if b = separator then [] :: split separator rest
    else
      match split separator rest with
      | [] => [[b]]
      | piece :: pieces => (b :: piece) :: pieces

/-- The pieces with `separator` between each two. -/
def intercalate (separator : UInt8) : List Bytes → Bytes
  | [] => []
  | [piece] => piece
  | piece :: pieces => piece ++ separator :: intercalate separator pieces

/-- The bytes before and after the first occurrence of `separator`. -/
def cut? (separator : UInt8) : Bytes → Option (Bytes × Bytes)
  | [] => none
  | b :: rest =>
    if b = separator then some ([], rest)
    else (cut? separator rest).map fun (before, after) => (b :: before, after)

/-- Whether `start` is what `bytes` begins with. -/
def startsWith (bytes start : Bytes) : Bool :=
  start.isPrefixOf bytes

/-- Whether `a` comes no later than `b` in the order by the first byte that differs. -/
def le : Bytes → Bytes → Bool
  | [], _ => true
  | _ :: _, [] => false
  | x :: xs, y :: ys => if x = y then le xs ys else x < y

theorem split_ne_nil (separator : UInt8) (bytes : Bytes) : split separator bytes ≠ [] := by
  cases bytes with
  | nil => simp [split]
  | cons b rest =>
    simp only [split]
    split
    · simp
    · split <;> simp

end Bytes

end Succession
