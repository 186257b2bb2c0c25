import Succession.Bytes
import Succession.Text.Numeral
import Succession.Text.Utf8

/-!
# Lines from a byte stream

A client's bytes arrive in chunks that need not end where its lines do. The buffer keeps what
follows the last complete line. A rest that grows past the limit is a fault, and then it is given
up together with the lines that came out of the same chunk.

Main statements: `extract_pending` (what is kept holds no line feed) and `push_pending_length`
(what is kept is never longer than the limit).
-/

namespace Succession

/-- What has been received after the last complete line. -/
structure PartialLine where
  pending : Bytes := []
deriving DecidableEq, Repr, Inhabited

namespace PartialLine

/-- The longest rest that is kept, in bytes. -/
def maxLine : Nat := 4096

/-- The complete lines of a byte sequence without their line feeds, and the rest after them. -/
def extract : Bytes → List Bytes × Bytes
  | [] => ([], [])
  | b :: bytes =>
    let (lines, rest) := extract bytes
    if b = Bytes.newline then ([] :: lines, rest)
    else
      match lines with
      | [] => ([], b :: rest)
      | line :: others => ((b :: line) :: others, rest)

/-- Takes a chunk in: the lines that are complete now, each as text, unless the rest is too long,
and the buffer afterwards. -/
def push (buffer : PartialLine) (chunk : Bytes) : Option (List String) × PartialLine :=
  let (lines, rest) := extract (buffer.pending ++ chunk)
  if maxLine < rest.length then (none, ⟨[]⟩)
  else (some (lines.map Utf8.lossy), ⟨rest⟩)

/-- The wording of the fault of an overlong rest. -/
def overlongMessage : String :=
  "request line longer than " ++ Numeral.render maxLine ++ " bytes"

theorem extract_pending (bytes : Bytes) : Bytes.newline ∉ (extract bytes).2 := by
  induction bytes with
  | nil => simp [extract]
  | cons b bytes ih =>
    simp only [extract]
    split
    · exact ih
    · next different =>
      split
      · simpa using ⟨fun e => different e.symm, ih⟩
      · exact ih

theorem push_pending_length (buffer : PartialLine) (chunk : Bytes) :
    (buffer.push chunk).2.pending.length ≤ maxLine := by
  unfold push
  simp only
  split
  · exact Nat.zero_le _
  · next fits => simpa using fits

end PartialLine

end Succession
