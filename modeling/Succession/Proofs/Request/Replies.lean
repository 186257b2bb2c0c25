import Mathlib.Algebra.GroupWithZero.Nat
import Succession.Proofs.Request.Framing
import Succession.Proofs.Text.Utf8RoundTrip

/-!
# Replies

1. A complete line holds no line feed, neither its bytes nor its text.
2. Each line has one reply (`Request.answerTo`). A reply is one line of its own: what it quotes of
   the line holds no line feed, and so it holds none (`newline_notMem_answerTo`). No line is answered
   with the complaint about one that is too long (`answerTo_ne_overlong`).
3. Lines that are written one after another stand so in what the peer gets, if there was space for
   all of them (`Stream.outbox_writeLines`), and the peer reads them back as they were
   (`texts_flatMap_lineBytes`).
-/

namespace Succession

/-! ## 1. Lines without a line feed -/

namespace Utf8

/-- The bytes of a text without a line feed hold none. -/
theorem newline_notMem_encode {text : String} (plain : '\n' ∉ text.toList) :
    Bytes.newline ∉ encode text := by
  intro member
  obtain ⟨c, within, here⟩ := List.mem_flatMap.mp member
  have small : c.toNat < 0x80 := by
    refine Nat.lt_of_not_le fun large => ?_
    exact absurd (le_of_mem_encodeChar large here) (by decide)
  rw [encodeChar_ascii small, List.mem_singleton] at here
  have code : c.toNat = 10 := by
    have same := congrArg UInt8.toNat here
    rw [toNat_ofNat_of_lt (by omega)] at same
    exact same.symm
  have same : c = '\n' := Char.toNat_inj.mp code
  exact plain (same ▸ within)

/-- A line that was read from bytes without a line feed holds none. -/
theorem newline_notMem_lossy {bytes : Bytes} (framed : Bytes.newline ∉ bytes) :
    '\n' ∉ (lossy bytes).toList := by
  intro member
  rw [lossy, String.toList_ofList] at member
  obtain ⟨piece, within, same⟩ := List.mem_map.mp member
  cases piece with
  | none => exact absurd same (by decide)
  | some c =>
    cases same
    exact framed (encodeChar_subset_of_mem_pieces within (by decide))

end Utf8

namespace PartialLine

/-- A line feed ends each complete line, so none holds one. -/
theorem newline_notMem_of_linesOf {bytes line : Bytes} (member : line ∈ linesOf bytes) :
    Bytes.newline ∉ line := by
  obtain ⟨before, behind, split⟩ := List.append_of_mem member
  obtain ⟨_, dropped, _, _, _, last⟩ := cut_of_linesOf split
  obtain ⟨_, _, open', _⟩ := eq_line_of_linesOf last
  exact open'

theorem newline_notMem_replicate (n : Nat) : Bytes.newline ∉ List.replicate n (120 : UInt8) :=
  fun member => absurd (List.eq_of_mem_replicate member) (by decide)

end PartialLine

/-! ## 2. Answers -/

namespace Request

/-- The reply to a line. That to a request to restart comes from the next image. -/
def answerTo (line : String) : String :=
  match parse line with
  | .ok .ping => Reply.pong
  | .ok .version => versionText
  | .ok .exit => Reply.exiting
  | .ok .restart => Reply.restarted
  | .error fault => fault.message

/-- A line that is no request is empty or quoted. -/
theorem fault_of_parse {line : String} {fault : RequestFault} (failed : parse line = .error fault) :
    fault = .empty ∨ fault = .unsupported (Text.trim line) := by
  unfold parse at failed
  simp only at failed
  split at failed
  · cases failed
  · split at failed
    · cases failed
      exact .inl rfl
    · cases failed
      exact .inr rfl

theorem trim_subset (line : String) : (Text.trim line).toList ⊆ line.toList := by
  unfold Text.trim Text.trimChars Text.trimEnd Text.trimStart
  intro c member
  rw [String.toList_ofList, List.mem_reverse] at member
  have inside := (List.dropWhile_suffix _).subset member
  exact (List.dropWhile_suffix _).subset (List.mem_reverse.mp inside)

/-- The reply to a complete line is one line. -/
theorem newline_notMem_answerTo {bytes : Bytes} {line : String}
    (member : line ∈ PartialLine.texts bytes) :
    Bytes.newline ∉ Utf8.encode (answerTo line) := by
  obtain ⟨spelled, within, rfl⟩ := List.mem_map.mp member
  have plain := Utf8.newline_notMem_lossy (PartialLine.newline_notMem_of_linesOf within)
  unfold answerTo
  split
  · decide +kernel
  · decide +kernel
  · decide +kernel
  · decide +kernel
  · next fault failed =>
    refine Utf8.newline_notMem_encode ?_
    rcases fault_of_parse failed with rfl | rfl
    · decide +kernel
    · -- What is quoted is a part of the line.
      unfold RequestFault.message
      rw [String.toList_append, String.toList_append, List.mem_append, List.mem_append]
      rintro ((start | quoted) | after)
      · exact absurd start (by decide +kernel)
      · exact plain (trim_subset _ quoted)
      · exact absurd after (by decide +kernel)

/-- No line is answered as one that is too long. -/
theorem answerTo_ne_overlong (line : String) : answerTo line ≠ Reply.overlong := by
  unfold answerTo
  split
  · decide +kernel
  · decide +kernel
  · decide +kernel
  · decide +kernel
  · next fault failed =>
    rcases fault_of_parse failed with rfl | rfl
    · decide +kernel
    · intro same
      have eighth := congrArg (fun text : String => text.toList[7]?) same
      unfold RequestFault.message at eighth
      simp only [String.append_assoc, String.toList_append] at eighth
      rw [List.getElem?_append_left (by decide +kernel)] at eighth
      exact absurd eighth (by decide +kernel)

end Request

/-! ## 3. What arrives -/

namespace Stream

/-- A line as it is written. -/
def lineBytes (text : String) : Bytes := Utf8.encode text ++ [Bytes.newline]

/-- Writes lines, one after another. -/
def writeLines (s : Stream) (lines : List String) : Stream := lines.foldl writeLine s

/-- The lines of which not everything was written: there was no space, or nobody who would read
them. -/
def unsent (s : Stream) : List String → List String
  | [] => []
  | line :: rest =>
    if (s.writeLine line).outbox = s.outbox ++ lineBytes line then (s.writeLine line).unsent rest
    else line :: (s.writeLine line).unsent rest

/-- If nothing was lost, the lines stand one behind another. -/
theorem outbox_writeLines {s : Stream} {lines : List String} (all : s.unsent lines = []) :
    (s.writeLines lines).outbox = s.outbox ++ lines.flatMap lineBytes := by
  induction lines generalizing s with
  | nil => exact (List.append_nil _).symm
  | cons line rest ih =>
    rw [unsent] at all
    split at all
    · next written =>
      calc (s.writeLines (line :: rest)).outbox
        _ = ((s.writeLine line).writeLines rest).outbox := rfl
        _ = (s.writeLine line).outbox ++ rest.flatMap lineBytes := ih all
        _ = s.outbox ++ (line :: rest).flatMap lineBytes := by
          rw [written, List.append_assoc, List.flatMap_cons]
    · cases all

/-- The space that a line takes. -/
def lineCharge (line : String) : Nat := charge (Utf8.encode line).length + charge 1

/-- A line is written where there is space for it. -/
theorem writeLine_of_room {s : Stream} {line : String} (heard : s.peerOpen = true)
    (room : s.load + lineCharge line ≤ capacity) :
    s.writeLine line =
      { s with outbox := s.outbox ++ lineBytes line, load := s.load + lineCharge line } := by
  unfold lineCharge at room ⊢
  have last : 0 < charge 1 := by decide
  unfold writeLine
  rw [write?, heard, if_neg (by decide), if_neg (by omega)]
  simp only [write?, Bool.not_true, Bool.false_eq_true, if_false]
  rw [if_neg (by omega)]
  simp only [Option.getD_some, lineBytes, List.append_assoc, Nat.add_assoc, List.length_singleton]

/-- Nothing is lost as long as there is space. -/
theorem unsent_of_room {s : Stream} {lines : List String} (heard : s.peerOpen = true)
    (room : s.load + (lines.map lineCharge).sum ≤ capacity) : s.unsent lines = [] := by
  induction lines generalizing s with
  | nil => rfl
  | cons line rest ih =>
    rw [List.map_cons, List.sum_cons] at room
    have written := @writeLine_of_room s line heard (by omega)
    rw [unsent, if_pos (by rw [written]), written]
    exact ih heard (by simp only; omega)

/-- The peer reads back the lines that were written. -/
theorem texts_flatMap_lineBytes {lines : List String}
    (plain : ∀ line ∈ lines, Bytes.newline ∉ Utf8.encode line) :
    PartialLine.texts (lines.flatMap lineBytes) = lines := by
  induction lines with
  | nil => rfl
  | cons line rest ih =>
    obtain ⟨first, others⟩ := List.forall_mem_cons.mp plain
    have whole : (line :: rest).flatMap lineBytes =
        Utf8.encode line ++ Bytes.newline :: rest.flatMap lineBytes := by
      rw [List.flatMap_cons, lineBytes, List.append_assoc, List.singleton_append]
    rw [whole, PartialLine.texts, (PartialLine.extract_line first _).1, List.map_cons,
      Utf8.lossy_encode]
    exact congrArg (line :: ·) (ih others)

end Stream

end Succession
