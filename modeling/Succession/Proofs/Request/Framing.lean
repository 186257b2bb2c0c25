import Succession.WindowManager.Service

/-!
# Lines of a stream

What a stream says does not depend on how it is cut into chunks: the lines of two pieces are those
of the first, and then those of its rest with the second (`texts_append`). So reading from a client
brings the lines of what was read behind its partial line, in whichever pieces its bytes come
(`Intake.Reads.took`). This holds also where a line is too long: a chunk is shorter than the longest
rest that is kept, so no line is complete in the chunk that makes the rest too long.
-/

namespace Succession

namespace PartialLine

/-- The complete lines of a stream. -/
def linesOf (bytes : Bytes) : List Bytes := (extract bytes).1

/-- What stands behind the last complete line. -/
def restOf (bytes : Bytes) : Bytes := (extract bytes).2

/-- The complete lines of a stream as text. -/
def texts (bytes : Bytes) : List String := (linesOf bytes).map Utf8.lossy

/-! ## 1. Cutting a stream -/

theorem linesOf_newline (bytes : Bytes) :
    linesOf (Bytes.newline :: bytes) = [] :: linesOf bytes := by
  simp [linesOf, extract]

theorem restOf_newline (bytes : Bytes) : restOf (Bytes.newline :: bytes) = restOf bytes := by
  simp [restOf, extract]

theorem extract_cons_of_nil {b : UInt8} {bytes : Bytes} (inside : b ≠ Bytes.newline)
    (none : linesOf bytes = []) :
    linesOf (b :: bytes) = [] ∧ restOf (b :: bytes) = b :: restOf bytes := by
  unfold linesOf at none
  simp [linesOf, restOf, extract, inside, none]

theorem extract_cons_of_cons {b : UInt8} {bytes line : Bytes} {others : List Bytes}
    (inside : b ≠ Bytes.newline) (some : linesOf bytes = line :: others) :
    linesOf (b :: bytes) = (b :: line) :: others ∧ restOf (b :: bytes) = restOf bytes := by
  unfold linesOf at some
  simp [linesOf, restOf, extract, inside, some]

theorem extract_append (front back : Bytes) :
    linesOf (front ++ back) = linesOf front ++ linesOf (restOf front ++ back) ∧
      restOf (front ++ back) = restOf (restOf front ++ back) := by
  induction front with
  | nil => exact ⟨rfl, rfl⟩
  | cons b front ih =>
    obtain ⟨lines, rest⟩ := ih
    rw [List.cons_append]
    by_cases ends : b = Bytes.newline
    · subst ends
      rw [linesOf_newline, linesOf_newline, restOf_newline, restOf_newline, lines]
      exact ⟨rfl, rest⟩
    · cases first : linesOf front with
      | cons line others =>
        rw [first] at lines
        obtain ⟨here, onward⟩ := extract_cons_of_cons ends first
        obtain ⟨here', onward'⟩ := extract_cons_of_cons ends lines
        rw [here, onward, here', onward']
        exact ⟨rfl, rest⟩
      | nil =>
        rw [first, List.nil_append] at lines
        obtain ⟨here, onward⟩ := extract_cons_of_nil ends first
        rw [here, onward, List.nil_append, List.cons_append]
        cases later : linesOf (restOf front ++ back) with
        | nil =>
          rw [later] at lines
          rw [(extract_cons_of_nil ends lines).1, (extract_cons_of_nil ends lines).2,
            (extract_cons_of_nil ends later).1, (extract_cons_of_nil ends later).2, rest]
          exact ⟨rfl, rfl⟩
        | cons line others =>
          rw [later] at lines
          rw [(extract_cons_of_cons ends lines).1, (extract_cons_of_cons ends lines).2,
            (extract_cons_of_cons ends later).1, (extract_cons_of_cons ends later).2]
          exact ⟨rfl, rest⟩

/-- The lines of two pieces of a stream. -/
theorem texts_append (front back : Bytes) :
    texts (front ++ back) = texts front ++ texts (restOf front ++ back) := by
  rw [texts, (extract_append front back).1, List.map_append]
  rfl

theorem restOf_append (front back : Bytes) :
    restOf (front ++ back) = restOf (restOf front ++ back) := (extract_append front back).2

theorem newline_notMem_restOf (bytes : Bytes) : Bytes.newline ∉ restOf bytes :=
  extract_pending bytes

/-- A stream without a line feed has no complete line. -/
theorem extract_of_notMem {bytes : Bytes} (open' : Bytes.newline ∉ bytes) :
    linesOf bytes = [] ∧ restOf bytes = bytes := by
  induction bytes with
  | nil => exact ⟨rfl, rfl⟩
  | cons b bytes ih =>
    have differs := List.ne_of_not_mem_cons open'
    obtain ⟨lines, rest⟩ := ih (List.not_mem_of_not_mem_cons open')
    obtain ⟨here, onward⟩ := extract_cons_of_nil (Ne.symm differs) lines
    exact ⟨here, by rw [onward, rest]⟩

theorem texts_of_notMem {bytes : Bytes} (open' : Bytes.newline ∉ bytes) : texts bytes = [] := by
  rw [texts, (extract_of_notMem open').1]
  rfl

/-- A line feed ends a line. -/
theorem extract_line {line : Bytes} (open' : Bytes.newline ∉ line) (bytes : Bytes) :
    linesOf (line ++ Bytes.newline :: bytes) = line :: linesOf bytes ∧
      restOf (line ++ Bytes.newline :: bytes) = restOf bytes := by
  induction line with
  | nil => exact ⟨linesOf_newline bytes, restOf_newline bytes⟩
  | cons b line ih =>
    have differs := List.ne_of_not_mem_cons open'
    obtain ⟨lines, rest⟩ := ih (List.not_mem_of_not_mem_cons open')
    obtain ⟨here, onward⟩ := extract_cons_of_cons (Ne.symm differs) lines
    exact ⟨here, onward.trans rest⟩

theorem eq_line_of_linesOf {bytes line : Bytes} {others : List Bytes}
    (lines : linesOf bytes = line :: others) :
    ∃ more, bytes = line ++ Bytes.newline :: more ∧ Bytes.newline ∉ line ∧
      linesOf more = others := by
  induction bytes generalizing line with
  | nil => cases lines
  | cons b bytes ih =>
    by_cases ends : b = Bytes.newline
    · subst ends
      rw [linesOf_newline] at lines
      cases lines
      exact ⟨bytes, rfl, List.not_mem_nil, rfl⟩
    · cases first : linesOf bytes with
      | nil =>
        rw [(extract_cons_of_nil ends first).1] at lines
        cases lines
      | cons line' others' =>
        rw [(extract_cons_of_cons ends first).1] at lines
        cases lines
        obtain ⟨more, same, open', later⟩ := ih first
        refine ⟨more, by rw [same]; rfl, fun member => ?_, later⟩
        exact (List.mem_cons.mp member).elim (fun e => ends e.symm) open'

theorem notMem_of_linesOf {bytes : Bytes} (none : linesOf bytes = []) :
    Bytes.newline ∉ bytes := by
  intro member
  obtain ⟨front, back, rfl⟩ := List.append_of_mem member
  rw [(extract_append _ _).1, (extract_line (newline_notMem_restOf front) back).1] at none
  exact absurd none (List.append_ne_nil_of_right_ne_nil _ (List.cons_ne_nil _ _))

/-- A stream is cut behind any of its complete lines. -/
theorem cut_of_linesOf {taken behind : List Bytes} {bytes : Bytes}
    (lines : linesOf bytes = taken ++ behind) :
    ∃ used dropped, bytes = used ++ dropped ∧ linesOf used = taken ∧ restOf used = [] ∧
      linesOf dropped = behind := by
  induction taken generalizing bytes with
  | nil => exact ⟨[], bytes, rfl, rfl, rfl, lines⟩
  | cons line taken ih =>
    obtain ⟨more, rfl, open', later⟩ := eq_line_of_linesOf lines
    obtain ⟨used, dropped, rfl, first, ended, last⟩ := ih later
    obtain ⟨here, onward⟩ := extract_line open' used
    refine ⟨line ++ Bytes.newline :: used, dropped, ?_, by rw [here, first],
      by rw [onward, ended], last⟩
    rw [List.append_assoc, List.cons_append]

/-! ## 2. Reading from a client -/

theorem length_restOf_le (bytes : Bytes) : (restOf bytes).length ≤ bytes.length := by
  induction bytes with
  | nil => exact Nat.le_refl _
  | cons b bytes ih =>
    by_cases ends : b = Bytes.newline
    · rw [ends, restOf_newline]
      exact Nat.le_succ_of_le ih
    · cases first : linesOf bytes with
      | nil =>
        rw [(extract_cons_of_nil ends first).2]
        exact Nat.succ_le_succ ih
      | cons line others =>
        rw [(extract_cons_of_cons ends first).2]
        exact Nat.le_succ_of_le ih

/-- Where a chunk completes a line, the rest lies within the chunk. -/
theorem length_restOf_append_le (front : Bytes) {chunk : Bytes} (ends : Bytes.newline ∈ chunk) :
    (restOf (front ++ chunk)).length ≤ chunk.length := by
  obtain ⟨before, after, rfl⟩ := List.append_of_mem ends
  rw [← List.append_assoc, restOf_append,
    (extract_line (newline_notMem_restOf (front ++ before)) after).2, List.length_append,
    List.length_cons]
  have := length_restOf_le after
  omega

/-- Taking a chunk in brings the lines that it completes, and the rest is kept. -/
theorem push_of_fits {buffer : PartialLine} {chunk : Bytes}
    (fits : (restOf (buffer.pending ++ chunk)).length ≤ maxLine) :
    buffer.push chunk =
      (some (texts (buffer.pending ++ chunk)), ⟨restOf (buffer.pending ++ chunk)⟩) := by
  simp only [push, if_neg (show ¬maxLine < (extract _).2.length from Nat.not_lt.mpr fits)]
  rfl

/-- A rest that is too long is given up. -/
theorem push_of_overlong {buffer : PartialLine} {chunk : Bytes}
    (long : maxLine < (restOf (buffer.pending ++ chunk)).length) :
    buffer.push chunk = (none, ⟨[]⟩) := by
  simp only [push, if_pos (show maxLine < (extract _).2.length from long)]

/-- Taking a chunk in brings the lines that it completes. If the rest is too long then, it has
completed none. -/
theorem push_spec {buffer : PartialLine} (framed : Bytes.newline ∉ buffer.pending) {chunk : Bytes}
    (short : chunk.length ≤ maxLine) :
    ((restOf (buffer.pending ++ chunk)).length ≤ maxLine ∧ buffer.push chunk =
        (some (texts (buffer.pending ++ chunk)), ⟨restOf (buffer.pending ++ chunk)⟩)) ∨
      maxLine < (restOf (buffer.pending ++ chunk)).length ∧ buffer.push chunk = (none, ⟨[]⟩) ∧
        texts (buffer.pending ++ chunk) = [] := by
  by_cases long : maxLine < (restOf (buffer.pending ++ chunk)).length
  · refine .inr ⟨long, push_of_overlong long, texts_of_notMem fun member => ?_⟩
    rcases List.mem_append.mp member with member | member
    · exact framed member
    · have := length_restOf_append_le buffer.pending member
      omega
  · have fits := Nat.not_lt.mp long
    exact .inl ⟨fits, push_of_fits fits⟩

end PartialLine

namespace Intake

open PartialLine

/-- Reading from a client, in whichever pieces its bytes come. A read takes some of what there is,
and between two reads more bytes may arrive or the client may end; `arrived` is what arrives. -/
inductive Reads : PartialLine → Stream → Bytes → Intake → Prop
  | drained {buffer : PartialLine} {s : Stream} : s.inbox = [] → s.ended = false →
      Reads buffer s [] ⟨[], buffer, s, .drained⟩
  | ended {buffer : PartialLine} {s : Stream} : s.inbox = [] → s.ended = true →
      Reads buffer s [] ⟨[], buffer, s, .ended⟩
  | overlong {buffer buffer' : PartialLine} {s : Stream} {chunk left : Bytes} :
      s.inbox = chunk ++ left → chunk ≠ [] → chunk.length ≤ chunkSize →
      buffer.push chunk = (none, buffer') →
      Reads buffer s [] ⟨[], buffer', { s with inbox := left }, .overlong⟩
  | chunk {buffer buffer' : PartialLine} {s : Stream} {chunk left arrived : Bytes}
      {lines : List String} {later : Intake} :
      s.inbox = chunk ++ left → chunk ≠ [] → chunk.length ≤ chunkSize →
      buffer.push chunk = (some lines, buffer') →
      Reads buffer' { s with inbox := left } arrived later →
      Reads buffer s arrived { later with lines := lines ++ later.lines }
  | arrive {buffer : PartialLine} {s : Stream} {arrived : Bytes} {intake : Intake}
      (bytes : Bytes) : Reads buffer (s.receive bytes) arrived intake →
      Reads buffer s (bytes ++ arrived) intake
  | shutDown {buffer : PartialLine} {s : Stream} {arrived : Bytes} {intake : Intake} :
      Reads buffer s.shutDownPeer arrived intake → Reads buffer s arrived intake

/-- Reading has taken `got` from a stream and nothing else from it. -/
structure Took (pending : Bytes) (s : Stream) (arrived : Bytes) (intake : Intake) (got : Bytes) :
    Prop where
  bytes : s.inbox ++ arrived = got ++ intake.stream.inbox
  lines : intake.lines = texts (pending ++ got)
  rest : intake.outcome ≠ .overlong → intake.buffer.pending = restOf (pending ++ got)
  all : intake.outcome ≠ .overlong → intake.stream.inbox = []
  output : intake.stream =
    { s with inbox := intake.stream.inbox, ended := intake.stream.ended }
  /-- It stops early if the rest is too long, and only then. -/
  long : pending.length ≤ maxLine →
    (intake.outcome = .overlong ↔ maxLine < (restOf (pending ++ got)).length)

/-- Nothing was taken. -/
theorem Took.of_idle {buffer : PartialLine} (framed : Bytes.newline ∉ buffer.pending)
    {s : Stream} (empty : s.inbox = []) {outcome : IntakeEnd} (fine : outcome ≠ .overlong) :
    Took buffer.pending s [] ⟨[], buffer, s, outcome⟩ [] := by
  obtain ⟨lines, rest⟩ := extract_of_notMem framed
  refine ⟨List.append_nil _, ?_, fun _ => ?_, fun _ => empty, rfl,
    fun short => iff_of_false fine ?_⟩
  · rw [List.append_nil, texts_of_notMem framed]
  · rw [List.append_nil, rest]
  · rw [List.append_nil, rest]
    exact Nat.not_lt.mpr short

/-- Reading from a client takes bytes from the front of its stream and brings the lines that they
complete, in whichever pieces they come. -/
theorem Reads.took {buffer : PartialLine} {s : Stream} {arrived : Bytes} {intake : Intake}
    (framed : Bytes.newline ∉ buffer.pending) (reads : Reads buffer s arrived intake) :
    ∃ got, Took buffer.pending s arrived intake got := by
  induction reads with
  | drained empty | ended empty => exact ⟨[], .of_idle framed empty nofun⟩
  | @overlong buffer buffer' s chunk left whole some short pushed =>
    rcases push_spec framed (Nat.le_trans short (by decide)) with ⟨_, fine⟩ | ⟨long, _, none⟩
    · cases pushed.symm.trans fine
    · refine ⟨chunk, ?_, none.symm, (absurd rfl ·), (absurd rfl ·), rfl,
        fun _ => iff_of_true rfl long⟩
      rw [List.append_nil]
      exact whole
  | @chunk buffer buffer' s chunk left arrived lines later whole some short pushed _ ih =>
    rcases push_spec framed (Nat.le_trans short (by decide)) with ⟨fits, fine⟩ | ⟨_, long, _⟩
    · cases pushed.symm.trans fine
      obtain ⟨got, took⟩ := ih (newline_notMem_restOf _)
      have joined : buffer.pending ++ (chunk ++ got) = buffer.pending ++ chunk ++ got :=
        (List.append_assoc _ _ _).symm
      refine ⟨chunk ++ got, ?_, ?_, fun outcome => ?_, took.all, took.output, fun _ => ?_⟩
      · rw [whole, List.append_assoc, List.append_assoc]
        exact congrArg (chunk ++ ·) took.bytes
      · rw [joined, texts_append (buffer.pending ++ chunk)]
        exact congrArg (texts (buffer.pending ++ chunk) ++ ·) took.lines
      · rw [joined, restOf_append (buffer.pending ++ chunk)]
        exact took.rest outcome
      · rw [joined, restOf_append (buffer.pending ++ chunk)]
        exact took.long fits
    · cases pushed.symm.trans long
  | arrive bytes _ ih =>
    obtain ⟨got, took⟩ := ih framed
    refine ⟨got, ?_, took.lines, took.rest, took.all, took.output, took.long⟩
    rw [← List.append_assoc]
    exact took.bytes
  | shutDown _ ih =>
    obtain ⟨got, took⟩ := ih framed
    exact ⟨got, took.bytes, took.lines, took.rest, took.all, took.output, took.long⟩

/-- Where a line that is too long stands behind `front`, the lines of `front` are read and nothing
of what follows counts. -/
theorem Took.overlong {pending front line got : Bytes} {s : Stream} {intake : Intake}
    (took : Took pending s [] intake got) (kept : pending.length ≤ maxLine)
    (cut : pending ++ s.inbox = front ++ line) (ended : restOf front = [])
    (short : front.length ≤ maxLine) (open' : Bytes.newline ∉ line)
    (long : maxLine < line.length) : intake.outcome = .overlong ∧ intake.lines = texts front := by
  have whole : pending ++ got ++ intake.stream.inbox = front ++ line := by
    rw [List.append_assoc, ← took.bytes, List.append_nil, cut]
  have outcome : intake.outcome = .overlong := by
    refine Decidable.byContradiction fun fine => ?_
    rw [took.all fine, List.append_nil] at whole
    refine fine ((took.long kept).mpr ?_)
    rw [whole, restOf_append, ended, List.nil_append, (extract_of_notMem open').2]
    exact long
  refine ⟨outcome, ?_⟩
  have longer := (took.long kept).mp outcome
  rcases List.append_eq_append_iff.mp whole with ⟨behind, within, _⟩ | ⟨more, beyond, inside⟩
  · -- What was read does not reach the line, so its rest is too short.
    have := length_restOf_le (pending ++ got)
    have := congrArg List.length within
    rw [List.length_append] at this
    omega
  · have open'' : Bytes.newline ∉ more := fun member =>
      open' (inside ▸ List.mem_append_left _ member)
    rw [took.lines, beyond, texts_append, ended, List.nil_append, texts_of_notMem open'',
      List.append_nil]

/-- Each read takes as much as it can, and nothing arrives meanwhile. -/
theorem reads_readUpTo {limit : Nat} {buffer : PartialLine} {s : Stream}
    (enough : s.inbox.length < limit) : Reads buffer s [] (readUpTo limit buffer s) := by
  induction limit generalizing buffer s with
  | zero => cases enough
  | succ limit ih =>
    rw [readUpTo, Stream.read]
    by_cases empty : s.inbox = []
    · rw [if_pos empty]
      cases ended : s.ended with
      | true => exact .ended empty ended
      | false => exact .drained empty ended
    · rw [if_neg empty]
      simp only
      have whole : s.inbox = s.inbox.take chunkSize ++ s.inbox.drop chunkSize :=
        (List.take_append_drop _ _).symm
      have some : s.inbox.take chunkSize ≠ [] := by
        rw [ne_eq, List.take_eq_nil_iff]
        exact fun nothing => nothing.elim nofun empty
      have fewer : (s.inbox.drop chunkSize).length < limit := by
        have := List.length_pos_iff.mpr empty
        rw [List.length_drop, chunkSize]
        omega
      cases pushed : buffer.push (s.inbox.take chunkSize) with
      | mk lines buffer' =>
        cases lines with
        | none => exact .overlong whole some (List.length_take_le _ _) pushed
        | some lines => exact .chunk whole some (List.length_take_le _ _) pushed (ih fewer)

/-- How the program reads is one of the ways. -/
theorem reads_read (buffer : PartialLine) (s : Stream) : Reads buffer s [] (read buffer s) :=
  reads_readUpTo (Nat.lt_succ_self _)

/-- Reading from a client takes bytes from the front of its stream and brings the lines that they
complete. -/
theorem read_spec {buffer : PartialLine} (framed : Bytes.newline ∉ buffer.pending) (s : Stream) :
    ∃ got, s.inbox = got ++ (read buffer s).stream.inbox ∧
      (read buffer s).lines = texts (buffer.pending ++ got) ∧
      ((read buffer s).outcome = .drained →
        (read buffer s).buffer.pending = restOf (buffer.pending ++ got)) := by
  obtain ⟨got, took⟩ := (reads_read buffer s).took framed
  refine ⟨got, ?_, took.lines, fun drained => took.rest (drained ▸ nofun)⟩
  rw [← took.bytes, List.append_nil]

end Intake

end Succession
