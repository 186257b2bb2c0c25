import Mathlib.Data.List.Induction
import Succession.Proofs.Request.Replies

/-!
# Streams in chunks

A stream is its lines, each ended by a line feed, and an open rest (`Lined`). A buffer takes it in
by chunks, which need not end where the lines do.

1. A stream is cut into lines in one way only (`Lined.eq_extract`).
2. Pushing chunks fails at the first end of a chunk that has more than the limit behind the last line
   feed. Before that, the lines of the stream come out (`outcome_cases`).
3. So as long as no push fails, the lines that come out are those of the whole stream, however it was
   divided (`lines_come_whole`).
-/

namespace Succession.PartialLine

/-! ## 1. The lines of a stream -/

/-- Lines as they stand in a stream, each with its line feed. -/
def written (lines : List Bytes) : Bytes := lines.flatMap (· ++ [Bytes.newline])

/-- A stream is some lines, each ended by a line feed, and what stands behind the last of them. -/
structure Lined (bytes : Bytes) (lines : List Bytes) (rest : Bytes) : Prop where
  whole : bytes = written lines ++ rest
  closed : ∀ line ∈ lines, Bytes.newline ∉ line
  open' : Bytes.newline ∉ rest

theorem written_append (front back : List Bytes) :
    written (front ++ back) = written front ++ written back := List.flatMap_append

theorem written_cons_append (line : Bytes) (others : List Bytes) (bytes : Bytes) :
    written (line :: others) ++ bytes = line ++ Bytes.newline :: (written others ++ bytes) := by
  simp only [written, List.flatMap_cons, List.append_assoc, List.cons_append, List.nil_append]

/-- Lines with their line feeds are cut up again, and what follows them is cut as it is alone. -/
theorem extract_lines_append {lines : List Bytes} (closed : ∀ line ∈ lines, Bytes.newline ∉ line)
    (bytes : Bytes) :
    linesOf (written lines ++ bytes) = lines ++ linesOf bytes ∧
      restOf (written lines ++ bytes) = restOf bytes := by
  induction lines with
  | nil => exact ⟨rfl, rfl⟩
  | cons line others ih =>
    obtain ⟨first, later⟩ := List.forall_mem_cons.mp closed
    obtain ⟨lines, rest⟩ := ih later
    rw [written_cons_append, (extract_line first _).1, (extract_line first _).2, lines, rest]
    exact ⟨rfl, rfl⟩

/-- There is only one way to see a stream as lines. -/
theorem Lined.eq_extract {bytes rest : Bytes} {lines : List Bytes} (lined : Lined bytes lines rest) :
    lines = linesOf bytes ∧ rest = restOf bytes := by
  obtain ⟨rfl, closed, open'⟩ := lined
  obtain ⟨others, behind⟩ := extract_lines_append closed rest
  obtain ⟨none, all⟩ := extract_of_notMem open'
  rw [others, behind, none, all, List.append_nil]
  exact ⟨rfl, rfl⟩

theorem written_linesOf_append_restOf (bytes : Bytes) :
    written (linesOf bytes) ++ restOf bytes = bytes := by
  induction bytes with
  | nil => rfl
  | cons b bytes ih =>
    by_cases ends : b = Bytes.newline
    · rw [ends, linesOf_newline, restOf_newline, written_cons_append, ih, List.nil_append]
    · cases first : linesOf bytes with
      | nil =>
        obtain ⟨lines, rest⟩ := extract_cons_of_nil ends first
        rw [first] at ih
        rw [lines, rest]
        exact congrArg (b :: ·) ih
      | cons line others =>
        obtain ⟨lines, rest⟩ := extract_cons_of_cons ends first
        rw [first, written_cons_append] at ih
        rw [lines, rest, written_cons_append, List.cons_append, ih]

theorem lined_extract (bytes : Bytes) : Lined bytes (linesOf bytes) (restOf bytes) :=
  ⟨(written_linesOf_append_restOf bytes).symm, fun _ => newline_notMem_of_linesOf,
    newline_notMem_restOf bytes⟩

theorem length_lt_of_mem_linesOf {bytes line : Bytes} (member : line ∈ linesOf bytes) :
    line.length < bytes.length := by
  obtain ⟨before, behind, split⟩ := List.append_of_mem member
  obtain ⟨used, dropped, rfl, _, _, last⟩ := cut_of_linesOf split
  obtain ⟨more, rfl, _, _⟩ := eq_line_of_linesOf last
  simp only [List.length_append, List.length_cons]
  omega

/-- What is open at some place of a stream is part of a line or of the rest of the whole. -/
theorem exists_longer_line (front back : Bytes) :
    ∃ line, (line ∈ linesOf (front ++ back) ∨ line = restOf (front ++ back)) ∧
      (restOf front).length ≤ line.length := by
  rw [(extract_append front back).1, restOf_append]
  cases later : linesOf (restOf front ++ back) with
  | nil =>
    refine ⟨_, .inr rfl, ?_⟩
    rw [(extract_of_notMem (notMem_of_linesOf later)).2, List.length_append]
    omega
  | cons line others =>
    refine ⟨line, .inl (List.mem_append_right _ List.mem_cons_self), ?_⟩
    obtain ⟨more, same, _, _⟩ := eq_line_of_linesOf later
    rcases List.append_eq_append_iff.mp same with ⟨inside, rfl, _⟩ | ⟨beyond, rest, ends⟩
    · rw [List.length_append]
      omega
    · -- The rest would reach to the line feed.
      cases beyond with
      | nil =>
        exact Nat.le_of_eq (by rw [rest, List.append_nil])
      | cons b beyond =>
        cases ends
        exact absurd (rest ▸ List.mem_append_right _ List.mem_cons_self)
          (newline_notMem_restOf front)

/-! ## 2. Taking in a stream -/

/-- Takes chunks in, one after another: what each push brings, and the buffer afterwards. -/
def pushAll (buffer : PartialLine) : List Bytes → List (Option (List String)) × PartialLine
  | [] => ([], buffer)
  | chunk :: rest =>
    let later := (buffer.push chunk).2.pushAll rest
    ((buffer.push chunk).1 :: later.1, later.2)

/-- The lines that come out before the first push that fails. -/
def delivered (results : List (Option (List String))) : List String :=
  (results.takeWhile Option.isSome).flatMap (·.getD [])

theorem pushAll_append (buffer : PartialLine) (front back : List Bytes) :
    (buffer.pushAll (front ++ back)).1 =
      (buffer.pushAll front).1 ++ ((buffer.pushAll front).2.pushAll back).1 := by
  induction front generalizing buffer with
  | nil => rfl
  | cons chunk rest ih =>
    rw [List.cons_append, pushAll, pushAll, ih]
    rfl

theorem delivered_map_some (lists : List (List String)) :
    delivered (lists.map some) = lists.flatten := by
  induction lists with
  | nil => rfl
  | cons lines rest ih => exact congrArg (lines ++ ·) ih

theorem delivered_append_none (lists : List (List String)) (later : List (Option (List String))) :
    delivered (lists.map some ++ none :: later) = lists.flatten := by
  induction lists with
  | nil => rfl
  | cons lines rest ih => exact congrArg (lines ++ ·) ih

/-- At no end of a chunk more than the limit stands behind the last line feed. -/
def Fits (buffer : PartialLine) (chunks : List Bytes) : Prop :=
  ∀ front, front <+: chunks → (restOf (buffer.pending ++ front.flatten)).length ≤ maxLine

/-- Then no push fails, and the lines of the stream come out. -/
theorem pushAll_of_fits {buffer : PartialLine} {chunks : List Bytes}
    (framed : Bytes.newline ∉ buffer.pending) (fits : Fits buffer chunks) :
    ∃ lists : List (List String), (buffer.pushAll chunks).1 = lists.map some ∧
      lists.flatten = texts (buffer.pending ++ chunks.flatten) ∧
      (buffer.pushAll chunks).2.pending = restOf (buffer.pending ++ chunks.flatten) := by
  induction chunks generalizing buffer with
  | nil =>
    have all : buffer.pending ++ ([] : List Bytes).flatten = buffer.pending := List.append_nil _
    refine ⟨[], rfl, ?_, ?_⟩
    · rw [all, texts_of_notMem framed]
      rfl
    · rw [all, (extract_of_notMem framed).2]
      rfl
  | cons chunk rest ih =>
    have short : (restOf (buffer.pending ++ chunk)).length ≤ maxLine := by
      simpa using fits [chunk] (List.prefix_append [chunk] rest)
    have pushed := push_of_fits short
    have onward (more : List Bytes) : buffer.pending ++ (chunk :: more).flatten =
        buffer.pending ++ chunk ++ more.flatten := by
      rw [List.flatten_cons, List.append_assoc]
    have fits' : Fits (buffer.push chunk).2 rest := fun front early => by
      have whole := fits (chunk :: front) (List.cons_prefix_cons.mpr ⟨rfl, early⟩)
      rw [onward, restOf_append (buffer.pending ++ chunk)] at whole
      rw [pushed]
      exact whole
    rw [pushed] at fits'
    obtain ⟨lists, results, lines, left⟩ := ih (newline_notMem_restOf _) fits'
    rw [pushAll, pushed]
    refine ⟨texts (buffer.pending ++ chunk) :: lists, ?_, ?_, ?_⟩
    · rw [results]
      rfl
    · rw [List.flatten_cons, lines, onward, texts_append (buffer.pending ++ chunk)]
    · rw [onward, restOf_append (buffer.pending ++ chunk)]
      exact left

/-- Either all chunks fit, or there is a first one that does not. -/
theorem fits_or_overrun (buffer : PartialLine) (short : buffer.pending.length ≤ maxLine)
    (chunks : List Bytes) :
    Fits buffer chunks ∨ ∃ front chunk back, chunks = front ++ chunk :: back ∧ Fits buffer front ∧
      maxLine < (restOf (buffer.pending ++ (front ++ [chunk]).flatten)).length := by
  induction chunks using List.reverseRecOn with
  | nil =>
    refine .inl fun front early => ?_
    rw [List.prefix_nil.mp early, List.flatten_nil, List.append_nil]
    exact Nat.le_trans (length_restOf_le _) short
  | append_singleton front chunk ih =>
    rcases ih with fits | ⟨before, first, between, rfl, fits, long⟩
    · by_cases long : maxLine < (restOf (buffer.pending ++ (front ++ [chunk]).flatten)).length
      · exact .inr ⟨front, chunk, [], rfl, fits, long⟩
      · refine .inl fun some early => ?_
        rcases List.prefix_concat_iff.mp early with rfl | early
        · exact Nat.not_lt.mp long
        · exact fits some early
    · refine .inr ⟨before, first, between ++ [chunk], ?_, fits, long⟩
      rw [List.append_assoc, List.cons_append]

/-- The first chunk that does not fit is refused, and before it come the lines that were complete
where it begins. -/
theorem pushAll_of_overrun {front : List Bytes} {chunk : Bytes} (fits : Fits {} front)
    (long : maxLine < (restOf (front ++ [chunk]).flatten).length) (back : List Bytes) :
    none ∈ (({} : PartialLine).pushAll (front ++ chunk :: back)).1 ∧
      delivered (({} : PartialLine).pushAll (front ++ chunk :: back)).1 = texts front.flatten := by
  obtain ⟨lists, results, lines, left⟩ := pushAll_of_fits List.not_mem_nil fits
  have refused : (({} : PartialLine).pushAll front).2.push chunk = (none, ⟨[]⟩) := by
    refine push_of_overlong ?_
    rw [left]
    rw [List.flatten_append, List.flatten_singleton, restOf_append] at long
    exact long
  rw [pushAll_append, results, pushAll, refused, delivered_append_none]
  exact ⟨List.mem_append_right _ List.mem_cons_self, lines⟩

/-- What a division of a stream brings. -/
theorem outcome_cases (chunks : List Bytes) :
    let results := (({} : PartialLine).pushAll chunks).1
    (Fits {} chunks ∧ none ∉ results ∧ delivered results = texts chunks.flatten) ∨
    ∃ front chunk back, chunks = front ++ chunk :: back ∧ Fits {} front ∧
      maxLine < (restOf (front ++ [chunk]).flatten).length ∧
      none ∈ results ∧ delivered results = texts front.flatten := by
  intro results
  rcases fits_or_overrun {} (Nat.zero_le _) chunks with fits | ⟨front, chunk, back, rfl, fits, long⟩
  · obtain ⟨lists, all, lines, _⟩ := pushAll_of_fits List.not_mem_nil fits
    have same : results = lists.map some := all
    refine .inl ⟨fits, ?_, ?_⟩
    · rw [same]
      simp
    · rw [same, delivered_map_some]
      exact lines
  · exact .inr ⟨front, chunk, back, rfl, fits, long, pushAll_of_overrun fits long back⟩

/-! ## 3. Lines of the whole stream -/

/-- What a push keeps is open and no longer than the limit, and nothing if it fails. -/
theorem push_keeps (buffer : PartialLine) (chunk : Bytes) :
    Bytes.newline ∉ (buffer.push chunk).2.pending ∧
      (buffer.push chunk).2.pending.length ≤ maxLine ∧
      ((buffer.push chunk).1 = none → (buffer.push chunk).2.pending = []) := by
  refine ⟨?_, push_pending_length buffer chunk, ?_⟩
  all_goals by_cases long : maxLine < (restOf (buffer.pending ++ chunk)).length
  · rw [push_of_overlong long]
    exact List.not_mem_nil
  · rw [push_of_fits (Nat.not_lt.mp long)]
    exact newline_notMem_restOf _
  · rw [push_of_overlong long]
    exact fun _ => rfl
  · rw [push_of_fits (Nat.not_lt.mp long)]
    exact nofun

/-- **Lines come out whole, however the stream is divided.** Chunks are pushed into a fresh buffer,
one after another. If no push fails, all that comes out, put together, are the lines of the stream:
what stands between its line feeds, each line read as one text, and so a text that was written as a
line comes out as it was, wherever its characters were cut. What is kept then is the open rest of
the stream. After every push, be it refused or not, the buffer holds no line feed and no more than
the limit, and after one that fails it holds nothing. -/
theorem lines_come_whole (chunks : List Bytes) :
    (∀ lists : List (List String), (({} : PartialLine).pushAll chunks).1 = lists.map some →
      ∃ lines, Lined chunks.flatten lines (({} : PartialLine).pushAll chunks).2.pending ∧
        lists.flatten = lines.map Utf8.lossy ∧
        ∀ spelled : List String, lines = spelled.map Utf8.encode → lists.flatten = spelled) ∧
    ∀ front chunk back, chunks = front ++ chunk :: back →
      let (brought, after) := (({} : PartialLine).pushAll front).2.push chunk
      Bytes.newline ∉ after.pending ∧ after.pending.length ≤ maxLine ∧
        (brought = none → after.pending = []) := by
  refine ⟨fun lists all => ?_, fun front chunk back _ => push_keeps _ chunk⟩
  rcases outcome_cases chunks with ⟨fits, _, _⟩ | ⟨_, _, _, _, _, _, failed, _⟩
  · obtain ⟨lists', all', lines, left⟩ := pushAll_of_fits List.not_mem_nil fits
    obtain rfl : lists = lists' :=
      (List.map_inj_right fun _ _ => Option.some.inj).mp (all.symm.trans all')
    refine ⟨linesOf chunks.flatten, ?_, lines, fun spelled written => ?_⟩
    · rw [left]
      exact lined_extract chunks.flatten
    · have decoded : lists.flatten = (spelled.map Utf8.encode).map Utf8.lossy := written ▸ lines
      rw [decoded, List.map_map]
      exact List.map_id'' Utf8.lossy_encode spelled
  · rw [all] at failed
    exact absurd failed (by simp)

/-- A character of two bytes is cut by the end of a chunk. -/
theorem lines_come_whole_of_cut_character :
    let chunks : List Bytes := [[0x70, 0xC3], [0xA9, 10, 10, 0x71]]
    (({} : PartialLine).pushAll chunks).1 = [[], ["pé", ""]].map some ∧
      ∃ lines, Lined chunks.flatten lines [0x71] ∧ ["pé", ""] = lines.map Utf8.lossy := by
  have results : (({} : PartialLine).pushAll [[0x70, 0xC3], [0xA9, 10, 10, 0x71]]).1 =
      [[], ["pé", ""]].map some := by decide +kernel
  obtain ⟨lines, lined, same, _⟩ := (lines_come_whole _).1 _ results
  exact ⟨results, lines, lined, same⟩

end Succession.PartialLine
