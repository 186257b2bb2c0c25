import Succession.Proofs.Request.Chunks

/-!
# The limit on lines

The limit is looked at where a chunk ends, and a chunk that is refused takes the lines that it
completed with it. So whether an overlong line is noticed, and whether all lines before it come out,
depends on where the chunks begin and end.

1. A stream that is not within the limit has a first line that is too long (`FirstOverlong`). What
   is open at some place of the stream follows from where the place is.
2. That line is noticed, when exactly the lines before it have come out, if and only if a chunk
   begins in what is allowed of it and ends with too much (`limit_is_seen_at_chunk_ends`). In chunks
   of at most `n` bytes no line of `maxLine + n` bytes gets through.
3. Two divisions of one stream may differ in what comes out and in whether a push fails
   (`divisions_differ`).
-/

namespace Succession.PartialLine

/-! ## 1. The first overlong line -/

/-- The first line of a stream that is longer than the limit, with the lines before it. It may have
its line feed or end with the stream. -/
structure FirstOverlong (bytes : Bytes) (lines : List Bytes) (line : Bytes) : Prop where
  whole : ∃ later, bytes = written lines ++ line ++ later ∧
    (later = [] ∨ ∃ more, later = Bytes.newline :: more)
  closed : ∀ short ∈ lines, Bytes.newline ∉ short
  short : ∀ short ∈ lines, short.length ≤ maxLine
  open' : Bytes.newline ∉ line
  long : maxLine < line.length

/-- A stream with a line that is too long has a first one. -/
theorem exists_firstOverlong {bytes line : Bytes}
    (member : line ∈ linesOf bytes ∨ line = restOf bytes) (long : maxLine < line.length) :
    ∃ lines first, FirstOverlong bytes lines first := by
  obtain ⟨whole, closed, open'⟩ := lined_extract bytes
  cases found : (linesOf bytes).find? fun line => maxLine < line.length with
  | some first =>
    obtain ⟨exceeds, before, after, split, short⟩ := List.find?_eq_some_iff_append.mp found
    rw [split] at closed
    refine ⟨before, first, ⟨Bytes.newline :: (written after ++ restOf bytes), ?_, .inr ⟨_, rfl⟩⟩,
      fun line among => closed line (List.mem_append_left _ among),
      fun line among => by simpa using short line among,
      closed first (List.mem_append_right _ List.mem_cons_self), of_decide_eq_true exceeds⟩
    rw [split] at whole
    calc bytes
      _ = written before ++ (written (first :: after) ++ restOf bytes) := by
        rw [← List.append_assoc, ← written_append]
        exact whole
      _ = written before ++ first ++ Bytes.newline :: (written after ++ restOf bytes) := by
        rw [written_cons_append, List.append_assoc]
  | none =>
    have short : ∀ line ∈ linesOf bytes, line.length ≤ maxLine := fun line among => by
      simpa using List.find?_eq_none.mp found line among
    rcases member with member | rfl
    · exact absurd long (Nat.not_lt.mpr (short line member))
    · refine ⟨linesOf bytes, restOf bytes, ⟨[], ?_, .inl rfl⟩, closed, short, open', long⟩
      rw [List.append_nil]
      exact whole

namespace FirstOverlong

variable {front back line : Bytes} {lines : List Bytes}

/-- In front of the line and its beginning, not all lines before it are there. -/
theorem before (first : FirstOverlong (front ++ back) lines line)
    (early : front.length < (written lines).length) :
    (restOf front).length ≤ maxLine ∧ (texts front).length < lines.length := by
  obtain ⟨later, whole, _⟩ := first.whole
  rw [List.append_assoc] at whole
  obtain ⟨more, same⟩ : front <+: written lines :=
    List.prefix_of_prefix_length_le ⟨back, rfl⟩ ⟨_, whole.symm⟩ (Nat.le_of_lt early)
  obtain ⟨cut, ended⟩ := extract_lines_append first.closed []
  simp only [List.append_nil, show linesOf [] = [] from rfl] at cut
  rw [List.append_nil] at ended
  rw [← same] at cut ended
  refine ⟨?_, ?_⟩
  · obtain ⟨longer, among, least⟩ := exists_longer_line front more
    rcases among with among | rfl
    · exact Nat.le_trans least (first.short longer (cut ▸ among))
    · rw [ended] at least
      exact Nat.le_trans least (Nat.zero_le _)
  · -- What is missing holds a line feed, since it ends with one.
    have missing : linesOf (restOf front ++ more) ≠ [] := fun none => by
      rw [restOf_append, (extract_of_notMem (notMem_of_linesOf none)).2] at ended
      have nothing : more = [] := (List.append_eq_nil_iff.mp ended).2
      rw [← same, nothing, List.append_nil] at early
      exact absurd early (Nat.lt_irrefl _)
    rw [(extract_append front more).1] at cut
    have count := congrArg List.length cut
    have some := List.length_pos_iff.mpr missing
    rw [List.length_append] at count
    rw [texts, List.length_map]
    omega

/-- Within the line, all lines before it are there, and its beginning is open. -/
theorem within (first : FirstOverlong (front ++ back) lines line)
    (least : (written lines).length ≤ front.length)
    (most : front.length ≤ (written lines).length + line.length) :
    texts front = lines.map Utf8.lossy ∧
      (restOf front).length = front.length - (written lines).length := by
  obtain ⟨later, whole, _⟩ := first.whole
  rw [List.append_assoc] at whole
  obtain ⟨part, rfl⟩ : written lines <+: front :=
    List.prefix_of_prefix_length_le ⟨_, whole.symm⟩ ⟨back, rfl⟩ least
  rw [List.append_assoc] at whole
  rw [List.length_append] at most
  have inside : part <+: line :=
    List.prefix_of_prefix_length_le ⟨back, rfl⟩ ⟨later, (List.append_cancel_left whole).symm⟩
      (by omega)
  have open' : Bytes.newline ∉ part := fun member => first.open' (inside.subset member)
  obtain ⟨cut, rest⟩ := extract_lines_append first.closed part
  obtain ⟨none, all⟩ := extract_of_notMem open'
  refine ⟨?_, ?_⟩
  · rw [texts, cut, none, List.append_nil]
  · rw [rest, all, List.length_append, Nat.add_sub_cancel_left]

/-- Behind the line, it is among the lines. -/
theorem behind (first : FirstOverlong (front ++ back) lines line)
    (late : (written lines).length + line.length < front.length) :
    lines.length < (texts front).length := by
  obtain ⟨later, whole, ends⟩ := first.whole
  rw [← List.length_append] at late
  obtain ⟨part, rfl⟩ : written lines ++ line <+: front :=
    List.prefix_of_prefix_length_le ⟨later, whole.symm⟩ ⟨back, rfl⟩ (Nat.le_of_lt late)
  rw [List.append_assoc _ part] at whole
  have rest : part ++ back = later := List.append_cancel_left whole
  have some : part ≠ [] := by
    rintro rfl
    simp at late
  obtain ⟨b, part, rfl⟩ := List.exists_cons_of_ne_nil some
  rcases ends with rfl | ⟨more, rfl⟩
  · cases rest
  · cases rest
    rw [texts, List.append_assoc, (extract_lines_append first.closed _).1,
      (extract_line first.open' part).1, List.length_map, List.length_append, List.length_cons]
    omega

end FirstOverlong

/-! ## 2. Where it is noticed -/

/-- Some chunk begins in the part of the line that the limit allows, and has more than the limit
behind the last line feed where it ends. -/
def Noticed (chunks lines : List Bytes) : Prop :=
  ∃ front chunk back, chunks = front ++ chunk :: back ∧
    (written lines).length ≤ front.flatten.length ∧
    front.flatten.length ≤ (written lines).length + maxLine ∧
    maxLine < (restOf (front ++ [chunk]).flatten).length

/-- A division fails at the first overlong line, with all lines before it, if a chunk begins in what
is allowed of it and ends with too much; otherwise it does not. -/
theorem noticed_iff {chunks lines : List Bytes} {line : Bytes}
    (first : FirstOverlong chunks.flatten lines line) :
    none ∈ (({} : PartialLine).pushAll chunks).1 ∧
      delivered (({} : PartialLine).pushAll chunks).1 = lines.map Utf8.lossy ↔
    Noticed chunks lines := by
  have limit := first.long
  constructor
  · rintro ⟨failed, came⟩
    rcases outcome_cases chunks with ⟨_, fine, _⟩ | ⟨front, chunk, back, rfl, fits, long, _, lines'⟩
    · exact absurd failed fine
    · rw [List.flatten_append] at first
      have here : texts front.flatten = lines.map Utf8.lossy := lines'.symm.trans came
      have count := congrArg List.length here
      rw [List.length_map] at count
      have least : (written lines).length ≤ front.flatten.length := by
        refine Nat.not_lt.mp fun early => ?_
        have := (first.before early).2
        omega
      have most : front.flatten.length ≤ (written lines).length + line.length := by
        refine Nat.not_lt.mp fun late => ?_
        have := first.behind late
        omega
      refine ⟨front, chunk, back, rfl, least, ?_, long⟩
      have rest := (first.within least most).2
      have short : (restOf front.flatten).length ≤ maxLine := fits front (List.prefix_refl front)
      omega
  · rintro ⟨front, chunk, back, rfl, least, most, long⟩
    have fits : Fits {} front := by
      rintro early ⟨between, rfl⟩
      rw [List.flatten_append, List.flatten_append, List.append_assoc] at first
      rw [List.flatten_append, List.length_append] at most
      show (restOf early.flatten).length ≤ maxLine
      by_cases there : (written lines).length ≤ early.flatten.length
      · rw [(first.within there (by omega)).2]
        omega
      · exact (first.before (Nat.not_le.mp there)).1
    rw [List.flatten_append] at first
    obtain ⟨failed, came⟩ := pushAll_of_overrun fits long back
    exact ⟨failed, came.trans (first.within least (by omega)).1⟩

/-- Some chunk takes a stream past a place in it. -/
theorem exists_crossing {chunks : List Bytes} {place : Nat} (short : place < chunks.flatten.length) :
    ∃ front chunk back, chunks = front ++ chunk :: back ∧ front.flatten.length ≤ place ∧
      place < (front ++ [chunk]).flatten.length := by
  induction chunks using List.reverseRecOn with
  | nil => cases short
  | append_singleton front chunk ih =>
    by_cases later : front.flatten.length ≤ place
    · exact ⟨front, chunk, [], rfl, later, short⟩
    · obtain ⟨before, first, between, rfl, least, most⟩ := ih (Nat.not_le.mp later)
      refine ⟨before, first, between ++ [chunk], ?_, least, most⟩
      rw [List.append_assoc, List.cons_append]

/-- In chunks of at most `n` bytes, a line of at least `maxLine + n` bytes is noticed. -/
theorem noticed_of_long {chunks lines : List Bytes} {line : Bytes} {n : Nat}
    (first : FirstOverlong chunks.flatten lines line) (small : ∀ chunk ∈ chunks, chunk.length ≤ n)
    (allowed : n ≤ maxLine) (long : maxLine + n ≤ line.length) : Noticed chunks lines := by
  have limit := first.long
  have reached : (written lines).length + maxLine < chunks.flatten.length := by
    obtain ⟨later, whole, _⟩ := first.whole
    rw [whole, List.length_append, List.length_append]
    omega
  obtain ⟨front, chunk, back, rfl, least, most⟩ := exists_crossing reached
  have size := small chunk (List.mem_append_right _ List.mem_cons_self)
  have whole : (front ++ chunk :: back).flatten = (front ++ [chunk]).flatten ++ back.flatten := by
    rw [List.flatten_append, List.flatten_append, List.flatten_cons, List.flatten_singleton,
      List.append_assoc]
  have ends : (front ++ [chunk]).flatten.length = front.flatten.length + chunk.length := by
    rw [List.flatten_append, List.flatten_singleton, List.length_append]
  rw [whole] at first
  refine ⟨front, chunk, back, rfl, by omega, least, ?_⟩
  rw [(first.within (by omega) (by omega)).2]
  omega

/-- In chunks of at most `n` bytes, no line of `maxLine + n` bytes comes out. -/
theorem length_lt_of_fits {chunks : List Bytes} {n : Nat} (fits : Fits {} chunks)
    (small : ∀ chunk ∈ chunks, chunk.length ≤ n) :
    ∀ line ∈ linesOf chunks.flatten, line.length < maxLine + n := by
  induction chunks using List.reverseRecOn with
  | nil => exact nofun
  | append_singleton front chunk ih =>
    intro line member
    rw [List.flatten_append, List.flatten_singleton, (extract_append _ _).1] at member
    rcases List.mem_append.mp member with earlier | now
    · exact ih (fun some early => fits some (early.trans (List.prefix_append _ _)))
        (fun other among => small other (List.mem_append_left _ among)) line earlier
    · have short : (restOf front.flatten).length ≤ maxLine := fits front (List.prefix_append _ _)
      have size := small chunk (List.mem_append_right _ List.mem_cons_self)
      have less := length_lt_of_mem_linesOf now
      rw [List.length_append] at less
      omega

/-- **The limit is seen where chunks end.** However a stream is divided into chunks that are pushed
into a fresh buffer:

* If all its lines and its rest keep to the limit, no push fails and all lines come out. So a push
  fails only if the stream has a line that is too long.
* Of the first such line, with the lines before it: a push fails when exactly these lines have come
  out, if and only if some chunk begins in what is allowed of the line and ends with more than the
  limit behind the last line feed. Otherwise the line comes out like any other, or lines before it
  are lost.
* In chunks of at most `n` bytes, what comes out are the first lines of the stream, none of which
  has `maxLine + n` bytes; and if `n` is at most the limit, a push fails at each first overlong line
  of that length, when exactly the lines before it have come out. For chunks of one byte, these are
  all lines beyond the limit. -/
theorem limit_is_seen_at_chunk_ends (chunks : List Bytes) :
    let results := (({} : PartialLine).pushAll chunks).1
    ((∀ lines rest, Lined chunks.flatten lines rest → (∀ line ∈ lines, line.length ≤ maxLine) →
        rest.length ≤ maxLine → none ∉ results ∧ delivered results = lines.map Utf8.lossy) ∧
      (none ∈ results → ∃ lines line, FirstOverlong chunks.flatten lines line)) ∧
    (∀ lines line, FirstOverlong chunks.flatten lines line →
      (none ∈ results ∧ delivered results = lines.map Utf8.lossy ↔ Noticed chunks lines)) ∧
    ∀ n, (∀ chunk ∈ chunks, chunk.length ≤ n) →
      (∃ lines behind, chunks.flatten = written lines ++ behind ∧
        delivered results = lines.map Utf8.lossy ∧
        ∀ line ∈ lines, Bytes.newline ∉ line ∧ line.length < maxLine + n) ∧
      ∀ lines line, FirstOverlong chunks.flatten lines line → n ≤ maxLine →
        maxLine + n ≤ line.length → none ∈ results ∧ delivered results = lines.map Utf8.lossy := by
  intro results
  have overrun {front back : List Bytes} {chunk : Bytes} (same : chunks = front ++ chunk :: back)
      (long : maxLine < (restOf (front ++ [chunk]).flatten).length) :
      ∃ line, (line ∈ linesOf chunks.flatten ∨ line = restOf chunks.flatten) ∧
        maxLine < line.length := by
    obtain ⟨line, among, least⟩ := exists_longer_line (front ++ [chunk]).flatten back.flatten
    rw [← List.flatten_append, List.append_assoc, List.singleton_append, ← same] at among
    exact ⟨line, among, Nat.lt_of_lt_of_le long least⟩
  refine ⟨⟨fun lines rest lined short open' => ?_, fun failed => ?_⟩,
    fun lines line first => noticed_iff first, fun n small => ⟨?_, fun lines line first allowed long =>
      (noticed_iff first).mpr (noticed_of_long first small allowed long)⟩⟩
  · obtain ⟨rfl, rfl⟩ := lined.eq_extract
    rcases outcome_cases chunks with ⟨_, fine, came⟩ | ⟨front, chunk, back, same, _, long, _⟩
    · exact ⟨fine, came⟩
    · obtain ⟨line, among | rfl, exceeds⟩ := overrun same long
      · exact absurd exceeds (Nat.not_lt.mpr (short line among))
      · exact absurd exceeds (Nat.not_lt.mpr open')
  · rcases outcome_cases chunks with ⟨_, fine, _⟩ | ⟨front, chunk, back, same, _, long, _⟩
    · exact absurd failed fine
    · obtain ⟨line, among, exceeds⟩ := overrun same long
      exact exists_firstOverlong among exceeds
  · rcases outcome_cases chunks with ⟨fits, _, came⟩ | ⟨front, chunk, back, same, fits, _, _, came⟩
    · obtain ⟨whole, closed, _⟩ := lined_extract chunks.flatten
      exact ⟨_, _, whole, came, fun line among =>
        ⟨closed line among, length_lt_of_fits fits small line among⟩⟩
    · obtain ⟨whole, closed, _⟩ := lined_extract front.flatten
      have small' : ∀ other ∈ front, other.length ≤ n := fun other among =>
        small other (same ▸ List.mem_append_left _ among)
      refine ⟨_, restOf front.flatten ++ (chunk :: back).flatten, ?_, came, fun line among =>
        ⟨closed line among, length_lt_of_fits fits small' line among⟩⟩
      rw [← List.append_assoc, ← whole, same, List.flatten_append]

/-- Reads of a client: a request, and five times as many bytes as one read can take. -/
theorem limit_is_seen_at_chunk_ends_of_reads :
    let chunks := Bytes.ofString "ping\n" :: List.replicate 5 (List.replicate 1024 120)
    let results := (({} : PartialLine).pushAll chunks).1
    (∀ chunk ∈ chunks, chunk.length ≤ 1024) ∧
      FirstOverlong chunks.flatten [Bytes.ofString "ping"] (List.replicate 5120 120) ∧
      maxLine + 1024 ≤ 5120 ∧ none ∈ results ∧ delivered results = ["ping"] := by
  intro chunks results
  have small : ∀ chunk ∈ chunks, chunk.length ≤ 1024 := by
    refine List.forall_mem_cons.mpr ⟨by decide +kernel, fun chunk among => ?_⟩
    exact Nat.le_of_eq (by rw [List.eq_of_mem_replicate among, List.length_replicate])
  have whole : chunks.flatten =
      written [Bytes.ofString "ping"] ++ List.replicate 5120 120 ++ ([] : Bytes) := by
    have line : written [Bytes.ofString "ping"] = Bytes.ofString "ping\n" := by decide +kernel
    rw [List.flatten_cons, List.flatten_replicate_replicate, line, List.append_nil]
  have first : FirstOverlong chunks.flatten [Bytes.ofString "ping"] (List.replicate 5120 120) :=
    ⟨⟨[], whole, .inl rfl⟩, by decide +kernel, by decide +kernel, newline_notMem_replicate 5120,
      by rw [List.length_replicate]; decide⟩
  obtain ⟨failed, came⟩ := ((limit_is_seen_at_chunk_ends chunks).2.2 1024 small).2 _ _ first
    (by decide) (by rw [List.length_replicate]; decide)
  exact ⟨small, first, by decide, failed, came.trans (by decide +kernel)⟩

/-! ## 3. Two divisions -/

section

variable {line front : Bytes} (open' : Bytes.newline ∉ line)
include open'

/-- A line comes out, however long it is, if its line feed is in the same chunk. -/
theorem pushAll_line : (({} : PartialLine).pushAll [line ++ [Bytes.newline]]).1 =
    [some [Utf8.lossy line]] := by
  obtain ⟨lines, rest⟩ := extract_line open' []
  have fits : (restOf (([] : Bytes) ++ (line ++ [Bytes.newline]))).length ≤ maxLine := by
    rw [List.nil_append, rest]
    exact Nat.zero_le _
  rw [pushAll, push_of_fits fits, List.nil_append, texts, lines]
  rfl

variable (long : maxLine < line.length)
include long

/-- It is refused if its line feed is in the next chunk, which then completes an empty line. -/
theorem pushAll_line_apart : (({} : PartialLine).pushAll [line, [Bytes.newline]]).1 =
    [none, some [""]] := by
  have exceeds : maxLine < (restOf (([] : Bytes) ++ line)).length := by
    rw [List.nil_append, (extract_of_notMem open').2]
    exact long
  rw [pushAll, push_of_overlong exceeds]
  decide +kernel

/-- Lines in the chunk that is refused are lost. -/
theorem pushAll_behind (ended : restOf front = []) :
    (({} : PartialLine).pushAll [front ++ line]).1 = [none] ∧
      (({} : PartialLine).pushAll [front, line]).1 = [some (texts front), none] := by
  have rest : restOf (front ++ line) = line := by
    rw [restOf_append, ended, List.nil_append, (extract_of_notMem open').2]
  have fits : (restOf (([] : Bytes) ++ front)).length ≤ maxLine := by
    rw [List.nil_append, ended]
    exact Nat.zero_le _
  have exceeds : maxLine < (restOf (([] : Bytes) ++ (front ++ line))).length := by
    rw [List.nil_append, rest]
    exact long
  have exceeds' : maxLine < (restOf (restOf (([] : Bytes) ++ front) ++ line)).length := by
    rw [List.nil_append, ended, List.nil_append, (extract_of_notMem open').2]
    exact long
  constructor
  · rw [pushAll, push_of_overlong exceeds]
    rfl
  · rw [pushAll, push_of_fits fits, pushAll, push_of_overlong exceeds']
    rfl

end

/-- A line with one byte too many comes out if its line feed is in the same chunk, and is refused if
it is in the next one. And a chunk that is refused takes the lines that it completed with it. -/
theorem divisions_differ :
    let results (chunks : List Bytes) := (({} : PartialLine).pushAll chunks).1
    let long : Bytes := List.replicate 4097 120
    let ping := Bytes.ofString "ping\n"
    ([long ++ [Bytes.newline]].flatten = [long, [Bytes.newline]].flatten ∧
      results [long ++ [Bytes.newline]] = [some [Utf8.lossy long]] ∧
      results [long, [Bytes.newline]] = [none, some [""]]) ∧
    [ping ++ long].flatten = [ping, long].flatten ∧
      results [ping ++ long] = [none] ∧ results [ping, long] = [some ["ping"], none] := by
  intro results long ping
  have open' : Bytes.newline ∉ long := newline_notMem_replicate 4097
  have size : maxLine < long.length := by
    rw [List.length_replicate]
    decide
  have ended : restOf ping = [] := by decide +kernel
  have lines : texts ping = ["ping"] := by decide +kernel
  obtain ⟨together, apart⟩ := pushAll_behind open' size ended
  rw [lines] at apart
  refine ⟨⟨?_, pushAll_line open', pushAll_line_apart open' size⟩, ?_, together, apart⟩
  · simp only [List.flatten_cons, List.flatten_nil, List.append_nil]
  · simp only [List.flatten_cons, List.flatten_nil, List.append_nil]

end Succession.PartialLine
