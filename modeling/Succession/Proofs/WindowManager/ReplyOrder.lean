import Succession.Proofs.WindowManager.Talk
import Succession.Proofs.WindowManager.Termination

/-!
# In which order replies come

The replies to a client stand in the order of its lines, and each is one line. This holds until a
line is too long. Then the client is let go, and nothing that it sends is read any more
(`Gone.wakeups_eq_nil`).

The complaint about that line is sent while the client is being read, before the lines of the same
wakeup are dealt with. So it is behind the other replies only if this wakeup completes no line:
otherwise it is in front of replies to lines that were there before (`complaint_overtakes_reply`).
-/

namespace Succession.WindowManager

open PartialLine Request

variable {m m' : WindowManager} {fd : Int} {id : Nat}

/-! ## 1. After the client is let go -/

/-- Where nobody serves a connection, nothing is read from it any more. -/
theorem Gone.wakeups_eq_nil {d : Transcript} (wired : m.IsWired)
    (known : id ∈ m.host.connections.ids) (gone : Gone id m) (talk : Talk id m d m') :
    d.wakeups = [] := by
  suffices stays : d.wakeups = [] ∧ m'.IsWired ∧ id ∈ m'.host.connections.ids ∧ Gone id m' from
    stays.1
  have onward {m m' : WindowManager} (known : id ∈ m.host.connections.ids) (gone : Gone id m)
      (kept : Kept id m m') : m'.IsWired ∧ id ∈ m'.host.connections.ids ∧ Gone id m' :=
    ⟨kept.wired, kept.known, kept.gone known gone⟩
  induction talk with
  | refl => exact ⟨rfl, wired, known, gone⟩
  | send bytes _ ih =>
    obtain ⟨silent, wired, known, gone⟩ := ih
    exact ⟨silent, onward known gone (.modify wired known id _)⟩
  | take _ ih =>
    obtain ⟨silent, wired, known, gone⟩ := ih
    exact ⟨silent, onward known gone (.modify wired known id _)⟩
  | shutDown _ ih | close _ ih =>
    obtain ⟨silent, wired, known, gone⟩ := ih
    exact ⟨silent, onward known gone (.modify wired known id _)⟩
  | @serve _ _ _ fd _ _ _ serves ih =>
    obtain ⟨_, _, _, gone⟩ := ih
    obtain ⟨client, found, _⟩ := serves.reads
    exact absurd serves.here (gone.nobody fd client found)
  | apart _ aside ih =>
    obtain ⟨silent, wired, known, gone⟩ := ih
    exact ⟨silent, onward known gone (aside.kept wired known).1⟩

/-! ## 2. The replies of many wakeups -/

theorem replies_of_fine {wakeups : List Intake} (fine : ∀ w ∈ wakeups, w.outcome ≠ .overlong) :
    wakeups.flatMap Intake.replies = (wakeups.flatMap (·.lines)).map answerTo := by
  induction wakeups with
  | nil => rfl
  | cons w rest ih =>
    obtain ⟨first, others⟩ := List.forall_mem_cons.mp fine
    rw [List.flatMap_cons, List.flatMap_cons, List.map_append, ih others, Intake.replies,
      if_neg first, List.nil_append]

/-- The replies to the complete lines of a stream, and the complaint, are each one line. -/
theorem newline_notMem_reply {d : Transcript} {read : Bytes} {reply : String}
    (lines : d.lines = texts read) (member : reply ∈ d.replies) :
    Bytes.newline ∉ Utf8.encode reply := by
  obtain ⟨w, within, here⟩ := List.mem_flatMap.mp member
  rcases List.mem_append.mp here with complaint | answer
  · split at complaint
    · rw [List.mem_singleton.mp complaint]
      decide +kernel
    · cases complaint
  · obtain ⟨line, among, rfl⟩ := List.mem_map.mp answer
    have whole : line ∈ d.lines := List.mem_flatMap.mpr ⟨w, within, among⟩
    exact newline_notMem_answerTo (lines ▸ whole)

/-- The complaint is behind the replies only if there are none that it overtakes. -/
theorem complaint_last_iff (front : List String) (lines : List String) :
    front ++ Reply.overlong :: lines.map answerTo =
      front ++ lines.map answerTo ++ [Reply.overlong] ↔ lines = [] := by
  rw [List.append_assoc, List.append_cancel_left_eq]
  constructor
  · intro same
    cases lines with
    | nil => rfl
    | cons line rest =>
      rw [List.map_cons, List.cons_append] at same
      exact absurd (List.cons.inj same).1.symm (answerTo_ne_overlong line)
  · rintro rfl
    rfl

/-- Serving goes through as long as no line asks for a restart. -/
theorem Stands.exists_serves {begun shown read arrived : Bytes} {d : Transcript} {intake : Intake}
    {client : Client} (stands : Stands id begun shown d m read)
    (found : m.holding.set.clients.get? fd = some client)
    (here : m.holding.table.streamAt? fd = some id)
    (reads : Intake.Reads client.lines (m.stream id) arrived intake)
    (calm : ∀ line ∈ texts (begun ++ d.sent ++ arrived), isRestart line = false) :
    ∃ m', Serves m fd id arrived intake m' := by
  obtain ⟨_, _, got, took⟩ := stands.took found here reads
  have whole : begun ++ d.sent ++ arrived = read ++ got ++ intake.stream.inbox := by
    rw [stands.bytes, List.append_assoc, took.bytes, List.append_assoc]
  rw [whole, texts_append (read ++ got), texts_append, ← took.lines] at calm
  obtain ⟨done, handled⟩ := @exists_handleLines (m.takeIn fd id intake) fd intake.lines
    fun line member => calm line (List.mem_append_left _ (List.mem_append_right _ member))
  refine ⟨if intake.outcome = .drained then done else done.dropClient fd,
    ⟨client, found, reads⟩, here, ?_⟩
  rw [serveWith, handled]

/-- As long as no line is too long, the replies are those to the lines. -/
theorem Stands.replies_of_short {begun shown read : Bytes} {d : Transcript}
    (stands : Stands id begun shown d m read) (short : (restOf read).length ≤ maxLine) :
    d.replies = d.lines.map answerTo := by
  refine replies_of_fine fun w member overlong => ?_
  cases stands.course with
  | goesOn drained _ _ => cases (drained w member).symm.trans overlong
  | isOver earlier last wakeups drained ended _ =>
    rw [wakeups] at member
    rcases List.mem_append.mp member with before | now
    · cases (drained w before).symm.trans overlong
    · exact Nat.not_lt.mpr short (ended.mp (List.mem_singleton.mp now ▸ overlong))

/-- Once a line is too long, the client is gone, and the complaint stands in front of the replies of
the last wakeup. -/
theorem Stands.replies_of_long {begun shown read : Bytes} {d : Transcript}
    (stands : Stands id begun shown d m read) (long : maxLine < (restOf read).length) :
    Gone id m ∧ (∀ d' m', Talk id m d' m' → d'.wakeups = []) ∧
      ∃ earlier last, d.wakeups = earlier ++ [last] ∧
        d.replies = (earlier.flatMap (·.lines)).map answerTo ++
          Reply.overlong :: last.lines.map answerTo ∧
        (d.replies = d.lines.map answerTo ++ [Reply.overlong] ↔ last.lines = []) := by
  cases stands.course with
  | goesOn _ short _ => exact absurd long (Nat.not_lt.mpr short)
  | isOver earlier last wakeups drained ended gone =>
    have fine : ∀ w ∈ earlier, w.outcome ≠ .overlong := by
      intro w member overlong
      cases (drained w member).symm.trans overlong
    have replies : d.replies = (earlier.flatMap (·.lines)).map answerTo ++
        Reply.overlong :: last.lines.map answerTo := by
      rw [Transcript.replies, wakeups, List.flatMap_append, replies_of_fine fine,
        List.flatMap_singleton, Intake.replies, if_pos (ended.mpr long), List.singleton_append]
    have lines : d.lines.map answerTo =
        (earlier.flatMap (·.lines)).map answerTo ++ last.lines.map answerTo := by
      rw [Transcript.lines, wakeups, List.flatMap_append, List.map_append, List.flatMap_singleton]
    refine ⟨gone, fun d' m' later => gone.wakeups_eq_nil stands.wired stands.known later,
      earlier, last, wakeups, replies, ?_⟩
    rw [replies, lines]
    exact complaint_last_iff _ last.lines

/-- A wakeup for whose replies there is space loses none. -/
theorem Stands.lost_wake {begun shown read arrived : Bytes} {d : Transcript} {intake : Intake}
    {client : Client} (stands : Stands id begun shown d m read)
    (found : m.holding.set.clients.get? fd = some client)
    (here : m.holding.table.streamAt? fd = some id)
    (reads : Intake.Reads client.lines (m.stream id) arrived intake)
    (heard : (m.stream id).peerOpen = true)
    (room : (m.stream id).load + (intake.replies.map Stream.lineCharge).sum ≤ Stream.capacity) :
    (d.wake arrived intake).lost = d.lost := by
  obtain ⟨_, _, got, took⟩ := stands.took found here reads
  have open' : intake.stream.peerOpen = (m.stream id).peerOpen := by rw [took.output]
  have load : intake.stream.load = (m.stream id).load := by rw [took.output]
  have all : intake.stream.unsent intake.replies = [] :=
    Stream.unsent_of_room (open'.trans heard) (load ▸ room)
  rw [Transcript.wake, all]
  exact List.append_nil d.lost

/-! ## 3. A client that sends two requests and a long line -/

theorem wired_spokenTo (bytes : Bytes) : (spokenTo bytes).IsWired := by
  have places : ∀ fd id, (spokenTo bytes).holding.table.streamAt? fd = some id →
      fd = 5 ∧ id = 0 := by
    intro fd id here
    obtain ⟨d, found, target⟩ := DescriptorTable.streamAt?_eq_some.mp here
    cases List.mem_singleton.mp (FdMap.mem_entries_iff.mpr found)
    cases target
    exact ⟨rfl, rfl⟩
  refine ⟨fun fd fd' id here there => ?_, fun _ _ _ => List.not_mem_nil, .nil, ?_, nofun, ?_⟩
  · rw [(places fd id here).1, (places fd' id there).1]
  · intro fd id here
    rw [(places fd id here).2]
    exact List.mem_cons_self
  · intro id known
    rw [List.mem_singleton.mp known]
    exact Nat.zero_lt_one

theorem poised_spokenTo (bytes : Bytes) : Poised 0 [] (spokenTo bytes) where
  wired := wired_spokenTo bytes
  known := List.mem_cons_self
  unfinished := List.not_mem_nil
  short := Nat.zero_le _
  heard := by
    refine ⟨fun fd c found _ => ?_, fun _ => rfl⟩
    cases List.mem_singleton.mp (FdMap.mem_entries_iff.mpr found)
    rfl

/-- Two requests are answered in one wakeup, and the line behind them has begun. -/
theorem exists_talk_spokenTo :
    ∃ d m', Talk 0 (spokenTo (Bytes.ofString "ping\nversion\nlong")) d m' ∧ d.sent = [] ∧
      d.taken = [] ∧ d.lost = [] ∧ d.lines = ["ping", "version"] ∧
      d.replies = d.lines.map answerTo ∧ 0 ∈ m'.host.connections.ids ∧
      (m'.holding.set.clients.get? 5).map (·.lines.pending) = some (Bytes.ofString "long") ∧
      m'.holding.table.streamAt? 5 = some 0 ∧ (m'.stream 0).inbox = [] ∧
      (m'.stream 0).peerOpen = true ∧
      (m'.stream 0).load + Stream.lineCharge Reply.overlong ≤ Stream.capacity := by
  let m := spokenTo (Bytes.ofString "ping\nversion\nlong")
  let first := Intake.read {} (m.stream 0)
  let m' := (m.serveWith 5 0 first).toOption.getD m
  have served : m.serveWith 5 0 first = .ok m' := by
    obtain ⟨done, went⟩ := Option.isSome_iff_exists.mp
      (show (m.serveWith 5 0 first).toOption.isSome = true by decide +kernel)
    have same : m' = done := congrArg (Option.getD · m) went
    exact toOption_eq_some.mp (same ▸ went)
  have serves : Serves m 5 0 [] first m' :=
    ⟨⟨⟨.localBind, {}⟩, rfl, Intake.reads_read _ _⟩, rfl, served⟩
  have known := (serves.kept (wired_spokenTo _) List.mem_cons_self).known
  refine ⟨_, m', Talk.refl.serve serves, rfl, rfl, ?_, ?_, ?_, known, ?_, ?_, ?_, ?_, ?_⟩
  all_goals decide +kernel

/-- In the next wakeup this line gets too long. -/
theorem exists_talk_spokenTo_long :
    ∃ d m', Talk 0 (spokenTo (Bytes.ofString "ping\nversion\nlong")) d m' ∧ d.taken = [] ∧
      d.lost = [] ∧ d.lines = ["ping", "version"] ∧
      d.replies = d.lines.map answerTo ++ [Reply.overlong] := by
  obtain ⟨more, plain, long⟩ : ∃ more, Bytes.newline ∉ more ∧ maxLine < more.length :=
    ⟨List.replicate 4097 120, newline_notMem_replicate 4097, by rw [List.length_replicate]; decide⟩
  obtain ⟨d, m₁, talk, sent, taken, lost, lines, replies, known, held, here, inbox, heard, room⟩ :=
    exists_talk_spokenTo
  obtain ⟨client, found, pending⟩ := Option.map_eq_some_iff.mp held
  have now : (m₁.receive 0 more).stream 0 = (m₁.stream 0).receive more := stream_receive known more
  let last := Intake.read client.lines ((m₁.receive 0 more).stream 0)
  have reads := Intake.reads_read client.lines ((m₁.receive 0 more).stream 0)
  have cut : client.lines.pending ++ ((m₁.receive 0 more).stream 0).inbox =
      [] ++ (Bytes.ofString "long" ++ more) := by
    rw [pending, now, Stream.receive, inbox]
    rfl
  have begun : Bytes.newline ∉ Bytes.ofString "long" := by decide +kernel
  have open' : Bytes.newline ∉ Bytes.ofString "long" ++ more := by
    rw [List.mem_append, not_or]
    exact ⟨begun, plain⟩
  obtain ⟨got, took⟩ := reads.took (pending ▸ begun)
  obtain ⟨overlong, none⟩ := took.overlong (by rw [pending]; decide +kernel) cut rfl (Nat.zero_le _)
    open' (by rw [List.length_append]; omega)
  have complaint : last.replies = [Reply.overlong] := by
    unfold Intake.replies
    rw [if_pos overlong, none]
    rfl
  -- No line asks for a restart, so the client is served.
  obtain ⟨done, handled⟩ := @exists_handleLines ((m₁.receive 0 more).takeIn 5 0 last) 5 last.lines
    (none ▸ nofun)
  have served : (m₁.receive 0 more).serveWith 5 0 last = .ok (done.dropClient 5) := by
    rw [serveWith, handled, overlong]
    rfl
  have space : last.stream.unsent last.replies = [] := by
    rw [took.output, complaint, now]
    refine Stream.unsent_of_room heard ?_
    rw [List.map_singleton, List.sum_singleton]
    exact room
  refine ⟨_, _, (talk.send more).serve ⟨⟨client, found, reads⟩, here, served⟩, taken, ?_, ?_, ?_⟩
  · exact List.append_eq_nil_iff.mpr ⟨lost, space⟩
  · rw [Transcript.lines_wake, none]
    exact (List.append_nil _).trans lines
  · rw [Transcript.replies_wake, Transcript.lines_wake, none, complaint]
    refine congrArg (· ++ [Reply.overlong]) (replies.trans ?_)
    exact congrArg (List.map answerTo) (List.append_nil d.lines).symm

/-! ## 4. The order -/

/-- **Replies stand in the order of the requests, but a complaint may overtake replies.** However
the bytes of a client come and whatever else happens, its complete lines are dealt with one after
another, each reply is one line, and they are written in the order of the lines. If a line is too
long, the client is let go and nothing more is read from it. The complaint is behind all replies if
the wakeup in which it is sent completes no line, and only then. -/
theorem replies_keep_order {pending : Bytes} {d : Transcript} (poised : Poised id pending m)
    (talk : Talk id m d m') :
    ∃ read,
      pending ++ (m.stream id).inbox ++ d.sent = read ++ (m'.stream id).inbox ∧
      d.lines = texts read ∧
      (∀ reply ∈ d.replies, Bytes.newline ∉ Utf8.encode reply) ∧
      texts (d.replies.flatMap Stream.lineBytes) = d.replies ∧
      (d.lost = [] → (m.stream id).outbox ++ d.replies.flatMap Stream.lineBytes =
        d.taken ++ (m'.stream id).outbox) ∧
      ((restOf read).length ≤ maxLine → d.replies = d.lines.map answerTo) ∧
      (maxLine < (restOf read).length → Gone id m' ∧
        (∀ d' m'', Talk id m' d' m'' → d'.wakeups = []) ∧
        ∃ earlier last, d.wakeups = earlier ++ [last] ∧
          d.replies = (earlier.flatMap (·.lines)).map answerTo ++
            Reply.overlong :: last.lines.map answerTo ∧
          (d.replies = d.lines.map answerTo ++ [Reply.overlong] ↔ last.lines = [])) ∧
      ∀ fd client arrived intake, m'.holding.set.clients.get? fd = some client →
        m'.holding.table.streamAt? fd = some id →
        Intake.Reads client.lines (m'.stream id) arrived intake →
        (∀ line ∈ texts (pending ++ (m.stream id).inbox ++ d.sent ++ arrived),
          isRestart line = false) →
        ∃ m'', Talk id m (d.wake arrived intake) m'' ∧
          ((m'.stream id).peerOpen = true →
            (m'.stream id).load + (intake.replies.map Stream.lineCharge).sum ≤ Stream.capacity →
            (d.wake arrived intake).lost = d.lost) := by
  obtain ⟨read, stands⟩ := stands_of_talk poised talk
  have plain : ∀ reply ∈ d.replies, Bytes.newline ∉ Utf8.encode reply :=
    fun reply member => newline_notMem_reply stands.lines member
  refine ⟨read, stands.bytes, stands.lines, plain, Stream.texts_flatMap_lineBytes plain,
    stands.written, stands.replies_of_short, stands.replies_of_long, ?_⟩
  intro fd client arrived intake found here reads calm
  obtain ⟨m'', serves⟩ := stands.exists_serves found here reads calm
  exact ⟨m'', talk.serve serves, stands.lost_wake found here reads⟩

/-- The complaint is last if the line gets too long in a wakeup of its own. -/
theorem replies_keep_order_of_late :
    let m := spokenTo (Bytes.ofString "ping\nversion\nlong")
    Poised 0 [] m ∧ ∃ d m', Talk 0 m d m' ∧ d.lost = [] ∧ d.lines = ["ping", "version"] ∧
      d.replies = d.lines.map answerTo ++ [Reply.overlong] ∧
      (m'.stream 0).outbox = d.replies.flatMap Stream.lineBytes ∧ Gone 0 m' ∧
      ∀ d' m'', Talk 0 m' d' m'' → d'.wakeups = [] := by
  intro m
  have poised : Poised 0 [] m := poised_spokenTo _
  obtain ⟨d, m', talk, taken, lost, lines, replies⟩ := exists_talk_spokenTo_long
  obtain ⟨read, _, _, _, _, written, short, tooLong, _⟩ := replies_keep_order poised talk
  have beyond : maxLine < (restOf read).length := by
    refine Nat.lt_of_not_le fun fits => ?_
    have same := congrArg List.length (replies.symm.trans (short fits))
    simp at same
  obtain ⟨gone, silent, _⟩ := tooLong beyond
  refine ⟨poised, d, m', talk, lost, lines, replies, ?_, gone, silent⟩
  have all := written lost
  rw [taken, List.nil_append] at all
  exact all.symm

/-- One wakeup brings a request and the start of a line that is too long. The complaint about the
line is in front of the reply to the request. -/
theorem complaint_overtakes_reply :
    let m := spokenTo (Bytes.ofString "ping\n" ++ List.replicate 5000 120)
    texts (m.stream 0).inbox = ["ping"] ∧ answerTo "ping" = Reply.pong ∧
      ∃ m', m.attend (.client 5) = .ok m' ∧
        texts (m'.stream 0).outbox = [Reply.overlong, Reply.pong] := by
  suffices general : ∀ line : Bytes, Bytes.newline ∉ line → maxLine < line.length →
      let m := spokenTo (Bytes.ofString "ping\n" ++ line)
      texts (m.stream 0).inbox = ["ping"] ∧ answerTo "ping" = Reply.pong ∧
        ∃ m', m.attend (.client 5) = .ok m' ∧
          texts (m'.stream 0).outbox = [Reply.overlong, Reply.pong] from
    general _ (newline_notMem_replicate 5000) (by rw [List.length_replicate]; decide)
  intro line open' long m
  have request : texts (Bytes.ofString "ping\n") = ["ping"] := by decide +kernel
  have ended : restOf (Bytes.ofString "ping\n") = [] := by decide +kernel
  have answer : answerTo "ping" = Reply.pong := by decide +kernel
  have inbox : texts (m.stream 0).inbox = ["ping"] := by
    show texts (Bytes.ofString "ping\n" ++ line) = _
    rw [texts_append, ended, request, List.nil_append, texts_of_notMem open', List.append_nil]
  let intake := Intake.read {} (m.stream 0)
  obtain ⟨got, took⟩ := (Intake.reads_read {} (m.stream 0)).took List.not_mem_nil
  have cut : [] ++ (m.stream 0).inbox = Bytes.ofString "ping\n" ++ line := rfl
  obtain ⟨overlong, lines⟩ := took.overlong (Nat.zero_le _) cut ended (by decide +kernel) open' long
  have replies : intake.replies = [Reply.overlong, Reply.pong] := by
    unfold Intake.replies
    rw [if_pos overlong, lines, request, List.map_singleton, answer]
    rfl
  have calm : ∀ line ∈ intake.lines, isRestart line = false := by
    rw [lines, request]
    decide +kernel
  obtain ⟨done, handled⟩ := @exists_handleLines (m.takeIn 5 0 intake) 5 intake.lines calm
  have served : m.serveWith 5 0 intake = .ok (done.dropClient 5) := by
    rw [serveWith, handled, overlong]
    rfl
  have serves : Serves m 5 0 [] intake (done.dropClient 5) :=
    ⟨⟨⟨.localBind, {}⟩, rfl, Intake.reads_read _ _⟩, rfl, served⟩
  refine ⟨inbox, answer, done.dropClient 5, served, ?_⟩
  have nothing : intake.stream.outbox = [] := by rw [took.output]; rfl
  have room : intake.stream.unsent intake.replies = [] := by
    refine Stream.unsent_of_room (by rw [took.output]; rfl) ?_
    rw [took.output, replies]
    show 0 + _ ≤ _
    decide +kernel
  rw [serves.stream (wired_spokenTo _), Stream.outbox_writeLines room, nothing, replies]
  exact Stream.texts_flatMap_lineBytes (by decide +kernel)

end Succession.WindowManager
