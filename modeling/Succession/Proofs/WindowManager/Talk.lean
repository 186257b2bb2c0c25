import Succession.Proofs.Request.Replies
import Succession.Proofs.WindowManager.RequestFlow

/-!
# A client and what passes between it and the manager

1. Serving a client reads from it, deals with its lines and writes their replies (`Serves.stream`).
   Other clients are left as they are (`Serves.kept_ne`), and a client that has come to an end is
   let go (`Serves.gone`).
2. Whatever else the manager attends to has no part in it (`Apart.kept`).
3. A talk is what passes on one connection while the image does whatever else it does (`Talk`). The
   bytes come in any pieces, at any time. How the connection stands after each step is `Stands`, and
   it stands so through any talk (`stands_of_talk`). The rounds of the loop are talks
   (`Talk.round`).
-/

namespace Succession

open PartialLine Request

/-- The replies of a wakeup in the order in which they are sent. -/
def Intake.replies (intake : Intake) : List String :=
  (if intake.outcome = .overlong then [Reply.overlong] else []) ++ intake.lines.map answerTo

/-- What has passed on a connection. -/
structure Transcript where
  /-- What the client has sent. -/
  sent : Bytes := []
  /-- What came out of reading from it, wakeup by wakeup. -/
  wakeups : List Intake := []
  /-- The replies of which not everything was written. -/
  lost : List String := []
  /-- What the client has taken. -/
  taken : Bytes := []

namespace Transcript

/-- The lines that were read. -/
def lines (d : Transcript) : List String := d.wakeups.flatMap (·.lines)

/-- The replies in the order in which they were sent. -/
def replies (d : Transcript) : List String := d.wakeups.flatMap Intake.replies

/-- Another wakeup, during which the client has sent `arrived`. -/
def wake (d : Transcript) (arrived : Bytes) (intake : Intake) : Transcript :=
  { d with
    sent := d.sent ++ arrived
    wakeups := d.wakeups ++ [intake]
    lost := d.lost ++ intake.stream.unsent intake.replies }

theorem lines_wake (d : Transcript) (arrived : Bytes) (intake : Intake) :
    (d.wake arrived intake).lines = d.lines ++ intake.lines := by
  simp only [lines, wake, List.flatMap_append, List.flatMap_singleton]

theorem replies_wake (d : Transcript) (arrived : Bytes) (intake : Intake) :
    (d.wake arrived intake).replies = d.replies ++ intake.replies := by
  simp only [replies, wake, List.flatMap_append, List.flatMap_singleton]

end Transcript

namespace Stream

theorem inbox_writeLines (s : Stream) (lines : List String) :
    (s.writeLines lines).inbox = s.inbox := by
  induction lines generalizing s with
  | nil => rfl
  | cons line rest ih => exact (ih _).trans (s.inbox_writeLine line)

end Stream

theorem StreamPool.get_create {pool : StreamPool} {id : Nat} (known : id ∈ pool.ids) :
    pool.create.2.get id = pool.get id := by
  obtain ⟨s, found⟩ := Option.isSome_iff_exists.mp (isSome_lookup.mpr known)
  simp only [get, create, List.lookup_append, found, Option.some_or]

namespace WindowManager

/-- The connection with a number. -/
def stream (m : WindowManager) (id : Nat) : Stream := m.host.connections.get id

variable {m m' : WindowManager} {fd : Int} {id n : Nat}

theorem stream_receive (known : id ∈ m.host.connections.ids) (bytes : Bytes) :
    (m.receive id bytes).stream id = (m.stream id).receive bytes :=
  StreamPool.get_modify_self known _

/-! ## 1. Serving -/

theorem reply_eq (owned : m.holding.set.clients.contains fd = true)
    (here : m.holding.table.streamAt? fd = some id) (text : String) :
    m.reply fd text =
      { m with host := m.host.modifyConnection id fun s => s.writeLine text } := by
  have there : m.connectionAt? fd = some id := here
  rw [reply, if_pos owned, there]

/-- Dealing with a line writes its reply. -/
theorem handleLine_replies {line : String} (owned : m.holding.set.clients.contains fd = true)
    (here : m.holding.table.streamAt? fd = some id) (handled : m.handleLine fd line = .ok m') :
    m'.host = m.host.modifyConnection id fun s => s.writeLine (answerTo line) := by
  unfold handleLine at handled
  unfold answerTo
  cases asked : parse line with
  | error fault =>
    rw [asked] at handled
    cases handled
    rw [reply_eq owned here]
  | ok request =>
    rw [asked] at handled
    cases request with
    | restart => cases handled
    | exit =>
      cases handled
      rw [reply_eq owned here]
      rfl
    | version | ping =>
      cases handled
      rw [reply_eq owned here]

/-- Dealing with lines writes their replies and leaves the other connections alone. -/
theorem handleLines_replies {lines : List String}
    (owned : m.holding.set.clients.contains fd = true)
    (here : m.holding.table.streamAt? fd = some id) (known : id ∈ m.host.connections.ids)
    (handled : m.handleLines fd lines = .ok m') :
    m'.stream id = (m.stream id).writeLines (lines.map answerTo) ∧
      ∀ n, n ≠ id → m'.stream n = m.stream n := by
  induction lines generalizing m with
  | nil =>
    cases handled
    exact ⟨rfl, fun _ _ => rfl⟩
  | cons line rest ih =>
    rw [handleLines] at handled
    split at handled
    · cases handled
    · next middle first =>
      obtain ⟨_, quiet⟩ := handleLine_ok first
      have host := handleLine_replies owned here first
      obtain ⟨written, others⟩ := ih (by rw [quiet.holding]; exact owned)
        (by rw [quiet.holding]; exact here) (by rw [quiet.host.ids]; exact known) handled
      refine ⟨?_, fun n differs => (others n differs).trans ?_⟩
      · rw [written, stream, host]
        exact congrArg (Stream.writeLines · (rest.map answerTo))
          (StreamPool.get_modify_self known _)
      · rw [stream, host]
        exact StreamPool.get_modify_ne _ _ differs

/-- Lines none of which asks for a restart are dealt with. -/
theorem exists_handleLines {lines : List String}
    (calm : ∀ line ∈ lines, isRestart line = false) :
    ∃ m', m.handleLines fd lines = .ok m' := by
  cases handled : m.handleLines fd lines with
  | ok m' => exact ⟨m', rfl⟩
  | error departure =>
    obtain ⟨front, line, _, cut, _, gone⟩ := handleLines_error handled
    have member : line ∈ lines := by
      rw [← upToRestart_of_calm calm, cut]
      exact List.mem_append_right _ List.mem_cons_self
    cases (calm line member).symm.trans (handleLine_error gone).1

/-- Serves the client at a descriptor with what came out of reading from it. -/
def serveWith (m : WindowManager) (fd : Int) (id : Nat) (intake : Intake) :
    Except Departure WindowManager :=
  match (m.takeIn fd id intake).handleLines fd intake.lines with
  | .error departure => .error departure
  | .ok m => .ok (if intake.outcome = .drained then m else m.dropClient fd)

/-- The client at a descriptor, on the connection `id`, is served. Meanwhile it sends `arrived`. -/
structure Serves (m : WindowManager) (fd : Int) (id : Nat) (arrived : Bytes) (intake : Intake)
    (m' : WindowManager) : Prop where
  reads : ∃ client, m.holding.set.clients.get? fd = some client ∧
    Intake.Reads client.lines (m.stream id) arrived intake
  here : m.holding.table.streamAt? fd = some id
  served : m.serveWith fd id intake = .ok m'

/-- What the program does with a client is one of the ways to serve it. -/
theorem serves_of_serveClient (served : m.serveClient fd = .ok m') :
    m' = m ∨ ∃ client id, m.holding.set.clients.get? fd = some client ∧
      Serves m fd id [] (Intake.read client.lines (m.stream id)) m' := by
  rcases serveClient_cases m fd with ⟨idle, _⟩ | ⟨client, id, found, here, _, serving⟩
  · rw [idle] at served
    cases served
    exact .inl rfl
  · rw [serving] at served
    exact .inr ⟨client, id, found, ⟨client, found, Intake.reads_read _ _⟩, here, served⟩

/-- Nobody serves a connection any more: it was accepted, and its client is let go. -/
structure Gone (id : Nat) (m : WindowManager) : Prop where
  accepted : id ∉ m.host.callers
  nobody : ∀ fd c, m.holding.set.clients.get? fd = some c →
    m.holding.table.streamAt? fd ≠ some id

/-- A connection is gone if whatever may be held for it is held. -/
theorem gone_iff (known : id ∈ m.host.connections.ids) :
    Gone id m ↔ ∀ read, Heard id read m.host.callers m.host.connections m.holding := by
  constructor
  · intro gone read
    refine ⟨fun fd c found here => absurd here (gone.nobody fd c found), ?_⟩
    rintro (waits | unknown)
    · exact absurd waits gone.accepted
    · exact absurd known unknown
  · intro heard
    refine ⟨fun waits => ?_, fun fd c found here => ?_⟩
    · cases (heard [0]).unread (.inl waits)
    · have nothing := (heard []).pending fd c found here
      have something := (heard [0]).pending fd c found here
      cases nothing.symm.trans something

/-- The connections stay as they stand, and so does what is held for one of them. -/
structure Kept (id : Nat) (m m' : WindowManager) : Prop where
  wired : m'.IsWired
  known : id ∈ m'.host.connections.ids
  heard : ∀ read, Heard id read m.host.callers m.host.connections m.holding →
    Heard id read m'.host.callers m'.host.connections m'.holding

theorem Kept.gone (kept : Kept id m m') (known : id ∈ m.host.connections.ids) (gone : Gone id m) :
    Gone id m' :=
  (gone_iff kept.known).mpr fun read => kept.heard read ((gone_iff known).mp gone read)

theorem Kept.quiet (wired : m.IsWired) (known : id ∈ m.host.connections.ids)
    (quiet : Quiet m m') : Kept id m m' := by
  refine ⟨wired.quiet quiet, quiet.host.ids ▸ known, fun read heard => ?_⟩
  rw [quiet.holding, callers_of_alike quiet.host]
  exact heard.mono (fun _ waits => waits) quiet.host.ids fun _ _ found here => ⟨found, here⟩

theorem Kept.modify (wired : m.IsWired) (known : id ∈ m.host.connections.ids) (n : Nat)
    (f : Stream → Stream) : Kept id m { m with host := m.host.modifyConnection n f } := by
  have ids := StreamPool.ids_modify m.host.connections n f
  exact ⟨wired.mono ids rfl (.refl _), (Eq.symm ids) ▸ known, fun read heard =>
    heard.mono (fun _ waits => waits) ids fun _ _ found here => ⟨found, here⟩⟩

namespace Serves

variable {arrived : Bytes} {intake : Intake}

/-- Serving reads, deals with the lines and lets go of a client that has come to an end. -/
theorem parts (serves : Serves m fd id arrived intake m') :
    ∃ client done, m.holding.set.clients.get? fd = some client ∧
      (m.takeIn fd id intake).handleLines fd intake.lines = .ok done ∧ m'.host = done.host ∧
      m'.holding =
        if intake.outcome = .drained then done.holding else done.holding.eraseClient fd := by
  obtain ⟨⟨client, found, reads⟩, _, served⟩ := serves
  unfold serveWith at served
  split at served
  · cases served
  · next done handled =>
    cases served
    refine ⟨client, done, found, handled, ?_, ?_⟩ <;> split <;> rfl

theorem owned_takeIn {client : Client} (found : m.holding.set.clients.get? fd = some client)
    (intake : Intake) : (m.takeIn fd id intake).holding.set.clients.contains fd = true := by
  rw [FdMap.contains]
  exact congrArg Option.isSome (get?_setLines_self found intake.buffer)

theorem known_takeIn (known : n ∈ m.host.connections.ids) (intake : Intake) :
    n ∈ (m.takeIn fd id intake).host.connections.ids :=
  (StreamPool.ids_modify m.host.connections id _).symm ▸ known

/-- The connection after serving its client: the replies are written behind what was there. -/
theorem stream (wired : m.IsWired) (serves : Serves m fd id arrived intake m') :
    m'.stream id = intake.stream.writeLines intake.replies := by
  obtain ⟨client, done, found, handled, host, _⟩ := serves.parts
  have known := wired.attached fd id serves.here
  obtain ⟨written, _⟩ := handleLines_replies (owned_takeIn found intake) serves.here
    (known_takeIn known intake) handled
  have first : (m.takeIn fd id intake).stream id = intake.stream.writeLines
      (if intake.outcome = .overlong then [Reply.overlong] else []) := by
    refine (StreamPool.get_modify_self known _).trans ?_
    split <;> rfl
  calc m'.stream id
    _ = done.stream id := congrArg (fun h : Host => h.connections.get id) host
    _ = ((m.takeIn fd id intake).stream id).writeLines (intake.lines.map answerTo) := written
    _ = intake.stream.writeLines intake.replies := by
      rw [first, Intake.replies]
      exact List.foldl_append.symm

theorem stream_ne (wired : m.IsWired) (serves : Serves m fd id arrived intake m')
    (differs : n ≠ id) : m'.stream n = m.stream n := by
  obtain ⟨client, done, found, handled, host, _⟩ := serves.parts
  obtain ⟨_, others⟩ := handleLines_replies (owned_takeIn found intake) serves.here
    (known_takeIn (wired.attached fd id serves.here) intake) handled
  calc m'.stream n
    _ = done.stream n := congrArg (fun h : Host => h.connections.get n) host
    _ = (m.takeIn fd id intake).stream n := others n differs
    _ = m.stream n := StreamPool.get_modify_ne m.host.connections _ differs

/-- What becomes of the holding after the lines were dealt with. -/
theorem kept (wired : m.IsWired) (known : n ∈ m.host.connections.ids)
    (serves : Serves m fd id arrived intake m') : Kept n (m.takeIn fd id intake) m' := by
  obtain ⟨client, done, found, handled, host, holding⟩ := serves.parts
  have quiet := Kept.quiet (wired_takeIn wired intake) (known_takeIn known intake)
    (handleLines_ok handled).2
  have fewer : m'.holding.table.Within done.holding.table := by
    rw [holding]
    split
    · exact .refl _
    · exact within_eraseClient done.holding fd
  have clients : ∀ other c, m'.holding.set.clients.get? other = some c →
      done.holding.set.clients.get? other = some c := by
    rw [holding]
    split
    · exact fun _ _ here => here
    · exact fun _ _ here => get?_of_eraseClient here
  refine ⟨?_, host ▸ quiet.known, fun read heard => ?_⟩
  · rw [IsWired, host]
    exact quiet.wired.mono rfl rfl fewer
  · rw [host]
    exact (quiet.heard read heard).mono (fun _ waits => waits) rfl fun other c found here =>
      ⟨clients other c found, fewer other n here⟩

/-- Serving one client leaves what is held for the others. -/
theorem kept_ne (wired : m.IsWired) (known : n ∈ m.host.connections.ids)
    (serves : Serves m fd id arrived intake m') (differs : n ≠ id) : Kept n m m' := by
  obtain ⟨wired', known', heard'⟩ := serves.kept wired known
  exact ⟨wired', known', fun read heard =>
    heard' read (heard_takeIn_ne serves.here differs intake heard)⟩

/-- What is held for a client that goes on. -/
theorem heard {read got : Bytes} (wired : m.IsWired) (serves : Serves m fd id arrived intake m')
    (rest : intake.buffer.pending = restOf (read ++ got)) :
    Heard id (read ++ got) m'.host.callers m'.host.connections m'.holding := by
  obtain ⟨client, _, found, _⟩ := serves.parts
  have kept := serves.kept wired (wired.attached fd id serves.here)
  exact kept.heard _ (heard_takeIn_self wired found serves.here rest)

/-- A client that does not go on is let go. -/
theorem gone (wired : m.IsWired) (serves : Serves m fd id arrived intake m')
    (stopped : intake.outcome ≠ .drained) : Gone id m' := by
  obtain ⟨client, done, found, handled, host, holding⟩ := serves.parts
  have known := wired.attached fd id serves.here
  have quiet := (handleLines_ok handled).2
  refine (gone_iff (serves.kept wired known).known).mpr fun read => ?_
  rw [host, holding, if_neg stopped]
  refine heard_eraseClient ((@wired_takeIn m fd id wired intake).quiet quiet) ?_ ?_
  · rw [quiet.holding]
    exact owned_takeIn found intake
  · rw [quiet.holding]
    exact serves.here

end Serves

/-! ## 2. What else happens -/

/-- Something happens in which the client on a connection has no part. -/
inductive Apart (id : Nat) (m : WindowManager) : WindowManager → Prop
  | serve {m' : WindowManager} {fd : Int} {n : Nat} {arrived : Bytes} {intake : Intake} :
      id ≠ n → Serves m fd n arrived intake m' → Apart id m m'
  | attend {m' : WindowManager} {ready : Ready} : (∀ fd, ready ≠ .client fd) →
      m.attend ready = .ok m' → Apart id m m'
  | endRound {m' : WindowManager} : m.endRound = .ok m' → Apart id m m'
  | call (socket : Nat) : Apart id m (m.call socket)
  /-- Another client sends, takes what was written to it, or goes. -/
  | peer {n : Nat} (f : Stream → Stream) : id ≠ n →
      Apart id m { m with host := m.host.modifyConnection n f }
  | outside {m' : WindowManager} : Quiet m m' → m'.stream id = m.stream id → Apart id m m'

theorem Kept.call (wired : m.IsWired) (known : id ∈ m.host.connections.ids) (socket : Nat) :
    Kept id m (m.call socket) := by
  have ids : (m.call socket).host.connections.ids = _ := StreamPool.ids_create m.host.connections
  refine ⟨wired_call wired socket, ?_, fun read heard => ⟨heard.pending, fun new => ?_⟩⟩
  · rw [ids]
    exact List.mem_append_left _ known
  · rcases new with waits | unknown
    · rw [WindowManager.call, callers_call] at waits
      rcases List.mem_append.mp waits with waits | new
      · exact heard.unread (.inl waits)
      · exact absurd (List.mem_singleton.mp new ▸ known) wired.next_notMem
    · refine absurd ?_ unknown
      rw [ids]
      exact List.mem_append_left _ known

theorem stream_of_clientSide (id : Nat) (same : m'.clientSide = m.clientSide) :
    m'.stream id = m.stream id :=
  congrArg (fun side : Host × Holding => side.1.connections.get id) same

/-- The client's connection stays as it is. -/
theorem Apart.kept (wired : m.IsWired) (known : id ∈ m.host.connections.ids)
    (apart : Apart id m m') : Kept id m m' ∧ m'.stream id = m.stream id := by
  cases apart with
  | serve differs serves =>
    exact ⟨serves.kept_ne wired known differs, serves.stream_ne wired differs⟩
  | @attend _ ready other attended =>
    cases ready with
    | client fd => exact absurd rfl (other fd)
    | listener fd =>
      cases attended
      obtain ⟨wired', same, onward⟩ := heard_acceptWaiting fd wired
      refine ⟨⟨wired', same ▸ known, onward id⟩, ?_⟩
      rw [stream, stream, same]
    | signal number =>
      cases attended
      exact ⟨.quiet wired known ⟨rfl, .refl _⟩, rfl⟩
    | display =>
      have same := clientSide_attend_display attended
      exact ⟨.quiet wired known (.of_clientSide same), stream_of_clientSide id same⟩
  | endRound ended =>
    have same := clientSide_endRound ended
    exact ⟨.quiet wired known (.of_clientSide same), stream_of_clientSide id same⟩
  | call socket => exact ⟨.call wired known socket, StreamPool.get_create known⟩
  | peer f differs =>
    exact ⟨.modify wired known _ f, StreamPool.get_modify_ne m.host.connections f differs⟩
  | outside quiet same => exact ⟨.quiet wired known quiet, same⟩

/-! ## 3. What passes on a connection -/

/-- A part of the life of an image as the client on a connection sees it, with what has passed. The
client sends bytes, takes what was written to it, and may end; it is served at any time and in any
pieces. What it has no part in is free. -/
inductive Talk (id : Nat) (m : WindowManager) : Transcript → WindowManager → Prop
  | refl : Talk id m {} m
  | send {d : Transcript} {m' : WindowManager} (bytes : Bytes) : Talk id m d m' →
      Talk id m { d with sent := d.sent ++ bytes } (m'.receive id bytes)
  | take {d : Transcript} {m' : WindowManager} : Talk id m d m' →
      Talk id m { d with taken := d.taken ++ (m'.stream id).outbox }
        { m' with host := m'.host.modifyConnection id fun s => s.takeOutbox.2 }
  | shutDown {d : Transcript} {m' : WindowManager} : Talk id m d m' →
      Talk id m d { m' with host := m'.host.modifyConnection id .shutDownPeer }
  | close {d : Transcript} {m' : WindowManager} : Talk id m d m' →
      Talk id m d { m' with host := m'.host.modifyConnection id .closePeer }
  | serve {d : Transcript} {m' m'' : WindowManager} {fd : Int} {arrived : Bytes}
      {intake : Intake} : Talk id m d m' → Serves m' fd id arrived intake m'' →
      Talk id m (d.wake arrived intake) m''
  | apart {d : Transcript} {m' m'' : WindowManager} : Talk id m d m' → Apart id m' m'' →
      Talk id m d m''

/-- A connection of which an unfinished line has been read, short enough to be kept. -/
structure Poised (id : Nat) (pending : Bytes) (m : WindowManager) : Prop where
  wired : m.IsWired
  known : id ∈ m.host.connections.ids
  unfinished : Bytes.newline ∉ pending
  short : pending.length ≤ maxLine
  heard : Heard id pending m.host.callers m.host.connections m.holding

/-- How far a client has come of which `read` was read. -/
inductive Course (id : Nat) (d : Transcript) (m : WindowManager) (read : Bytes) : Prop
  | goesOn : (∀ w ∈ d.wakeups, w.outcome = .drained) → (restOf read).length ≤ maxLine →
      Heard id read m.host.callers m.host.connections m.holding → Course id d m read
  | isOver (earlier : List Intake) (last : Intake) : d.wakeups = earlier ++ [last] →
      (∀ w ∈ earlier, w.outcome = .drained) →
      (last.outcome = .overlong ↔ maxLine < (restOf read).length) → Gone id m →
      Course id d m read

/-- How a connection stands of which `read` was read. At first it had brought `begun`, and `shown`
had been written to it. -/
structure Stands (id : Nat) (begun shown : Bytes) (d : Transcript) (m : WindowManager)
    (read : Bytes) : Prop where
  wired : m.IsWired
  known : id ∈ m.host.connections.ids
  bytes : begun ++ d.sent = read ++ (m.stream id).inbox
  lines : d.lines = texts read
  written : d.lost = [] →
    shown ++ d.replies.flatMap Stream.lineBytes = d.taken ++ (m.stream id).outbox
  course : Course id d m read

theorem Course.kept {d : Transcript} {read : Bytes} (known : id ∈ m.host.connections.ids)
    (kept : Kept id m m') (course : Course id d m read) : Course id d m' read := by
  cases course with
  | goesOn drained short heard => exact .goesOn drained short (kept.heard read heard)
  | isOver earlier last wakeups drained long gone =>
    exact .isOver earlier last wakeups drained long (kept.gone known gone)

namespace Stands

variable {begun shown read arrived : Bytes} {d : Transcript} {intake : Intake}

theorem of_poised {pending : Bytes} (poised : Poised id pending m) :
    Stands id (pending ++ (m.stream id).inbox) (m.stream id).outbox {} m pending where
  wired := poised.wired
  known := poised.known
  bytes := List.append_nil _
  lines := (texts_of_notMem poised.unfinished).symm
  written _ := List.append_nil _
  course := by
    refine .goesOn nofun ?_ poised.heard
    rw [(extract_of_notMem poised.unfinished).2]
    exact poised.short

/-- The client sends, takes or ends: a step `f` of its own, which adds to the transcript. -/
theorem own (stands : Stands id begun shown d m read) (f : Stream → Stream)
    {sent taken : Bytes} (inbox : (f (m.stream id)).inbox = (m.stream id).inbox ++ sent)
    (outbox : taken ++ (f (m.stream id)).outbox = (m.stream id).outbox) :
    Stands id begun shown { d with sent := d.sent ++ sent, taken := d.taken ++ taken }
      { m with host := m.host.modifyConnection id f } read := by
  have kept := Kept.modify stands.wired stands.known id f
  have now : stream { m with host := m.host.modifyConnection id f } id = f (m.stream id) :=
    StreamPool.get_modify_self stands.known f
  refine ⟨kept.wired, kept.known, ?_, stands.lines, fun all => ?_, ?_⟩
  · rw [now, inbox, ← List.append_assoc, ← List.append_assoc, stands.bytes]
  · rw [now, List.append_assoc, outbox]
    exact stands.written all
  · cases stands.course.kept stands.known kept with
    | goesOn drained short heard => exact .goesOn drained short heard
    | isOver earlier last wakeups drained long gone =>
      exact .isOver earlier last wakeups drained long gone

theorem apart (stands : Stands id begun shown d m read) (apart : Apart id m m') :
    Stands id begun shown d m' read := by
  obtain ⟨kept, same⟩ := apart.kept stands.wired stands.known
  refine ⟨kept.wired, kept.known, same ▸ stands.bytes, stands.lines, same ▸ stands.written, ?_⟩
  exact stands.course.kept stands.known kept

/-- Only a client that goes on is there to be read, and what it holds is the rest. -/
theorem took {client : Client} (stands : Stands id begun shown d m read)
    (found : m.holding.set.clients.get? fd = some client)
    (here : m.holding.table.streamAt? fd = some id)
    (reads : Intake.Reads client.lines (m.stream id) arrived intake) :
    (∀ w ∈ d.wakeups, w.outcome = .drained) ∧ (restOf read).length ≤ maxLine ∧
      ∃ got, Intake.Took (restOf read) (m.stream id) arrived intake got := by
  cases stands.course with
  | isOver _ _ _ _ _ gone => exact absurd here (gone.nobody fd client found)
  | goesOn drained short heard =>
    have rest := heard.pending fd client found here
    have framed : Bytes.newline ∉ client.lines.pending := by
      rw [rest]
      exact newline_notMem_restOf read
    refine ⟨drained, short, ?_⟩
    rw [← rest]
    exact reads.took framed

/-- The client is served. -/
theorem serve (stands : Stands id begun shown d m read)
    (serves : Serves m fd id arrived intake m') :
    ∃ read', Stands id begun shown (d.wake arrived intake) m' read' := by
  obtain ⟨client, found, reads⟩ := serves.reads
  obtain ⟨drained, short, got, took⟩ := stands.took found serves.here reads
  have kept := serves.kept stands.wired stands.known
  have now := serves.stream stands.wired
  refine ⟨read ++ got, kept.wired, kept.known, ?_, ?_, fun all => ?_, ?_⟩
  · calc begun ++ (d.sent ++ arrived)
      _ = read ++ ((m.stream id).inbox ++ arrived) := by
        rw [← List.append_assoc, stands.bytes, List.append_assoc]
      _ = read ++ got ++ (m'.stream id).inbox := by
        rw [took.bytes, List.append_assoc, now, Stream.inbox_writeLines]
  · rw [Transcript.lines_wake, stands.lines, texts_append, took.lines]
  · obtain ⟨before, after⟩ := List.append_eq_nil_iff.mp all
    have untouched : intake.stream.outbox = (m.stream id).outbox := by rw [took.output]
    rw [now, Stream.outbox_writeLines after, untouched, Transcript.replies_wake,
      List.flatMap_append, ← List.append_assoc, ← List.append_assoc, stands.written before]
    rfl
  · have long := took.long short
    rw [← restOf_append] at long
    by_cases onward : intake.outcome = .drained
    · refine .goesOn ?_ ?_ (serves.heard stands.wired ?_)
      · refine List.forall_mem_append.mpr ⟨drained, fun w member => ?_⟩
        rw [List.mem_singleton.mp member]
        exact onward
      · refine Nat.not_lt.mp fun longer => ?_
        cases onward.symm.trans (long.mpr longer)
      · rw [restOf_append]
        exact took.rest (onward ▸ nofun)
    · exact .isOver d.wakeups intake rfl drained long (serves.gone stands.wired onward)

end Stands

/-- How the connection stands at each time. -/
theorem stands_of_talk {pending : Bytes} {d : Transcript} (poised : Poised id pending m)
    (talk : Talk id m d m') :
    ∃ read, Stands id (pending ++ (m.stream id).inbox) (m.stream id).outbox d m' read := by
  induction talk with
  | refl => exact ⟨pending, .of_poised poised⟩
  | send bytes _ ih =>
    obtain ⟨read, stands⟩ := ih
    have after := stands.own (fun s => s.receive bytes) rfl (List.nil_append _)
    rw [List.append_nil] at after
    exact ⟨read, after⟩
  | take _ ih =>
    obtain ⟨read, stands⟩ := ih
    have after := stands.own (fun s => s.takeOutbox.2) (List.append_nil _).symm
      (List.append_nil _)
    rw [List.append_nil] at after
    exact ⟨read, after⟩
  | shutDown _ ih =>
    obtain ⟨read, stands⟩ := ih
    have after := stands.own Stream.shutDownPeer (List.append_nil _).symm (List.nil_append _)
    rw [List.append_nil, List.append_nil] at after
    exact ⟨read, after⟩
  | close _ ih =>
    obtain ⟨read, stands⟩ := ih
    have after := stands.own Stream.closePeer (List.append_nil _).symm (List.nil_append _)
    rw [List.append_nil, List.append_nil] at after
    exact ⟨read, after⟩
  | serve _ serves ih =>
    obtain ⟨read, stands⟩ := ih
    exact stands.serve serves
  | apart _ aside ih =>
    obtain ⟨read, stands⟩ := ih
    exact ⟨read, stands.apart aside⟩

/-- Whatever the manager attends to is a part of a talk. -/
theorem Talk.attend {d : Transcript} {m'' : WindowManager} {ready : Ready} (talk : Talk id m d m')
    (attended : m'.attend ready = .ok m'') : ∃ d', Talk id m d' m'' := by
  by_cases client : ∃ fd, ready = .client fd
  · obtain ⟨fd, rfl⟩ := client
    rcases serves_of_serveClient attended with rfl | ⟨client, n, _, serves⟩
    · exact ⟨d, talk⟩
    · by_cases same : id = n
      · subst same
        exact ⟨_, talk.serve serves⟩
      · exact ⟨d, talk.apart (.serve same serves)⟩
  · exact ⟨d, talk.apart (.attend (not_exists.mp client) attended)⟩

theorem Talk.attendAll {d : Transcript} {m'' : WindowManager} {ready : List Ready}
    (talk : Talk id m d m') (attended : m'.attendAll ready = .ok m'') :
    ∃ d', Talk id m d' m'' := by
  induction ready generalizing d m' with
  | nil =>
    cases attended
    exact ⟨d, talk⟩
  | cons first rest ih =>
    rw [WindowManager.attendAll] at attended
    split at attended
    · cases attended
    · next done attend =>
      obtain ⟨d', talk'⟩ := talk.attend attend
      exact ih talk' attended

/-- A round of the loop is a part of a talk. -/
theorem Talk.round {d : Transcript} {m'' : WindowManager} {ready : List Ready}
    (talk : Talk id m d m') (rounded : m'.round ready = .ok m'') : ∃ d', Talk id m d' m'' := by
  rw [WindowManager.round] at rounded
  split at rounded
  · cases rounded
  · next done attended =>
    obtain ⟨d', talk'⟩ := talk.attendAll attended
    exact ⟨d', talk'.apart (.endRound rounded)⟩

end WindowManager

end Succession
