import Succession.Proofs.Request.Limit
import Succession.Proofs.Text.Trimming
import Succession.Proofs.WindowManager.ReplyOrder
import Succession.Request.Exchange

/-!
# One call of a client

A client trims a command, sends it with a line feed behind it, and takes the first line that comes
back as the reply.

1. What arrives are the pieces of the trimmed command between its line feeds, each as a line
   (`requestsIn`, `linesOf_requestBytes`). If none of them is longer than the limit, they come out
   however the bytes are divided (`fits_of_short`).
2. Each of them is answered, and the answer to the first is what the client reads
   (`readReply_lineBytes`).
3. So a command is one request exactly if there is no line feed in it (`call_is_one_request_iff`).
   With a line feed it is several, and the instance does what each of them asks for
   (`one_call_makes_two_requests`).
-/

namespace Succession.Exchange

open PartialLine Request WindowManager

variable {command : String}

/-! ## 1. What a call sends -/

/-- The requests that a call makes: what stands between the line feeds of the trimmed command. -/
def requestsIn (command : String) : List String :=
  ((Text.trim command).toList.splitOn '\n').map String.ofList

/-- A text with a line feed behind it is read as its pieces between line feeds. -/
theorem extract_text (text : List Char) :
    linesOf (Utf8.encodeChars text ++ [Bytes.newline]) =
        (text.splitOn '\n').map Utf8.encodeChars ∧
      restOf (Utf8.encodeChars text ++ [Bytes.newline]) = [] := by
  have plain {line : List Char} (single : '\n' ∉ line) : Bytes.newline ∉ Utf8.encodeChars line := by
    have open' := @Utf8.newline_notMem_encode (String.ofList line)
    rw [Utf8.encode, String.toList_ofList] at open'
    exact open' single
  by_cases some : '\n' ∈ text
  · obtain ⟨before, after, rfl, single⟩ := List.eq_append_cons_of_mem some
    have cut : Utf8.encodeChars (before ++ '\n' :: after) ++ [Bytes.newline] =
        Utf8.encodeChars before ++
          Bytes.newline :: (Utf8.encodeChars after ++ [Bytes.newline]) := by
      rw [Utf8.encodeChars_append, Utf8.encodeChars_cons, List.append_assoc, List.append_assoc]
      rfl
    obtain ⟨lines, rest⟩ := extract_line (plain single) (Utf8.encodeChars after ++ [Bytes.newline])
    obtain ⟨others, behind⟩ := extract_text after
    rw [cut, lines, rest, others, behind, List.splitOn_append_cons_self_of_not_mem single]
    exact ⟨rfl, rfl⟩
  · obtain ⟨lines, rest⟩ := extract_line (plain some) []
    rw [lines, rest, List.splitOn_eq_singleton some]
    exact ⟨rfl, rfl⟩
termination_by text.length
decreasing_by
  subst_vars
  rw [List.length_append, List.length_cons]
  omega

/-- What a call sends are its requests, each a line. -/
theorem linesOf_requestBytes (command : String) :
    linesOf (requestBytes command) = (requestsIn command).map Utf8.encode ∧
      restOf (requestBytes command) = [] := by
  obtain ⟨lines, rest⟩ := extract_text (Text.trim command).toList
  refine ⟨lines.trans ?_, rest⟩
  rw [requestsIn, List.map_map]
  refine List.map_congr_left fun piece _ => ?_
  rw [Function.comp_apply, Utf8.encode, String.toList_ofList]

theorem texts_requestBytes (command : String) :
    texts (requestBytes command) = requestsIn command := by
  rw [texts, (linesOf_requestBytes command).1, List.map_map]
  exact List.map_id'' Utf8.lossy_encode _

/-- A call makes one request exactly if the trimmed command holds no line feed. -/
theorem requestsIn_eq_singleton :
    requestsIn command = [Text.trim command] ↔ '\n' ∉ (Text.trim command).toList := by
  constructor
  · intro single some
    obtain ⟨before, after, split, first⟩ := List.eq_append_cons_of_mem some
    rw [requestsIn, split, List.splitOn_append_cons_self_of_not_mem first, List.map_cons] at single
    have none := List.map_eq_nil_iff.mp (List.cons.inj single).2
    exact List.splitOn_ne_nil _ _ none
  · intro none
    rw [requestsIn, List.splitOn_eq_singleton none, List.map_singleton, String.ofList_toList]

/-- No request of a call is longer than the limit. -/
def Short (command : String) : Prop :=
  ∀ request ∈ requestsIn command, (Utf8.encode request).length ≤ maxLine

/-- Then nothing that is open at some place of the bytes is. -/
theorem Short.restOf_le (short : Short command) {front back : Bytes}
    (whole : front ++ back = requestBytes command) : (restOf front).length ≤ maxLine := by
  obtain ⟨line, found, longer⟩ := exists_longer_line front back
  obtain ⟨lines, rest⟩ := linesOf_requestBytes command
  rw [whole, lines, rest] at found
  refine Nat.le_trans longer ?_
  rcases found with member | rfl
  · obtain ⟨request, within, rfl⟩ := List.mem_map.mp member
    exact short request within
  · exact Nat.zero_le _

theorem fits_of_short (short : Short command) {chunks : List Bytes}
    (whole : chunks.flatten = requestBytes command) : Fits {} chunks := by
  rintro front ⟨back, rfl⟩
  rw [List.flatten_append] at whole
  exact short.restOf_le whole

/-- The bytes of a call, in whichever chunks they come, bring one request. -/
def BringsOne (command : String) : Prop :=
  ∀ chunks : List Bytes, chunks.flatten = requestBytes command →
    none ∉ (({} : PartialLine).pushAll chunks).1 ∧
      delivered (({} : PartialLine).pushAll chunks).1 = [Text.trim command]

/-- As long as no push fails, the requests come out. -/
theorem delivered_of_call {chunks : List Bytes} (whole : chunks.flatten = requestBytes command)
    (fine : none ∉ (({} : PartialLine).pushAll chunks).1) :
    delivered (({} : PartialLine).pushAll chunks).1 = requestsIn command := by
  rcases outcome_cases chunks with ⟨_, _, lines⟩ | ⟨_, _, _, _, _, _, failed, _⟩
  · rw [lines, whole, texts_requestBytes]
  · exact absurd failed fine

theorem fine_of_fits {chunks : List Bytes} (fits : Fits {} chunks) :
    none ∉ (({} : PartialLine).pushAll chunks).1 := by
  obtain ⟨lists, all, _⟩ := pushAll_of_fits List.not_mem_nil fits
  rw [all]
  simp

theorem bringsOne_iff :
    BringsOne command ↔
      '\n' ∉ (Text.trim command).toList ∧ (Utf8.encode (Text.trim command)).length ≤ maxLine := by
  constructor
  · intro brings
    have whole : [requestBytes command].flatten = requestBytes command := List.flatten_singleton
    obtain ⟨fine, single⟩ := brings _ whole
    have none := requestsIn_eq_singleton.mp ((delivered_of_call whole fine).symm.trans single)
    refine ⟨none, Nat.not_lt.mp fun long => ?_⟩
    -- Where the line feed comes apart, the line is refused.
    have apart : [Utf8.encode (Text.trim command), [Bytes.newline]].flatten =
        requestBytes command := by
      rw [requestBytes, List.flatten_cons, List.flatten_singleton]
    refine (brings _ apart).1 ?_
    rw [pushAll_line_apart (Utf8.newline_notMem_encode none) long]
    exact List.mem_cons_self
  · rintro ⟨none, fits⟩ chunks whole
    have single := requestsIn_eq_singleton.mpr none
    have short : Short command := fun request member => by
      rw [single, List.mem_singleton] at member
      rw [member]
      exact fits
    have fine := fine_of_fits (fits_of_short short whole)
    exact ⟨fine, (delivered_of_call whole fine).trans single⟩

/-- The trimmed command asks for what the command does. -/
theorem parse_trim (command : String) : parse (Text.trim command) = parse command := by
  unfold parse
  rw [Text.trim_trim]

/-! ## 2. What a call reads -/

theorem firstLine_line {line : Bytes} (open' : Bytes.newline ∉ line) (more : Bytes) :
    firstLine (line ++ Bytes.newline :: more) = line ++ [Bytes.newline] := by
  induction line with
  | nil => exact if_pos rfl
  | cons b rest ih =>
    obtain ⟨other, later⟩ := List.ne_and_not_mem_of_not_mem_cons open'
    rw [List.cons_append, firstLine, if_neg (Ne.symm other), ih later]
    rfl

theorem trimEnd_of_visible {c : Char} (visible : Text.isBlank c = false) (front : List Char) :
    Text.trimEnd (front ++ [c]) = front ++ [c] := by
  rw [Text.trimEnd, List.reverse_append, List.reverse_singleton, List.singleton_append,
    List.dropWhile_cons_of_neg (by rw [visible]; decide), List.reverse_cons, List.reverse_reverse]

/-- The first line is what is read, if its end is not blank. -/
theorem readReply_lineBytes {text : String} (plain : Bytes.newline ∉ Utf8.encode text)
    (closed : Text.trimEnd text.toList = text.toList) (more : Bytes) :
    readReply (Stream.lineBytes text ++ more) = .ok text := by
  have blank : Text.AllBlank ['\n'] := List.forall_mem_singleton.mpr rfl
  have first : firstLine (Stream.lineBytes text ++ more) =
      Utf8.encodeChars (text.toList ++ ['\n']) := by
    rw [Stream.lineBytes, List.append_assoc, List.singleton_append, firstLine_line plain,
      Utf8.encodeChars_append]
    rfl
  rw [readReply, first, Utf8.decode?_encodeChars]
  split
  · next impossible => cases impossible
  · next nothing =>
    have empty := congrArg String.toList (Option.some.inj nothing)
    rw [String.toList_ofList] at empty
    exact absurd empty (List.append_ne_nil_of_right_ne_nil _ (List.cons_ne_nil _ _))
  · next line read =>
    cases read
    rw [String.toList_ofList, Text.trimEnd_append_blanks blank, closed, String.ofList_toList]

/-- No answer ends with a blank. -/
theorem trimEnd_answerTo (line : String) :
    Text.trimEnd (answerTo line).toList = (answerTo line).toList := by
  unfold answerTo
  split
  · decide +kernel
  · decide +kernel
  · decide +kernel
  · decide +kernel
  · next fault failed =>
    rcases fault_of_parse failed with rfl | rfl
    · decide +kernel
    · -- The line is quoted, and a bracket ends the list of what is supported.
      have last : "` (supported: restart, exit, version, ping)".toList =
          "` (supported: restart, exit, version, ping".toList ++ [')'] := by decide +kernel
      unfold RequestFault.message
      rw [String.toList_append, last, ← List.append_assoc]
      exact trimEnd_of_visible (by decide) _

/-! ## 3. A call and the instance that runs -/

/-- A client has connected, and nothing has passed yet. -/
structure Fresh (id : Nat) (m : WindowManager) : Prop where
  poised : Poised id [] m
  unread : (m.stream id).inbox = []
  unsaid : (m.stream id).outbox = []

/-- How the instance deals with a call: its requests are dealt with in their order, each is
answered, and the answer to the first is what the call reads. The next wakeup brings all that are
left. If one of them asks for a restart, the image is replaced, and otherwise all have been dealt
with then. -/
structure Answered (command : String) (id : Nat) (m : WindowManager) (d : Transcript)
    (m' : WindowManager) : Prop where
  lines : d.lines <+: requestsIn command
  all : (m'.stream id).inbox = [] → d.lines = requestsIn command
  replies : d.replies = d.lines.map answerTo
  reply : d.lost = [] → d.lines ≠ [] → ∃ first others, requestsIn command = first :: others ∧
    readReply (d.taken ++ (m'.stream id).outbox) = .ok (answerTo first)
  onward : ∀ fd client, m'.holding.set.clients.get? fd = some client →
    m'.holding.table.streamAt? fd = some id →
    let intake := Intake.read client.lines (m'.stream id)
    (d.wake [] intake).lines = requestsIn command ∧
      ((∃ m'', m'.serveWith fd id intake = .ok m'' ∧ Talk id m (d.wake [] intake) m'') ∨
        (∃ request ∈ requestsIn command, isRestart request = true) ∧
          ∃ m₁ : WindowManager, m'.serveWith fd id intake = .error (m₁.replaceImage (some fd)))

variable {m m' : WindowManager} {id : Nat} {d : Transcript} {read : Bytes}

theorem lines_of_stands (stands : Stands id [] [] d m' read)
    (sent : d.sent = requestBytes command) :
    d.lines <+: requestsIn command ∧
      ((m'.stream id).inbox = [] → d.lines = requestsIn command) := by
  have bytes := stands.bytes
  rw [List.nil_append, sent] at bytes
  rw [stands.lines, ← texts_requestBytes, bytes, texts_append]
  refine ⟨List.prefix_append _ _, fun all => ?_⟩
  rw [all, List.append_nil, texts_of_notMem (newline_notMem_restOf read), List.append_nil]

theorem reply_of_stands (stands : Stands id [] [] d m' read)
    (sent : d.sent = requestBytes command) (replies : d.replies = d.lines.map answerTo)
    (kept : d.lost = []) (some : d.lines ≠ []) :
    ∃ first others, requestsIn command = first :: others ∧
      readReply (d.taken ++ (m'.stream id).outbox) = .ok (answerTo first) := by
  obtain ⟨first, later, split⟩ := List.exists_cons_of_ne_nil some
  obtain ⟨behind, whole⟩ := (lines_of_stands stands sent).1
  have member : first ∈ texts read := by
    rw [← stands.lines, split]
    exact List.mem_cons_self
  refine ⟨first, later ++ behind, by rw [← whole, split]; rfl, ?_⟩
  rw [← stands.written kept, List.nil_append, replies, split, List.map_cons, List.flatMap_cons]
  exact readReply_lineBytes (newline_notMem_answerTo member) (trimEnd_answerTo first) _

/-- Where no request is too long, a wakeup brings all that are left. -/
theorem lines_of_wake {fd : Int} {client : Client} (short : Short command)
    (stands : Stands id [] [] d m' read) (sent : d.sent = requestBytes command)
    (found : m'.holding.set.clients.get? fd = some client)
    (here : m'.holding.table.streamAt? fd = some id) :
    (d.wake [] (Intake.read client.lines (m'.stream id))).lines = requestsIn command := by
  obtain ⟨_, kept, got, took⟩ := stands.took found here (Intake.reads_read _ _)
  have bytes : (m'.stream id).inbox =
      got ++ (Intake.read client.lines (m'.stream id)).stream.inbox := by
    rw [← took.bytes, List.append_nil]
  have whole : requestBytes command =
      read ++ got ++ (Intake.read client.lines (m'.stream id)).stream.inbox := by
    rw [← sent, ← List.nil_append d.sent, stands.bytes, bytes, List.append_assoc]
  have fine : (Intake.read client.lines (m'.stream id)).outcome ≠ .overlong := by
    rw [ne_eq, took.long kept, ← restOf_append, Nat.not_lt]
    exact short.restOf_le whole.symm
  rw [Transcript.lines_wake, stands.lines, took.lines, ← texts_append, ← texts_requestBytes, whole,
    took.all fine, List.append_nil]

/-- Where no request is too long, a call is answered. -/
theorem answered_of_talk (short : Short command) (fresh : Fresh id m) (talk : Talk id m d m')
    (sent : d.sent = requestBytes command) : Answered command id m d m' := by
  obtain ⟨read, stands⟩ := stands_of_talk fresh.poised talk
  rw [fresh.unread, fresh.unsaid, List.nil_append] at stands
  have whole : read ++ (m'.stream id).inbox = requestBytes command := by
    rw [← stands.bytes, List.nil_append, sent]
  have replies := stands.replies_of_short (short.restOf_le whole)
  obtain ⟨lines, all⟩ := lines_of_stands stands sent
  refine ⟨lines, all, replies, reply_of_stands stands sent replies, fun fd client found here => ?_⟩
  intro intake
  have requests := lines_of_wake short stands sent found here
  refine ⟨requests, ?_⟩
  cases served : m'.serveWith fd id intake with
  | ok m'' =>
    exact .inl ⟨m'', rfl, talk.serve ⟨⟨client, found, Intake.reads_read _ _⟩, here, served⟩⟩
  | error departure =>
    rw [serveWith] at served
    split at served
    · next gone handled =>
      cases served
      obtain ⟨front, line, m₁, cut, _, departs⟩ := handleLines_error handled
      obtain ⟨restart, departed⟩ := handleLine_error departs
      obtain ⟨behind, read⟩ := exists_behind intake.lines
      refine .inr ⟨⟨line, ?_, restart⟩, m₁, congrArg Except.error departed⟩
      rw [← requests, Transcript.lines_wake]
      refine List.mem_append_right _ ?_
      rw [read, cut]
      exact List.mem_append_left _ (List.mem_append_right _ List.mem_cons_self)
    · cases served

/-- **A call is one request if no line feed is in it, and several otherwise.** However the bytes of
a call are divided, they bring the trimmed command as one line exactly if it holds no line feed and
is no longer than the limit, and the trimmed command asks for what the command does. In general the
pieces between the line feeds come out, each a request of its own, and where none is too long, the
instance deals with all of them and the call reads the answer to the first. -/
theorem call_is_one_request_iff (command : String) :
    (BringsOne command ↔
      '\n' ∉ (Text.trim command).toList ∧ (Utf8.encode (Text.trim command)).length ≤ maxLine) ∧
    parse (Text.trim command) = parse command ∧
    (∀ chunks : List Bytes, chunks.flatten = requestBytes command →
      none ∉ (({} : PartialLine).pushAll chunks).1 →
      delivered (({} : PartialLine).pushAll chunks).1 = requestsIn command) ∧
    (requestsIn command = [Text.trim command] ↔ '\n' ∉ (Text.trim command).toList) ∧
    (∀ request ∈ requestsIn command, ∀ more,
      readReply (Stream.lineBytes (answerTo request) ++ more) = .ok (answerTo request)) ∧
    (Short command → ∀ m m' id d, Fresh id m → Talk id m d m' → d.sent = requestBytes command →
      Answered command id m d m') :=
  ⟨bringsOne_iff, parse_trim command, fun _ whole fine => delivered_of_call whole fine,
    requestsIn_eq_singleton, fun _ member more =>
    readReply_lineBytes (newline_notMem_answerTo (texts_requestBytes command ▸ member))
      (trimEnd_answerTo _) more, fun short _ _ _ _ fresh talk sent =>
    answered_of_talk short fresh talk sent⟩

/-- A call with a blank at each end is served. -/
theorem exists_talk_ping :
    ∃ d m', Talk 0 (spokenTo []) d m' ∧ d.sent = requestBytes " ping\t" ∧ d.lost = [] ∧
      d.lines = ["ping"] := by
  let m := (spokenTo []).receive 0 (requestBytes " ping\t")
  let intake := Intake.read {} (m.stream 0)
  have gone : (m.serveWith 5 0 intake).toOption.isSome = true := by decide +kernel
  obtain ⟨m', served⟩ := Option.isSome_iff_exists.mp gone
  have serves : Serves m 5 0 [] intake m' :=
    ⟨⟨⟨.localBind, {}⟩, rfl, Intake.reads_read _ _⟩, rfl, toOption_eq_some.mp served⟩
  refine ⟨_, m', (Talk.refl.send (requestBytes " ping\t")).serve serves, ?_, ?_, ?_⟩
  all_goals decide +kernel

/-- The call reads the answer to its request. -/
theorem call_is_one_request_of_ping :
    BringsOne " ping\t" ∧ Fresh 0 (spokenTo []) ∧
      ∃ d m', Talk 0 (spokenTo []) d m' ∧ d.sent = requestBytes " ping\t" ∧
        readReply (d.taken ++ (m'.stream 0).outbox) = .ok Reply.pong := by
  obtain ⟨brings, _, _, _, _, answered⟩ := call_is_one_request_iff " ping\t"
  have fresh : Fresh 0 (spokenTo []) := ⟨poised_spokenTo [], rfl, rfl⟩
  have short : Short " ping\t" := by
    unfold Short
    decide +kernel
  obtain ⟨d, m', talk, sent, kept, lines⟩ := exists_talk_ping
  refine ⟨brings.mpr (by decide +kernel), fresh, d, m', talk, sent, ?_⟩
  obtain ⟨first, others, requests, reply⟩ :=
    (answered short _ _ _ _ fresh talk sent).reply kept (by rw [lines]; nofun)
  have single : requestsIn " ping\t" = ["ping"] := by decide +kernel
  cases single.symm.trans requests
  exact reply.trans (by decide +kernel)

/-- A command with a line feed in it is no request, but a call makes two requests of it. The
instance answers the first and ends at the second. -/
theorem one_call_makes_two_requests :
    parse "ping\nexit" = .error (.unsupported "ping\nexit") ∧ ¬BringsOne "ping\nexit" ∧
      (({} : PartialLine).pushAll [requestBytes "ping\nexit"]).1 = [some ["ping", "exit"]] ∧
      parse "ping" = .ok .ping ∧ parse "exit" = .ok .exit ∧
      ∃ m', (spokenTo (requestBytes "ping\nexit")).attend (.client 5) = .ok m' ∧
        readReply (m'.stream 0).outbox = .ok Reply.pong ∧ m'.exitStatus = some 0 := by
  have several : ¬BringsOne "ping\nexit" := fun brings =>
    (bringsOne_iff.mp brings).1 (by decide +kernel)
  refine ⟨by decide +kernel, several, by decide +kernel, by decide +kernel, by decide +kernel, ?_⟩
  let m := spokenTo (requestBytes "ping\nexit")
  have goes : (m.attend (.client 5)).toOption.isSome = true := by decide +kernel
  obtain ⟨m', went⟩ := Option.isSome_iff_exists.mp goes
  have same : m' = (m.attend (.client 5)).toOption.getD m := (congrArg (Option.getD · m) went).symm
  refine ⟨m', toOption_eq_some.mp went, ?_⟩
  rw [same]
  exact ⟨by decide +kernel, by decide +kernel⟩

end Succession.Exchange
