import Succession.Proofs.Outcome
import Succession.Proofs.WindowManager.Beginning

/-!
# Requests across a restart

The next image takes up each connection where the image before it stopped reading, and it begins a
line there. What the image before has read and not dealt with is gone: the partial line of each
client, and of the one that asked for the restart all that was read behind that line
(`requests_across_restart`).
-/

namespace Succession.WindowManager

open PartialLine Request

theorem quiet_saveOrder (m : WindowManager) : Quiet m m.saveOrder.2 := by
  unfold saveOrder
  dsimp only
  split
  · exact ⟨rfl, .files m.host _⟩
  · exact ⟨rfl, .files m.host _⟩

/-- What is handed on keeps all connections with the bytes that nobody has read. -/
theorem handedOn_of_replaceImage {m : WindowManager} {requester : Option Int} {next : Birth}
    (gone : m.replaceImage requester = .replaced next) :
    m.host.Alike next.host ∧ next.table.Within m.holding.table := by
  have saved := quiet_saveOrder (m.enter .restartRequested)
  unfold replaceImage at gone
  generalize (m.enter .restartRequested).saveOrder = outcome at saved gone
  obtain ⟨snapshot, m'⟩ := outcome
  obtain ⟨holding, host⟩ := saved
  dsimp only at holding host gone
  split at gone
  · cases gone
  · split at gone
    · cases gone
    · cases gone
      -- Descriptors are kept open first, and then the replacement closes the others.
      refine ⟨host, ?_⟩
      have within := (DescriptorTable.Within.afterExec _).trans
        (Holding.within_keepOpen m'.holding.table m'.holding.set.entries)
      exact within.trans (holding ▸ .refl _)

/-- An image is replaced only while it serves a client. -/
theorem client_of_replaced {m : WindowManager} {ready : Ready} {next : Birth}
    (gone : m.attend ready = .error (.replaced next)) :
    ∃ fd, ready = .client fd ∧ m.serveClient fd = .error (.replaced next) := by
  cases ready with
  | client fd => exact ⟨fd, rfl, gone⟩
  | listener fd => cases gone
  | signal number => cases gone
  | display =>
    rcases attend_display_cases m with ⟨remains, failed⟩ | ⟨done, went, _⟩
    · cases failed.symm.trans gone
    · cases went.symm.trans gone

/-- Where an image is replaced, it has dealt with the complete lines of what it has read, up to the
first that asked for a restart. All that it has not read is handed on. -/
theorem flow_replaced {m : WindowManager} {ready : Ready} {next : Birth} (wired : m.IsWired)
    (gone : m.attend ready = .error (.replaced next)) :
    next.IsWired ∧ ∀ n stream lines, Flow n stream lines m →
      ∃ read, stream = read ++ (next.host.connections.get n).inbox ∧
        lines ++ saidBy n (m.heard ready) = upToRestart (texts read) := by
  obtain ⟨fd, rfl, serving⟩ := client_of_replaced gone
  rcases serveClient_cases m fd with ⟨idle, _⟩ | ⟨client, id, found, here, spoken, served⟩
  · rw [idle] at serving
    cases serving
  · rw [served] at serving
    split at serving
    · next departure handled =>
      cases serving
      obtain ⟨_, _, last, _, others, gone⟩ := handleLines_error handled
      obtain ⟨_, quiet⟩ := handleLines_ok others
      obtain ⟨host, within⟩ := handedOn_of_replaceImage (handleLine_error gone).2.symm
      have wired' := (@wired_takeIn m fd id wired _).quiet quiet
      refine ⟨?_, fun n stream lines flow => ?_⟩
      · rw [Birth.IsWired, callers_of_alike host]
        exact wired'.mono host.ids host.next within
      · have unread := (host.inbox n).trans (quiet.host.inbox n)
        rw [spoken, unread]
        have calm := flow.calm
        by_cases differs : n = id
        · subst differs
          obtain ⟨read, whole, same, _⟩ := flow_takeIn_self wired found here flow
          refine ⟨read, whole, ?_⟩
          rw [saidBy_self, ← same, upToRestart_append calm]
        · obtain ⟨read, whole, same, _⟩ := flow_takeIn_ne here differs _ flow
          refine ⟨read, whole, ?_⟩
          rw [saidBy_ne differs, List.append_nil, ← same, upToRestart_of_calm calm]
    · cases serving

theorem texts_eq_append {bytes : Bytes} {taken behind : List String}
    (lines : texts bytes = taken ++ behind) :
    ∃ used dropped, bytes = used ++ dropped ∧ texts used = taken ∧ restOf used = [] ∧
      texts dropped = behind := by
  obtain ⟨front, back, cut, first, second⟩ := List.map_eq_append_iff.mp lines
  obtain ⟨used, dropped, same, here, ended, there⟩ := cut_of_linesOf cut
  exact ⟨used, dropped, same, by rw [texts, here, first], ended, by rw [texts, there, second]⟩

/-- **A restart costs a client exactly what the image before had read of its stream and not dealt
with.** An image lives from its birth until it is replaced while it attends to something, and the
next image lives from then on; clients come, send and are attended to in any order. No two
descriptors of the first image are the same connection. For each connection

* the stream is what the image before dealt with (`used`), what it had read besides (`dropped`),
  what the next image has read (`later`) and what is still unread;
* the lines that the two images deal with are the complete lines of `used` and of `later`, which are
  those of the stream without `dropped`; they are those of the whole stream if and only if `dropped`
  brings no line of its own and is no part of the first line of `later`;
* the image before dealt with the complete lines of what it had read, up to the first that asked for
  a restart; if this connection did not ask for it, `dropped` is only the beginning of a line. -/
theorem requests_across_restart {b next : Birth} {m m₁ m₂ m₃ : WindowManager} {ready : Ready}
    {sent sent' : List (Nat × Bytes)} {log log' : List (Nat × String)} (wired : b.IsWired)
    (first : Process.launch b = .running m) (before : Run m sent log m₁)
    (restart : m₁.attend ready = .error (.replaced next))
    (second : Process.launch next = .running m₂) (after : Run m₂ sent' log' m₃) (id : Nat) :
    next.IsWired ∧ ∃ used dropped later,
      (b.host.connections.get id).inbox ++ sentTo id sent =
        used ++ dropped ++ (next.host.connections.get id).inbox ∧
      (next.host.connections.get id).inbox ++ sentTo id sent' =
        later ++ (m₃.host.connections.get id).inbox ∧
      saidBy id (log ++ m₁.heard ready) = texts used ∧ restOf used = [] ∧
      saidBy id log' = texts later ∧
      saidBy id (log ++ m₁.heard ready) ++ saidBy id log' = texts (used ++ later) ∧
      (saidBy id (log ++ m₁.heard ready) ++ saidBy id log' = texts (used ++ dropped ++ later) ↔
        texts (dropped ++ later) = texts later) ∧
      saidBy id (log ++ m₁.heard ready) = upToRestart (texts (used ++ dropped)) ∧
      ((∀ line ∈ saidBy id (log ++ m₁.heard ready), isRestart line = false) →
        Bytes.newline ∉ dropped) := by
  have begun := begun_launch first
  obtain ⟨wired₁, onward⟩ := flow_of_run (begun.isWired wired) before
  obtain ⟨nextWired, departs⟩ := flow_replaced wired₁ restart
  obtain ⟨read, whole, spoken⟩ := departs id _ _ (onward id _ (begun.flow id))
  have begun' := begun_launch second
  obtain ⟨_, onward'⟩ := flow_of_run (begun'.isWired nextWired) after
  obtain ⟨later, whole', spoken', _⟩ := onward' id _ (begun'.flow id)
  rw [← saidBy_append] at spoken
  -- What was read is cut behind the line at which the image stopped.
  obtain ⟨behind, cut⟩ := exists_behind (texts read)
  obtain ⟨used, dropped, rfl, heard, ended, unheard⟩ := texts_eq_append cut
  have old : saidBy id (log ++ m₁.heard ready) = texts used := spoken.trans heard.symm
  have together (bytes : Bytes) : texts (used ++ bytes) = texts used ++ texts bytes := by
    rw [texts_append, ended]
    rfl
  refine ⟨nextWired, used, dropped, later, whole, whole', old, ended, spoken', ?_, ?_, spoken, ?_⟩
  · rw [old, spoken', together]
  · rw [old, spoken', List.append_assoc, together, List.append_cancel_left_eq]
    exact eq_comm
  · intro calm
    -- No line asked for the restart, so all that were read have been dealt with.
    rw [spoken] at calm
    rw [upToRestart_eq_self calm, List.self_eq_append_right] at cut
    exact notMem_of_linesOf (List.map_eq_nil_iff.mp (unheard.trans cut))

/-! ## Two clients -/

/-- A process with two clients. The first has asked for a restart and, in the same breath, for a
sign of life. The second is in the middle of a word. -/
def twoClients : Birth where
  host :=
    { files := {}
      connections :=
        { entries := [(0, { inbox := Bytes.ofString "restart\nping\n" }),
            (1, { inbox := Bytes.ofString "ver" })]
          next := 2 }
      programs := [Bytes.ofString "kestrel"]
      pid := 7 }
  table := ⟨(FdMap.insert {} 5 ⟨.stream 0, false⟩).insert 6 ⟨.stream 1, false⟩, []⟩
  environment :=
    (({} : Environment).set displayVariable (Bytes.ofString ":0")).set Inheritance.manifestVariable
      (Bytes.ofString ((Manifest.encode
        ⟨[⟨5, .client, .localBind, none⟩, ⟨6, .client, .localBind, none⟩]⟩).toOption.getD ""))
  arguments := [Bytes.ofString "kestrel"]

/-- The manager of a process that runs. -/
def managerOf? : Process → Option WindowManager
  | .running m => some m
  | .ended _ => none

/-- What the next image finds, if there is one. -/
def successorOf? : Except Departure WindowManager → Option Birth
  | .error (.replaced next) => some next
  | _ => none

theorem managerOf?_eq_some {p : Process} {m : WindowManager} :
    managerOf? p = some m ↔ p = .running m := by
  cases p with
  | running m' => exact ⟨fun h => congrArg _ (Option.some.inj h), fun h => by cases h; rfl⟩
  | ended remains => exact ⟨nofun, nofun⟩

theorem successorOf?_eq_some {outcome : Except Departure WindowManager} {next : Birth} :
    successorOf? outcome = some next ↔ outcome = .error (.replaced next) := by
  constructor
  · intro found
    unfold successorOf? at found
    split at found
    · cases found
      rfl
    · cases found
  · rintro rfl
    rfl

theorem wired_twoClients : twoClients.IsWired := by
  have places : ∀ fd id, twoClients.table.streamAt? fd = some id →
      (fd = 5 ∧ id = 0) ∨ (fd = 6 ∧ id = 1) := by
    intro fd id here
    obtain ⟨d, found, target⟩ := DescriptorTable.streamAt?_eq_some.mp here
    rcases List.mem_cons.mp (FdMap.mem_entries_iff.mpr found) with first | second
    · cases first
      cases target
      exact .inl ⟨rfl, rfl⟩
    · cases List.mem_singleton.mp second
      cases target
      exact .inr ⟨rfl, rfl⟩
  refine ⟨?_, fun _ _ _ => List.not_mem_nil, .nil, ?_, nofun, by decide⟩
  · intro fd fd' id here there
    rcases places fd id here with ⟨rfl, rfl⟩ | ⟨rfl, rfl⟩ <;>
    rcases places fd' _ there with ⟨rfl, same⟩ | ⟨rfl, same⟩
    · rfl
    · cases same
    · cases same
    · rfl
  · intro fd id here
    rcases places fd id here with ⟨rfl, rfl⟩ | ⟨rfl, rfl⟩ <;> decide

/-- The second client is read, then the first one, which replaces the image. Then the second client
goes on where it was. -/
theorem story_twoClients :
    ∃ m m₁ next m₂ m₃, Process.launch twoClients = .running m ∧ m.attend (.client 6) = .ok m₁ ∧
      m₁.attend (.client 5) = .error (.replaced next) ∧ Process.launch next = .running m₂ ∧
      (m₂.receive 1 (Bytes.ofString "sion\n")).attend (.client 6) = .ok m₃ ∧
      m₂.holding.set.clients.fds = [5, 6] ∧ m₂.host.connections.ids = [0, 1] ∧
      (m₃.host.connections.get 0).inbox = [] ∧ (m₃.host.connections.get 1).inbox = [] ∧
      m.heard (.client 6) ++ m₁.heard (.client 5) = [(0, "restart")] ∧
      (m₂.receive 1 (Bytes.ofString "sion\n")).heard (.client 6) = [(1, "sion")] := by
  have story : (do
      let m ← managerOf? (Process.launch twoClients)
      let m₁ ← (m.attend (.client 6)).toOption
      let next ← successorOf? (m₁.attend (.client 5))
      let m₂ ← managerOf? (Process.launch next)
      let m₃ ← ((m₂.receive 1 (Bytes.ofString "sion\n")).attend (.client 6)).toOption
      some (decide (m₂.holding.set.clients.fds = [5, 6] ∧ m₂.host.connections.ids = [0, 1] ∧
        (m₃.host.connections.get 0).inbox = [] ∧ (m₃.host.connections.get 1).inbox = [] ∧
        m.heard (.client 6) ++ m₁.heard (.client 5) = [(0, "restart")] ∧
        (m₂.receive 1 (Bytes.ofString "sion\n")).heard (.client 6) = [(1, "sion")]))) =
      some true := by
    decide +kernel
  simp only [Option.bind_eq_bind, Option.bind_eq_some_iff, managerOf?_eq_some,
    successorOf?_eq_some, toOption_eq_some] at story
  obtain ⟨m, first, m₁, early, next, restart, m₂, second, m₃, late, facts⟩ := story
  exact ⟨m, m₁, next, m₂, m₃, first, early, restart, second, late,
    of_decide_eq_true (Option.some.inj facts)⟩

/-- Both clients stay connected and all that they have sent has been read. Yet the line that the
first one sent behind its request is dealt with by no image, and the second one's line only in
part. -/
theorem restart_drops_what_was_read :
    ∃ m m₁ next m₂ m₃, Process.launch twoClients = .running m ∧ m.attend (.client 6) = .ok m₁ ∧
      m₁.attend (.client 5) = .error (.replaced next) ∧ Process.launch next = .running m₂ ∧
      (m₂.receive 1 (Bytes.ofString "sion\n")).attend (.client 6) = .ok m₃ ∧
      m₂.holding.set.clients.fds = [5, 6] ∧
      (m₃.host.connections.get 0).inbox = [] ∧ (m₃.host.connections.get 1).inbox = [] ∧
      let log := m.heard (.client 6) ++ m₁.heard (.client 5) ++
        (m₂.receive 1 (Bytes.ofString "sion\n")).heard (.client 6)
      texts (Bytes.ofString "restart\nping\n") = ["restart", "ping"] ∧
      saidBy 0 log = ["restart"] ∧
      texts (Bytes.ofString "ver" ++ Bytes.ofString "sion\n") = ["version"] ∧
      saidBy 1 log = ["sion"] := by
  obtain ⟨m, m₁, next, m₂, m₃, first, early, restart, second, late, stay, _, read, read', old,
    new⟩ := story_twoClients
  refine ⟨m, m₁, next, m₂, m₃, first, early, restart, second, late, stay, read, read', ?_⟩
  rw [old, new]
  decide

/-- What the theorem says of the second client. -/
theorem requests_across_restart_of_two :
    ∃ m m₁ next m₂ m₃ log log', twoClients.IsWired ∧ Process.launch twoClients = .running m ∧
      Run m [] log m₁ ∧ m₁.attend (.client 5) = .error (.replaced next) ∧
      Process.launch next = .running m₂ ∧ Run m₂ [(1, Bytes.ofString "sion\n")] log' m₃ ∧
      ∃ used dropped later,
        Bytes.ofString "ver" = used ++ dropped ++ (next.host.connections.get 1).inbox ∧
        saidBy 1 (log ++ m₁.heard (.client 5)) = texts used ∧ texts used = [] ∧
        saidBy 1 log' = texts later ∧ texts later = ["sion"] ∧ Bytes.newline ∉ dropped := by
  obtain ⟨m, m₁, next, m₂, m₃, first, early, restart, second, late, _, ids, _, _, old, new⟩ :=
    story_twoClients
  have before : Run m [] ([] ++ m.heard (.client 6)) m₁ := .attend .refl early
  have known : 1 ∈ m₂.host.connections.ids := by
    rw [ids]
    decide
  have after := Run.attend (.send (Bytes.ofString "sion\n") .refl known) late
  obtain ⟨_, used, dropped, later, stream, _, heard, _, heard', _, _, _, calm⟩ :=
    requests_across_restart wired_twoClients first before restart second after 1
  rw [List.nil_append, old] at heard calm
  refine ⟨m, m₁, next, m₂, m₃, _, _, wired_twoClients, first, before, restart, second, after, used,
    dropped, later, stream, ?_, heard.symm, heard', ?_, calm nofun⟩
  · rw [List.nil_append, old]
    exact heard
  · rw [← heard', List.nil_append, new]
    rfl

end Succession.WindowManager
