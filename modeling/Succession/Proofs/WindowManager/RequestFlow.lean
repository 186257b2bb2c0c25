import Succession.Proofs.WindowManager.Serving

/-!
# What becomes of the bytes that a client sends

At any time in the life of an image the bytes that a connection has brought are those the image has
read, and behind them those that it has not (`Flow`). It has dealt with the complete lines of what
it has read and holds the rest. One step keeps this (`flow_attend`), and so does a run
(`flow_of_run`), whatever else happens meanwhile.
-/

namespace Succession.WindowManager

open PartialLine Request

/-- How the connections of the manager stand. -/
def IsWired (m : WindowManager) : Prop :=
  Wired m.host.callers m.host.connections m.holding.table

/-- The image has read `read` from a connection: the client that it has there, if any, holds the
rest, and one that it has not accepted yet has not been read. -/
structure Heard (id : Nat) (read : Bytes) (callers : List Nat) (pool : StreamPool)
    (h : Holding) : Prop where
  pending : ∀ fd c, h.set.clients.get? fd = some c → h.table.streamAt? fd = some id →
    c.lines.pending = restOf read
  unread : id ∈ callers ∨ id ∉ pool.ids → read = []

namespace Heard

variable {id : Nat} {read : Bytes} {callers callers' : List Nat} {pool pool' : StreamPool}
  {h h' : Holding}

/-- Clients may be let go. -/
theorem mono (heard : Heard id read callers pool h) (fewer : ∀ n ∈ callers', n ∈ callers)
    (ids : pool'.ids = pool.ids)
    (kept : ∀ fd c, h'.set.clients.get? fd = some c → h'.table.streamAt? fd = some id →
      h.set.clients.get? fd = some c ∧ h.table.streamAt? fd = some id) :
    Heard id read callers' pool' h' where
  pending fd c found here := by
    obtain ⟨found', here'⟩ := kept fd c found here
    exact heard.pending fd c found' here'
  unread new := heard.unread (new.imp (fewer id) (ids ▸ ·))

end Heard

/-- What a connection has brought is what the image has read of it and what is still to be read. The
image has dealt with the complete lines of what it has read, and none asked for a restart. -/
def Flow (id : Nat) (stream : Bytes) (lines : List String) (m : WindowManager) : Prop :=
  ∃ read, stream = read ++ (m.host.connections.get id).inbox ∧ lines = texts read ∧
    (∀ line ∈ lines, isRestart line = false) ∧
    Heard id read m.host.callers m.host.connections m.holding

theorem Flow.calm {id : Nat} {stream : Bytes} {lines : List String} {m : WindowManager}
    (flow : Flow id stream lines m) : ∀ line ∈ lines, isRestart line = false := by
  obtain ⟨_, _, _, calm, _⟩ := flow
  exact calm

theorem callers_of_alike {h h' : Host} (alike : h.Alike h') : h'.callers = h.callers := by
  rw [Host.callers, Host.callers, alike.waiting]

theorem IsWired.quiet {m m' : WindowManager} (wired : m.IsWired) (quiet : Quiet m m') :
    m'.IsWired := by
  rw [IsWired, callers_of_alike quiet.host, quiet.holding]
  exact wired.mono quiet.host.ids quiet.host.next (.refl _)

theorem Flow.quiet {id : Nat} {stream : Bytes} {lines : List String} {m m' : WindowManager}
    (flow : Flow id stream lines m) (quiet : Quiet m m') : Flow id stream lines m' := by
  obtain ⟨read, whole, same, calm, heard⟩ := flow
  refine ⟨read, by rw [quiet.host.inbox]; exact whole, same, calm, ?_⟩
  rw [quiet.holding, callers_of_alike quiet.host]
  exact heard.mono (fun _ waits => waits) quiet.host.ids fun _ _ found here => ⟨found, here⟩

/-! ## 1. Accepting -/

/-- Where connections stand after one was accepted. -/
theorem streamAt?_putClient {h : Holding} {fd : Int} {id : Nat} {c : Client} {other : Int} {n : Nat}
    (here : (Holding.putClient ⟨h.set, h.table.putOwn fd (.stream id)⟩ fd
      c).table.streamAt? other = some n) :
    (other ≠ fd ∧ h.table.streamAt? other = some n) ∨ (other = fd ∧ n = id) := by
  have placed : (h.table.putOwn fd (.stream id)).streamAt? other = some n := by
    simp only [Holding.putClient] at here
    split at here
    · exact DescriptorTable.Within.close _ fd other n here
    · exact here
  exact DescriptorTable.streamAt?_putOwn placed

theorem wired_acceptConnection {m : WindowManager} {id : Nat} {callers : List Nat}
    (wired : Wired (id :: callers) m.host.connections m.holding.table) :
    Wired callers m.host.connections (m.acceptConnection id).holding.table :=
  wired.accept fun _ _ here => streamAt?_putClient here

theorem heard_acceptConnection {m : WindowManager} {id n : Nat} {read : Bytes}
    {callers : List Nat} (wired : Wired (n :: callers) m.host.connections m.holding.table)
    (heard : Heard id read (n :: callers) m.host.connections m.holding) :
    Heard id read callers m.host.connections (m.acceptConnection n).holding := by
  refine ⟨fun fd c found here => ?_, fun new => heard.unread (new.imp_left (.tail _))⟩
  rcases streamAt?_putClient here with ⟨differs, old⟩ | ⟨same, new⟩
  · rw [acceptConnection, Holding.putClient, FdMap.get?_insert_ne _ _ differs] at found
    exact heard.pending fd c found old
  · subst same new
    rw [acceptConnection, Holding.putClient, FdMap.get?_insert_self] at found
    cases found
    rw [heard.unread (.inl List.mem_cons_self)]
    rfl

/-- Accepting connections one after another, those that wait elsewhere behind them. -/
theorem flow_acceptAll {taken left : List Nat} {m : WindowManager}
    (wired : Wired (taken ++ left) m.host.connections m.holding.table) :
    (taken.foldl acceptConnection m).host = m.host ∧
    Wired left m.host.connections (taken.foldl acceptConnection m).holding.table ∧
    ∀ id read, Heard id read (taken ++ left) m.host.connections m.holding →
      Heard id read left m.host.connections (taken.foldl acceptConnection m).holding := by
  induction taken generalizing m with
  | nil => exact ⟨rfl, wired, fun _ _ heard => heard⟩
  | cons id rest ih =>
    obtain ⟨host, wired', onward⟩ := @ih (m.acceptConnection id) (wired_acceptConnection wired)
    exact ⟨host, wired', fun n read heard => onward n read (heard_acceptConnection wired heard)⟩

theorem perm_takeCallers (h : Host) (socket : Nat) :
    h.callers.Perm ((h.takeCallers socket).1 ++ (h.takeCallers socket).2.callers) := by
  have parts := List.filter_append_perm (fun e : Nat × Nat => decide (e.1 = socket)) h.waiting
  have mapped := parts.symm.map (·.2)
  rw [List.map_append] at mapped
  simp only [Host.callers, Host.takeCallers]
  simpa using mapped

/-- Accepting changes no connection and nothing that is held for one. -/
theorem heard_acceptWaiting {m : WindowManager} (fd : Int) (wired : m.IsWired) :
    let m' := m.acceptWaiting fd
    m'.IsWired ∧ m'.host.connections = m.host.connections ∧
      ∀ id read, Heard id read m.host.callers m.host.connections m.holding →
        Heard id read m'.host.callers m'.host.connections m'.holding := by
  intro m'
  unfold m' acceptWaiting
  split
  · next socket _ _ _ _ =>
    have same := perm_takeCallers m.host socket
    obtain ⟨host, wired', onward⟩ := @flow_acceptAll (m.host.takeCallers socket).1
      (m.host.takeCallers socket).2.callers { m with host := (m.host.takeCallers socket).2 }
      (wired.perm same)
    refine ⟨?_, ?_, fun id read heard => ?_⟩
    · rw [IsWired, host]
      exact wired'
    · rw [host]
      rfl
    · rw [host]
      refine onward id read ⟨heard.pending, fun new => heard.unread (new.imp_left ?_)⟩
      exact same.mem_iff.mpr
  · exact ⟨wired, rfl, fun _ _ heard => heard⟩

theorem flow_acceptWaiting {m : WindowManager} (fd : Int) (wired : m.IsWired) :
    (m.acceptWaiting fd).IsWired ∧ ∀ id stream lines, Flow id stream lines m →
      Flow id stream lines (m.acceptWaiting fd) := by
  obtain ⟨wired', same, onward⟩ := heard_acceptWaiting fd wired
  refine ⟨wired', ?_⟩
  rintro id stream lines ⟨read, whole, spoken, calm, heard⟩
  refine ⟨read, ?_, spoken, calm, onward id read heard⟩
  rw [same]
  exact whole

/-! ## 2. Reading -/

theorem get?_setLines_ne (s : Channels) {fd other : Int} (lines : PartialLine)
    (differs : other ≠ fd) : (s.setLines fd lines).clients.get? other = s.clients.get? other := by
  refine (FdMap.get?_map _ other).trans ?_
  cases s.clients.get? other with
  | none => rfl
  | some c => exact congrArg some (if_neg differs)

theorem get?_setLines_self {s : Channels} {fd : Int} {c : Client}
    (found : s.clients.get? fd = some c) (lines : PartialLine) :
    (s.setLines fd lines).clients.get? fd = some { c with lines := lines } := by
  refine (FdMap.get?_map _ fd).trans ?_
  rw [found]
  exact congrArg some (if_pos rfl)

variable {m : WindowManager} {fd : Int} {id : Nat}

theorem wired_takeIn (wired : m.IsWired) (intake : Intake) : (m.takeIn fd id intake).IsWired :=
  wired.mono (StreamPool.ids_modify _ _ _) rfl (.refl _)

/-- Reading from one client leaves what is held for the others. -/
theorem heard_takeIn_ne {n : Nat} {read : Bytes} (here : m.holding.table.streamAt? fd = some id)
    (differs : n ≠ id) (intake : Intake)
    (heard : Heard n read m.host.callers m.host.connections m.holding) :
    let m' := m.takeIn fd id intake
    Heard n read m'.host.callers m'.host.connections m'.holding := by
  refine heard.mono (fun _ waits => waits) (StreamPool.ids_modify _ _ _) ?_
  intro other c found here'
  refine ⟨?_, here'⟩
  have apart : other ≠ fd := fun same => differs (Option.some.inj (here' ▸ same ▸ here))
  exact (get?_setLines_ne m.holding.set intake.buffer apart).symm.trans found

/-- What is held for a client after `got` was read from it. -/
theorem heard_takeIn_self {read got : Bytes} {client : Client} {intake : Intake}
    (wired : m.IsWired) (found : m.holding.set.clients.get? fd = some client)
    (here : m.holding.table.streamAt? fd = some id)
    (rest : intake.buffer.pending = restOf (read ++ got)) :
    let m' := m.takeIn fd id intake
    Heard id (read ++ got) m'.host.callers m'.host.connections m'.holding := by
  refine ⟨fun other c found' here' => ?_, ?_⟩
  · cases wired.apart other fd id here' here
    cases (get?_setLines_self found intake.buffer).symm.trans found'
    exact rest
  · rintro (waits | unknown)
    · exact absurd waits (wired.unaccepted fd id here)
    · refine absurd ?_ unknown
      exact StreamPool.ids_modify m.host.connections id _ ▸ wired.attached fd id here

/-- Reading from one client leaves the others alone. -/
theorem flow_takeIn_ne {n : Nat} {stream : Bytes} {lines : List String}
    (here : m.holding.table.streamAt? fd = some id) (differs : n ≠ id) (intake : Intake)
    (flow : Flow n stream lines m) : Flow n stream lines (m.takeIn fd id intake) := by
  obtain ⟨read, whole, same, calm, heard⟩ := flow
  refine ⟨read, ?_, same, calm, heard_takeIn_ne here differs intake heard⟩
  rw [whole]
  exact congrArg (fun s : Stream => read ++ s.inbox)
    (StreamPool.get_modify_ne m.host.connections _ differs).symm

/-- What was read from a client, with the lines that it completes. -/
theorem flow_takeIn_self {stream : Bytes} {lines : List String} {client : Client}
    (wired : m.IsWired) (found : m.holding.set.clients.get? fd = some client)
    (here : m.holding.table.streamAt? fd = some id) (flow : Flow id stream lines m) :
    let intake := Intake.read client.lines (m.host.connections.get id)
    let m' := m.takeIn fd id intake
    ∃ read, stream = read ++ (m'.host.connections.get id).inbox ∧
      lines ++ intake.lines = texts read ∧
      (intake.outcome = .drained →
        Heard id read m'.host.callers m'.host.connections m'.holding) := by
  intro intake m'
  obtain ⟨read, whole, same, -, heard⟩ := flow
  have rest := heard.pending fd client found here
  have framed : Bytes.newline ∉ client.lines.pending := by
    rw [rest]
    exact newline_notMem_restOf read
  obtain ⟨got, taken, brought, buffered⟩ :=
    Intake.read_spec framed (m.host.connections.get id)
  have left : (m'.host.connections.get id).inbox = intake.stream.inbox := by
    refine (congrArg Stream.inbox
      (StreamPool.get_modify_self (wired.attached fd id here) _)).trans ?_
    split
    · exact Stream.inbox_writeLine _ _
    · rfl
  refine ⟨read ++ got, ?_, ?_, fun drained => heard_takeIn_self wired found here ?_⟩
  · rw [left, List.append_assoc, ← taken]
    exact whole
  · rw [texts_append, same, ← rest, ← brought]
  · rw [restOf_append, ← rest]
    exact buffered drained

/-- Once the client is let go, nothing is held for its connection. -/
theorem heard_eraseClient {read : Bytes} (wired : m.IsWired)
    (owned : m.holding.set.clients.contains fd = true)
    (here : m.holding.table.streamAt? fd = some id) :
    Heard id read m.host.callers m.host.connections (m.holding.eraseClient fd) := by
  rw [Holding.eraseClient, if_pos owned]
  refine ⟨fun other c _ here' => ?_, ?_⟩
  · have stood := DescriptorTable.Within.close _ fd other id here'
    cases wired.apart other fd id stood here
    rw [DescriptorTable.streamAt?, DescriptorTable.get?_close_self] at here'
    cases here'
  · rintro (waits | unknown)
    · exact absurd waits (wired.unaccepted fd id here)
    · exact absurd (wired.attached fd id here) unknown

theorem within_eraseClient (h : Holding) (fd : Int) : (h.eraseClient fd).table.Within h.table := by
  rw [Holding.eraseClient]
  split
  · exact .close _ fd
  · exact .refl _

theorem get?_of_eraseClient {h : Holding} {fd other : Int} {c : Client}
    (found : (h.eraseClient fd).set.clients.get? other = some c) :
    h.set.clients.get? other = some c := by
  rw [Holding.eraseClient] at found
  split at found
  · have kept := FdMap.get?_filter (m := h.set.clients) (fun n _ => n ≠ fd) other
    exact (Option.filter_eq_some_iff.mp (kept.symm.trans found)).1
  · exact found

theorem wired_dropClient (wired : m.IsWired) (fd : Int) : (m.dropClient fd).IsWired :=
  wired.mono rfl rfl (within_eraseClient m.holding fd)

theorem flow_dropClient {n : Nat} {stream : Bytes} {lines : List String} (fd : Int)
    (flow : Flow n stream lines m) : Flow n stream lines (m.dropClient fd) := by
  obtain ⟨read, whole, same, calm, heard⟩ := flow
  refine ⟨read, whole, same, calm, heard.mono (fun _ waits => waits) rfl ?_⟩
  intro other c found here
  exact ⟨get?_of_eraseClient found, within_eraseClient m.holding fd other n here⟩

/-! ## 3. Serving -/

theorem saidBy_append (id : Nat) (log log' : List (Nat × String)) :
    saidBy id (log ++ log') = saidBy id log ++ saidBy id log' := by
  rw [saidBy, List.filter_append, List.map_append]
  rfl

theorem saidBy_self (id : Nat) (lines : List String) :
    saidBy id (lines.map fun line => (id, line)) = lines := by
  simp [saidBy, List.filter_map, Function.comp_def]

theorem saidBy_ne {id n : Nat} (differs : n ≠ id) (lines : List String) :
    saidBy n (lines.map fun line => (id, line)) = [] := by
  simp [saidBy, List.filter_map, Function.comp_def, differs.symm]

/-- Serving reads from the connection of a client, if there is one at the descriptor. -/
theorem serveClient_cases (m : WindowManager) (fd : Int) :
    (m.serveClient fd = .ok m ∧ m.heard (.client fd) = []) ∨
    ∃ client id, m.holding.set.clients.get? fd = some client ∧
      m.holding.table.streamAt? fd = some id ∧
      let intake := Intake.read client.lines (m.host.connections.get id)
      m.heard (.client fd) = (upToRestart intake.lines).map (fun line => (id, line)) ∧
      m.serveClient fd =
        match (m.takeIn fd id intake).handleLines fd intake.lines with
        | .error departure => .error departure
        | .ok m => .ok (if intake.outcome = .drained then m else m.dropClient fd) := by
  have streams : m.connectionAt? fd = m.holding.table.streamAt? fd := rfl
  rw [serveClient, heard, streams]
  cases found : m.holding.set.clients.get? fd with
  | none => exact .inl ⟨rfl, rfl⟩
  | some client =>
    cases here : m.holding.table.streamAt? fd with
    | none => exact .inl ⟨rfl, rfl⟩
    | some id => exact .inr ⟨client, id, rfl, rfl, rfl, rfl⟩

/-- A step in which nothing is heard. -/
theorem flow_of_silent {m' : WindowManager} {ready : Ready} (silent : m.heard ready = [])
    (onward : ∀ n stream lines, Flow n stream lines m → Flow n stream lines m') :
    ∀ n stream lines, Flow n stream lines m →
      Flow n stream (lines ++ saidBy n (m.heard ready)) m' := by
  intro n stream lines flow
  have nothing : lines ++ saidBy n (m.heard ready) = lines := by
    rw [silent]
    exact List.append_nil lines
  rw [nothing]
  exact onward n stream lines flow

/-- Serving a client deals with the lines that its bytes complete. -/
theorem flow_serveClient {m' : WindowManager} (wired : m.IsWired)
    (served : m.serveClient fd = .ok m') :
    m'.IsWired ∧ ∀ n stream lines, Flow n stream lines m →
      Flow n stream (lines ++ saidBy n (m.heard (.client fd))) m' := by
  rcases serveClient_cases m fd with ⟨idle, silent⟩ | ⟨client, id, found, here, spoken, serving⟩
  · rw [idle] at served
    cases served
    exact ⟨wired, flow_of_silent silent fun _ _ _ flow => flow⟩
  · rw [serving] at served
    split at served
    · cases served
    · next done handled =>
      cases served
      obtain ⟨calm, quiet⟩ := handleLines_ok handled
      have wired' := (@wired_takeIn m fd id wired _).quiet quiet
      refine ⟨?_, fun n stream lines flow => ?_⟩
      · split
        · exact wired'
        · exact wired_dropClient wired' fd
      · rw [spoken, upToRestart_of_calm calm]
        by_cases differs : n = id
        · -- This is the client that was read. It is let go if its bytes have ended.
          subst differs
          rw [saidBy_self]
          obtain ⟨read, whole, same, holds⟩ := flow_takeIn_self wired found here flow
          have calm' := List.forall_mem_append.mpr ⟨flow.calm, calm⟩
          split
          · next drained => exact Flow.quiet ⟨read, whole, same, calm', holds drained⟩ quiet
          · refine ⟨read, ?_, same, calm', heard_eraseClient wired' ?_ ?_⟩
            · rw [whole]
              exact congrArg (read ++ ·) (quiet.host.inbox _).symm
            · rw [FdMap.contains, quiet.holding]
              exact congrArg Option.isSome (get?_setLines_self found _)
            · rw [quiet.holding]
              exact here
        · rw [saidBy_ne differs, List.append_nil]
          have flow' := (flow_takeIn_ne here differs _ flow).quiet quiet
          split
          · exact flow'
          · exact flow_dropClient fd flow'

theorem unlessFailed_cases (m : WindowManager) :
    m.unlessFailed = .ok m ∨ ∃ f, m.unlessFailed = .error (m.giveUp f) := by
  rw [unlessFailed]
  cases m.failure with
  | none => exact .inl rfl
  | some f => exact .inr ⟨f, rfl⟩

theorem eq_of_unlessFailed {m m' : WindowManager} (fine : m.unlessFailed = .ok m') : m' = m := by
  rcases unlessFailed_cases m with same | ⟨f, failed⟩
  · exact Except.ok.inj (fine.symm.trans same)
  · cases failed.symm.trans fine

/-- Attending to the display ends the image or bears on no request. -/
theorem attend_display_cases (m : WindowManager) :
    (∃ remains, m.attend .display = .error (.ended remains)) ∨
    ∃ m', m.attend .display = .ok m' ∧ Quiet m m' := by
  rw [attend]
  rcases unlessFailed_cases (events.wakeUp m.gate.activeWatches m) with fine | ⟨f, failed⟩
  · rw [fine]
    exact .inr ⟨_, rfl, .of_clientSide (clientSide_wakeUp _ m)⟩
  · rw [failed]
    exact .inl ⟨_, rfl⟩

theorem clientSide_attend_display {m' : WindowManager} (attended : m.attend .display = .ok m') :
    m'.clientSide = m.clientSide := by
  rw [attend] at attended
  rcases unlessFailed_cases (events.wakeUp m.gate.activeWatches m) with fine | ⟨f, failed⟩
  · rw [fine] at attended
    cases attended
    exact clientSide_wakeUp _ m
  · rw [failed] at attended
    cases attended

/-- Attending to anything deals with the lines that are heard meanwhile. -/
theorem flow_attend {m' : WindowManager} {ready : Ready} (wired : m.IsWired)
    (attended : m.attend ready = .ok m') :
    m'.IsWired ∧ ∀ n stream lines, Flow n stream lines m →
      Flow n stream (lines ++ saidBy n (m.heard ready)) m' := by
  cases ready with
  | client fd => exact flow_serveClient wired attended
  | listener fd =>
    cases attended
    obtain ⟨wired', onward⟩ := flow_acceptWaiting fd wired
    exact ⟨wired', flow_of_silent rfl onward⟩
  | signal number =>
    cases attended
    have quiet : Quiet m (m.askToEnd (Signal.exitStatus number)) := ⟨rfl, .refl _⟩
    exact ⟨wired.quiet quiet, flow_of_silent rfl fun _ _ _ flow => flow.quiet quiet⟩
  | display =>
    rcases attend_display_cases m with ⟨remains, failed⟩ | ⟨done, went, quiet⟩
    · cases failed.symm.trans attended
    · cases went.symm.trans attended
      exact ⟨wired.quiet quiet, flow_of_silent rfl fun _ _ _ flow => flow.quiet quiet⟩

theorem clientSide_endRound {m' : WindowManager} (ended : m.endRound = .ok m') :
    m'.clientSide = m.clientSide := by
  rw [endRound] at ended
  split at ended
  · cases ended
  · next done fine =>
    cases eq_of_unlessFailed fine
    split at ended
    · cases ended
    · cases ended
      exact clientSide_beforeWait m

theorem quiet_endRound {m' : WindowManager} (ended : m.endRound = .ok m') : Quiet m m' :=
  .of_clientSide (clientSide_endRound ended)

/-! ## 4. Runs -/

/-- What was sent on a connection. -/
def sentTo (id : Nat) (sent : List (Nat × Bytes)) : Bytes :=
  (sent.filter fun (n, _) => n = id).flatMap (·.2)

/-- A client sends bytes on its connection. -/
def receive (m : WindowManager) (id : Nat) (bytes : Bytes) : WindowManager :=
  { m with host := m.host.modifyConnection id fun s => s.receive bytes }

/-- A client connects to a socket. -/
def call (m : WindowManager) (socket : Nat) : WindowManager :=
  { m with host := m.host.call socket }

/-- A part of the life of an image, with what was sent to it meanwhile and the lines that it dealt
with. Clients send and connect at any time. Files, the display, and what clients do besides are
free, and so is the order in which the manager attends to what is ready. -/
inductive Run (m : WindowManager) :
    List (Nat × Bytes) → List (Nat × String) → WindowManager → Prop
  | refl : Run m [] [] m
  | send {sent : List (Nat × Bytes)} {log : List (Nat × String)} {m' : WindowManager} {id : Nat}
      (bytes : Bytes) : Run m sent log m' → id ∈ m'.host.connections.ids →
      Run m (sent ++ [(id, bytes)]) log (m'.receive id bytes)
  | call {sent : List (Nat × Bytes)} {log : List (Nat × String)} {m' : WindowManager}
      (socket : Nat) : Run m sent log m' → Run m sent log (m'.call socket)
  | elsewhere {sent : List (Nat × Bytes)} {log : List (Nat × String)} {m' m'' : WindowManager} :
      Run m sent log m' → Quiet m' m'' → Run m sent log m''
  | attend {sent : List (Nat × Bytes)} {log : List (Nat × String)} {m' m'' : WindowManager}
      {ready : Ready} : Run m sent log m' → m'.attend ready = .ok m'' →
      Run m sent (log ++ m'.heard ready) m''
  | endRound {sent : List (Nat × Bytes)} {log : List (Nat × String)} {m' m'' : WindowManager} :
      Run m sent log m' → m'.endRound = .ok m'' → Run m sent log m''

theorem flow_send {m : WindowManager} {id : Nat} (bytes : Bytes)
    (known : id ∈ m.host.connections.ids) {n : Nat} {stream : Bytes} {lines : List String}
    (flow : Flow n stream lines m) :
    Flow n (stream ++ sentTo n [(id, bytes)]) lines (m.receive id bytes) := by
  obtain ⟨read, whole, same, calm, heard⟩ := flow
  refine ⟨read, ?_, same, calm, heard.mono (fun _ waits => waits) (StreamPool.ids_modify _ _ _)
    fun _ _ found here => ⟨found, here⟩⟩
  by_cases differs : n = id
  · subst differs
    have after : (m.host.connections.modify n fun s => s.receive bytes).get n =
        (m.host.connections.get n).receive bytes := StreamPool.get_modify_self known _
    have now : sentTo n [(n, bytes)] = bytes := by simp [sentTo]
    rw [whole, now, List.append_assoc]
    exact congrArg (fun s : Stream => read ++ s.inbox) after.symm
  · have after := StreamPool.get_modify_ne m.host.connections (fun s => s.receive bytes) differs
    have now : sentTo n [(id, bytes)] = [] := by simp [sentTo, Ne.symm differs]
    rw [whole, now, List.append_nil]
    exact congrArg (fun s : Stream => read ++ s.inbox) after.symm

theorem callers_call (h : Host) (socket : Nat) :
    (h.call socket).callers = h.callers ++ [h.connections.next] := by
  simp [Host.callers, Host.call]

theorem wired_call (wired : m.IsWired) (socket : Nat) : (m.call socket).IsWired := by
  rw [IsWired, call, callers_call]
  exact wired.create

theorem flow_call (wired : m.IsWired) (socket : Nat) {n : Nat} {stream : Bytes}
    {lines : List String} (flow : Flow n stream lines m) :
    Flow n stream lines (m.call socket) := by
  obtain ⟨read, whole, same, calm, heard⟩ := flow
  refine ⟨read, ?_, same, calm, heard.pending, fun new => heard.unread ?_⟩
  · rw [whole]
    exact congrArg (read ++ ·) (StreamPool.inbox_create m.host.connections n).symm
  · rcases new with waits | unknown
    · rw [call, callers_call] at waits
      rcases List.mem_append.mp waits with waits | new
      · exact .inl waits
      · exact .inr (List.mem_singleton.mp new ▸ wired.next_notMem)
    · refine .inr fun known => unknown ?_
      rw [show (m.call socket).host.connections.ids = _ from StreamPool.ids_create _]
      exact List.mem_append_left _ known

theorem sentTo_append (id : Nat) (sent sent' : List (Nat × Bytes)) :
    sentTo id (sent ++ sent') = sentTo id sent ++ sentTo id sent' := by
  rw [sentTo, List.filter_append, List.flatMap_append]
  rfl

/-- Through a run the bytes of each connection are accounted for, and the lines that were dealt with
are the complete lines of those that were read. -/
theorem flow_of_run {m' : WindowManager} {sent : List (Nat × Bytes)} {log : List (Nat × String)}
    (wired : m.IsWired) (run : Run m sent log m') :
    m'.IsWired ∧ ∀ n stream, Flow n stream [] m →
      Flow n (stream ++ sentTo n sent) (saidBy n log) m' := by
  induction run with
  | refl => exact ⟨wired, fun n stream flow => (List.append_nil stream).symm ▸ flow⟩
  | send bytes _ known ih =>
    obtain ⟨wired', onward⟩ := ih
    refine ⟨wired'.mono (StreamPool.ids_modify _ _ _) rfl (.refl _), fun n stream flow => ?_⟩
    rw [sentTo_append, ← List.append_assoc]
    exact flow_send bytes known (onward n stream flow)
  | call socket _ ih =>
    obtain ⟨wired', onward⟩ := ih
    exact ⟨wired_call wired' socket, fun n stream flow =>
      flow_call wired' socket (onward n stream flow)⟩
  | elsewhere _ quiet ih =>
    obtain ⟨wired', onward⟩ := ih
    exact ⟨wired'.quiet quiet, fun n stream flow => (onward n stream flow).quiet quiet⟩
  | attend _ attended ih =>
    obtain ⟨wired', onward⟩ := ih
    obtain ⟨wired'', step⟩ := flow_attend wired' attended
    refine ⟨wired'', fun n stream flow => ?_⟩
    rw [saidBy_append]
    exact step n _ _ (onward n stream flow)
  | endRound _ ended ih =>
    obtain ⟨wired', onward⟩ := ih
    have quiet := quiet_endRound ended
    exact ⟨wired'.quiet quiet, fun n stream flow => (onward n stream flow).quiet quiet⟩

/-- What a round attends to is attended to in a run. -/
theorem Run.attendAll {m' m'' : WindowManager} {sent : List (Nat × Bytes)}
    {log : List (Nat × String)} {ready : List Ready} (run : Run m sent log m')
    (attended : m'.attendAll ready = .ok m'') : ∃ log', Run m sent log' m'' := by
  induction ready generalizing log m' with
  | nil =>
    cases attended
    exact ⟨log, run⟩
  | cons first rest ih =>
    rw [WindowManager.attendAll] at attended
    split at attended
    · cases attended
    · next done attend => exact ih (run.attend attend) attended

/-- A round of the loop is a run. -/
theorem Run.round {m' m'' : WindowManager} {sent : List (Nat × Bytes)}
    {log : List (Nat × String)} {ready : List Ready} (run : Run m sent log m')
    (rounded : m'.round ready = .ok m'') : ∃ log', Run m sent log' m'' := by
  rw [WindowManager.round] at rounded
  split at rounded
  · cases rounded
  · next done attended =>
    obtain ⟨log', run'⟩ := run.attendAll attended
    exact ⟨log', run'.endRound rounded⟩

end Succession.WindowManager
