import Succession.Proofs.WindowManager.Replacement
import Succession.Proofs.WindowManager.RequestFlow

/-!
# A request to end, and a restart after it

A request to end is noted and takes effect at the end of the round. Until then lines are dealt with
as ever, and one that asks for a restart replaces the image, whatever has been noted by then.

Results:
1. `steady_attend`, `steady_attendAll`: while the image stays in place, a round adds to what the
   restart depends on nothing but the statuses that were asked for.
2. `gone_attend`, `gone_attendAll`: the image goes because the display has failed, or because a line
   has asked for a restart.
3. `termination_is_final_iff`: a request to end is final exactly in the rounds in which no later
   line asks for a restart.
-/

namespace Succession

/-- The status that a line asks to exit with, if it asks for that. -/
def Request.exitStatus? (line : String) : Option Int :=
  match parse line with
  | .ok .exit => some 0
  | _ => none

open Request

namespace WindowManager

/-! ## 1. What a round is asked for -/

/-- The statuses that are asked for while the manager attends to something, in order. -/
def asked (m : WindowManager) (ready : Ready) : List Int :=
  match ready with
  | .signal number => [Signal.exitStatus number]
  | ready => (m.heard ready).filterMap fun (_, line) => exitStatus? line

/-- The lines that are dealt with while the manager attends to several things. -/
def heardAll (m : WindowManager) : List Ready → List (Nat × String)
  | [] => []
  | first :: rest =>
    m.heard first ++
      match m.attend first with
      | .ok m' => m'.heardAll rest
      | .error _ => []

/-- The statuses that are asked for while the manager attends to several things. -/
def askedAll (m : WindowManager) : List Ready → List Int
  | [] => []
  | first :: rest =>
    m.asked first ++
      match m.attend first with
      | .ok m' => m'.askedAll rest
      | .error _ => []

/-- Nothing has happened that bears on how the manager may go, but that these statuses were asked
for: the last one counts. -/
structure Steady (statuses : List Int) (m m' : WindowManager) : Prop where
  arguments : m'.arguments = m.arguments
  programs : m'.host.programs = m.host.programs
  listeners : m'.holding.set.listeners = m.holding.set.listeners
  status : m'.exitStatus = statuses.getLast?.or m.exitStatus

namespace Steady

variable {m m' m'' : WindowManager} {statuses later : List Int}

theorem refl (m : WindowManager) : Steady [] m m := ⟨rfl, rfl, rfl, rfl⟩

theorem trans (first : Steady statuses m m') (second : Steady later m' m'') :
    Steady (statuses ++ later) m m'' where
  arguments := second.arguments.trans first.arguments
  programs := second.programs.trans first.programs
  listeners := second.listeners.trans first.listeners
  status := by rw [second.status, first.status, List.getLast?_append, Option.or_assoc]

theorem askToEnd (m : WindowManager) (status : Int) : Steady [status] m (m.askToEnd status) :=
  ⟨rfl, rfl, rfl, rfl⟩

theorem reply (m : WindowManager) (fd : Int) (text : String) : Steady [] m (m.reply fd text) := by
  rw [WindowManager.reply]
  split
  · split
    · exact ⟨rfl, rfl, rfl, rfl⟩
    · exact refl m
  · exact refl m

theorem takeIn (m : WindowManager) (fd : Int) (id : Nat) (intake : Intake) :
    Steady [] m (m.takeIn fd id intake) := ⟨rfl, rfl, rfl, rfl⟩

theorem dropClient (m : WindowManager) (fd : Int) : Steady [] m (m.dropClient fd) := by
  rw [WindowManager.dropClient, Holding.eraseClient]
  split
  · exact ⟨rfl, rfl, rfl, rfl⟩
  · exact ⟨rfl, rfl, rfl, rfl⟩

theorem acceptWaiting (m : WindowManager) (fd : Int) : Steady [] m (m.acceptWaiting fd) := by
  have accepted (ids : List Nat) (m : WindowManager) :
      Steady [] m (ids.foldl acceptConnection m) := by
    induction ids generalizing m with
    | nil => exact refl m
    | cons id rest ih =>
      have first : Steady [] m (m.acceptConnection id) := ⟨rfl, rfl, rfl, rfl⟩
      exact first.trans (ih _)
  rw [WindowManager.acceptWaiting]
  split
  · next socket _ _ _ _ =>
    have called : Steady [] m { m with host := (m.host.takeCallers socket).2 } :=
      ⟨rfl, rfl, rfl, rfl⟩
    exact called.trans (accepted _ _)
  · exact refl m

/-- What a request to end and a restart depend on. -/
def view (m : WindowManager) : List Bytes × List Bytes × FdMap Listener × Option Int :=
  (m.arguments, m.host.programs, m.holding.set.listeners, m.exitStatus)

theorem events_preserve : events.Preserves view where
  poll _ := rfl
  flush _ := rfl
  dispatch _ _ := rfl
  failed _ _ := rfl

theorem of_view (same : view m' = view m) : Steady [] m m' := by
  obtain ⟨arguments, same⟩ := Prod.mk.inj same
  obtain ⟨programs, same⟩ := Prod.mk.inj same
  obtain ⟨listeners, status⟩ := Prod.mk.inj same
  exact ⟨arguments, programs, listeners, status⟩

theorem wakeUp (m : WindowManager) (n : Nat) : Steady [] m (events.wakeUp n m) :=
  of_view (events_preserve.wakeUp n m)

theorem handleLine {fd : Int} {line : String} (handled : m.handleLine fd line = .ok m') :
    Steady (exitStatus? line).toList m m' := by
  unfold WindowManager.handleLine at handled
  rw [exitStatus?]
  cases meant : parse line with
  | error fault =>
    rw [meant] at handled
    cases handled
    exact .reply m fd _
  | ok request =>
    rw [meant] at handled
    cases request with
    | restart => cases handled
    | exit =>
      cases handled
      exact (Steady.reply m fd Reply.exiting).trans (.askToEnd _ 0)
    | version | ping =>
      cases handled
      exact .reply m fd _

theorem handleLines {fd : Int} {lines : List String} (handled : m.handleLines fd lines = .ok m') :
    Steady (lines.filterMap exitStatus?) m m' := by
  induction lines generalizing m with
  | nil =>
    cases handled
    exact refl _
  | cons line rest ih =>
    rw [WindowManager.handleLines] at handled
    split at handled
    · cases handled
    · next middle first =>
      have both := (handleLine first).trans (ih handled)
      rw [List.filterMap_cons]
      cases meant : exitStatus? line with
      | none =>
        rw [meant] at both
        exact both
      | some status =>
        rw [meant] at both
        exact both

end Steady

variable {m m' : WindowManager}

/-! ## 2. One thing after another -/

theorem exitStatus?_of_isRestart {line : String} (restart : isRestart line = true) :
    exitStatus? line = none := by
  unfold isRestart at restart
  rw [exitStatus?]
  split at restart
  · next meant => rw [meant]
  · cases restart

theorem asked_client (m : WindowManager) (fd : Int) :
    m.asked (.client fd) = (m.heard (.client fd)).filterMap fun (_, line) => exitStatus? line := rfl

/-- The statuses that a client's lines ask for. -/
theorem filterMap_said (id : Nat) (lines : List String) :
    ((lines.map fun line => (id, line)).filterMap fun ((_, line) : Nat × String) =>
      exitStatus? line) = lines.filterMap exitStatus? := by
  rw [List.filterMap_map]
  rfl

/-- Attending to something that leaves the image in place: no line has asked for a restart. -/
theorem steady_attend {ready : Ready} (attended : m.attend ready = .ok m') :
    Steady (m.asked ready) m m' ∧ ∀ said ∈ m.heard ready, isRestart said.2 = false := by
  cases ready with
  | signal number =>
    cases attended
    exact ⟨.askToEnd m _, List.forall_mem_nil _⟩
  | listener fd =>
    cases attended
    exact ⟨.acceptWaiting m fd, List.forall_mem_nil _⟩
  | display =>
    refine ⟨?_, List.forall_mem_nil _⟩
    rw [attend] at attended
    rcases unlessFailed_cases (events.wakeUp m.gate.activeWatches m) with fine | ⟨f, failed⟩
    · rw [fine] at attended
      cases attended
      exact .wakeUp m _
    · rw [failed] at attended
      cases attended
  | client fd =>
    rw [asked_client]
    rcases serveClient_cases m fd with ⟨idle, silent⟩ | ⟨client, id, _, _, spoken, serving⟩
    · cases idle.symm.trans attended
      rw [silent]
      exact ⟨.refl m, List.forall_mem_nil _⟩
    · rw [attend, serving] at attended
      split at attended
      · cases attended
      · next done handled =>
        cases attended
        -- All lines were dealt with, so none of them is a request to restart.
        have calm := (handleLines_ok handled).1
        rw [spoken, upToRestart_of_calm calm, filterMap_said]
        have served := (Steady.takeIn m fd id _).trans (.handleLines handled)
        refine ⟨?_, fun said member => ?_⟩
        · split
          · exact served
          · have dropped := served.trans (.dropClient done fd)
            rwa [List.append_nil] at dropped
        · obtain ⟨line, listed, rfl⟩ := List.mem_map.mp member
          exact calm line listed

/-- Attending to something that ends the image: the display has failed and nothing was said, or a
line has asked for a restart, whatever was asked for before it. -/
theorem gone_attend {ready : Ready} {departure : Departure}
    (gone : m.attend ready = .error departure) :
    (∃ failed f, departure = .ended (giveUp failed f) ∧ m.heard ready = []) ∨
    ∃ m' fd, Steady (m.asked ready) m m' ∧ (∃ said ∈ m.heard ready, isRestart said.2 = true) ∧
      departure = m'.replaceImage (some fd) := by
  cases ready with
  | signal number => cases gone
  | listener fd => cases gone
  | display =>
    rw [attend] at gone
    rcases unlessFailed_cases (events.wakeUp m.gate.activeWatches m) with fine | ⟨f, failed⟩
    · rw [fine] at gone
      cases gone
    · rw [failed] at gone
      cases gone
      exact .inl ⟨_, f, rfl, rfl⟩
  | client fd =>
    rw [asked_client]
    rcases serveClient_cases m fd with ⟨idle, _⟩ | ⟨client, id, _, _, spoken, serving⟩
    · cases idle.symm.trans gone
    · rw [attend, serving] at gone
      split at gone
      · next left handled =>
        cases gone
        -- The lines before the one that ended the image left it in place.
        obtain ⟨front, line, m', cut, others, last⟩ := handleLines_error handled
        obtain ⟨restart, same⟩ := handleLine_error last
        rw [spoken, cut, filterMap_said, List.filterMap_append]
        refine .inr ⟨m', fd, ?_, ?_, same⟩
        · have served := (Steady.takeIn m fd id _).trans (.handleLines others)
          rwa [List.filterMap_cons_none (exitStatus?_of_isRestart restart), List.filterMap_nil,
            List.append_nil]
        · exact ⟨(id, line), List.mem_map_of_mem (List.mem_append_right _ List.mem_cons_self),
            restart⟩
      · cases gone

/-! ## 3. A whole round -/

/-- Attending to several things that leave the image in place. -/
theorem steady_attendAll {ready : List Ready} (attended : m.attendAll ready = .ok m') :
    Steady (m.askedAll ready) m m' ∧ ∀ said ∈ m.heardAll ready, isRestart said.2 = false := by
  induction ready generalizing m with
  | nil =>
    cases attended
    exact ⟨.refl _, List.forall_mem_nil _⟩
  | cons first rest ih =>
    rw [attendAll] at attended
    split at attended
    · cases attended
    · next middle went =>
      obtain ⟨steady, calm⟩ := steady_attend went
      obtain ⟨steady', calm'⟩ := ih attended
      rw [askedAll, heardAll, went]
      exact ⟨steady.trans steady', List.forall_mem_append.mpr ⟨calm, calm'⟩⟩

/-- Attending to several things until the image ends. -/
theorem gone_attendAll {ready : List Ready} {departure : Departure}
    (gone : m.attendAll ready = .error departure) :
    (∃ failed f, departure = .ended (giveUp failed f) ∧
      ∀ said ∈ m.heardAll ready, isRestart said.2 = false) ∨
    ∃ m' fd, Steady (m.askedAll ready) m m' ∧
      (∃ said ∈ m.heardAll ready, isRestart said.2 = true) ∧
      departure = m'.replaceImage (some fd) := by
  induction ready generalizing m with
  | nil => cases gone
  | cons first rest ih =>
    rw [attendAll] at gone
    rw [askedAll, heardAll]
    split at gone
    · next left went =>
      cases gone
      rw [went, List.append_nil, List.append_nil]
      rcases gone_attend went with ⟨failed, f, same, silent⟩ | restarted
      · exact .inl ⟨failed, f, same, by rw [silent]; exact List.forall_mem_nil _⟩
      · exact .inr restarted
    · next middle went =>
      obtain ⟨steady, calm⟩ := steady_attend went
      rw [went]
      rcases ih gone with ⟨failed, f, same, calm'⟩ | ⟨m', fd, steady', ⟨said, heard, restart⟩, same⟩
      · exact .inl ⟨failed, f, same, List.forall_mem_append.mpr ⟨calm, calm'⟩⟩
      · exact .inr ⟨m', fd, steady.trans steady',
          ⟨said, List.mem_append_right _ heard, restart⟩, same⟩

/-- How a manager goes that has been asked to end with a status: in order, or because the display
has failed. -/
def GoneFor (status : Int) (remains : Remains) : Prop :=
  (∃ m : WindowManager, remains = m.shutDown status) ∨
    ∃ (m : WindowManager) (f : Fault), remains = m.giveUp f

theorem gone_endRound {status : Int} (noted : m.exitStatus = some status) :
    ∃ remains, m.endRound = .error (.ended remains) ∧ GoneFor status remains := by
  rw [endRound]
  rcases unlessFailed_cases (events.beforeWait m) with fine | ⟨f, failed⟩
  · have still : (events.beforeWait m).exitStatus = some status :=
      (Steady.of_view (Steady.events_preserve.beforeWait m)).status.trans noted
    rw [fine]
    simp only [still]
    exact ⟨_, rfl, .inl ⟨_, rfl⟩⟩
  · rw [failed]
    exact ⟨_, rfl, .inr ⟨_, f, rfl⟩⟩

/-- A round in which the manager has been asked to end: no line asks for a restart and the process
ends, or one does and the image is to be replaced. -/
theorem round_noted {ready : List Ready} {status : Int}
    (noted : (m.askedAll ready).getLast?.or m.exitStatus = some status) :
    ((∀ said ∈ m.heardAll ready, isRestart said.2 = false) ∧
      ∃ remains, m.round ready = .error (.ended remains) ∧ GoneFor status remains) ∨
    (∃ said ∈ m.heardAll ready, isRestart said.2 = true) ∧
      ∃ (m' : WindowManager) (fd : Int), Steady (m.askedAll ready) m m' ∧
        m.round ready = .error (m'.replaceImage (some fd)) := by
  rw [round]
  cases attended : m.attendAll ready with
  | ok m' =>
    obtain ⟨steady, calm⟩ := steady_attendAll attended
    exact .inl ⟨calm, gone_endRound (steady.status.trans noted)⟩
  | error departure =>
    rcases gone_attendAll attended with ⟨failed, f, same, calm⟩ | ⟨m', fd, steady, restarted, same⟩
    · exact .inl ⟨calm, _, congrArg Except.error same, .inr ⟨failed, f, rfl⟩⟩
    · exact .inr ⟨restarted, m', fd, steady, congrArg Except.error same⟩

/-- The paths of all listeners are text. -/
def HasTextPaths (m : WindowManager) : Prop :=
  ∀ fd l p, m.holding.set.listeners.get? fd = some l → l.path = some p → Utf8.isText p.bytes = true

theorem Steady.replaced {statuses : List Int} (steady : Steady statuses m m')
    (startable : m.Startable) (texts : m.HasTextPaths) (requester : Option Int) :
    ∃ next, m'.replaceImage requester = .replaced next := by
  have startable' : m'.Startable := by
    refine ⟨?_, ?_⟩
    · rw [steady.programs, steady.arguments]
      exact startable.named
    · rw [steady.arguments]
      exact startable.plain
  obtain ⟨text, written⟩ : ∃ text, m'.holding.handOff.1.encode = .ok text := by
    refine (Holding.encode_iff _).mpr fun p listed => ?_
    obtain ⟨fd, l, found, _, path⟩ := Holding.mem_listedPaths.mp listed
    rw [steady.listeners] at found
    exact texts fd l p found path
  rcases replaceImage_of_startable startable' requester with ⟨_, next, _, replaced⟩ | ⟨f, failed, _⟩
  · exact ⟨next, replaced⟩
  · cases written.symm.trans failed

/-- **A request to end is final exactly if no later line of the round asks for a restart.** Take any
manager, whatever becomes ready in a round and in whatever order: signals that ask it to end, lines
of its clients, several of one read included, new connections and the display. Suppose that it has
been asked to end, with this status last. If no line that is dealt with in the round asks for a
restart, the round ends the process: in order and with that status, or because the display has
failed. If one does, the image is replaced with the request to end still standing; so it goes on as
another image whenever that can be started. -/
theorem termination_is_final_iff {m : WindowManager} {ready : List Ready} {status : Int}
    (noted : (m.askedAll ready).getLast?.or m.exitStatus = some status) :
    ((∀ said ∈ m.heardAll ready, isRestart said.2 = false) →
      ∃ remains, m.round ready = .error (.ended remains) ∧ GoneFor status remains) ∧
    ((∃ said ∈ m.heardAll ready, isRestart said.2 = true) →
      ∃ (m' : WindowManager) (fd : Int), m'.exitStatus = some status ∧
        m.round ready = .error (m'.replaceImage (some fd))) ∧
    (m.Startable → m.HasTextPaths → ((∃ next, m.round ready = .error (.replaced next)) ↔
      ∃ said ∈ m.heardAll ready, isRestart said.2 = true)) := by
  rcases round_noted noted with ⟨calm, remains, ended, goneFor⟩ |
    ⟨⟨said, heard, restart⟩, m', fd, steady, going⟩
  · have noRestart : ¬∃ said ∈ m.heardAll ready, isRestart said.2 = true := by
      rintro ⟨said, heard, restart⟩
      cases (calm said heard).symm.trans restart
    refine ⟨fun _ => ⟨remains, ended, goneFor⟩, fun restarted => absurd restarted noRestart,
      fun _ _ => iff_of_false ?_ noRestart⟩
    rintro ⟨next, replaced⟩
    cases ended.symm.trans replaced
  · refine ⟨fun calm => ?_, fun _ => ⟨m', fd, steady.status.trans noted, going⟩,
      fun startable texts => iff_of_true ?_ ⟨said, heard, restart⟩⟩
    · cases (calm said heard).symm.trans restart
    · obtain ⟨next, replaced⟩ := steady.replaced startable texts (some fd)
      exact ⟨next, going.trans (congrArg Except.error replaced)⟩

/-- A client at 5 has sent these bytes. -/
def spokenTo (bytes : Bytes) : WindowManager :=
  { (default : WindowManager) with
    host :=
      { (default : Host) with
        connections := ⟨[(0, { inbox := bytes })], 1⟩
        programs := [Bytes.ofString "kestrel"] }
    arguments := [Bytes.ofString "kestrel"]
    holding :=
      ⟨{ clients := FdMap.insert {} 5 ⟨.localBind, {}⟩ },
        ⟨FdMap.insert {} 5 ⟨.stream 0, true⟩, [.stream 0]⟩⟩ }

theorem termination_is_final_of_two :
    let m := spokenTo (Bytes.ofString "exit\nping\n")
    (m.askedAll [.signal 15, .client 5]).getLast?.or m.exitStatus = some 0 ∧
      ∃ remains, m.round [.signal 15, .client 5] = .error (.ended remains) ∧
        GoneFor 0 remains := by
  intro m
  have noted : (m.askedAll [.signal 15, .client 5]).getLast?.or m.exitStatus = some 0 := by
    decide +kernel
  have calm : ∀ said ∈ m.heardAll [.signal 15, .client 5], isRestart said.2 = false := by
    decide +kernel
  exact ⟨noted, (termination_is_final_iff noted).1 calm⟩

/-- One read brings a request to end, which is noted, and a request to restart, which replaces the
image. -/
theorem restart_overrides_exit :
    let m := spokenTo (Bytes.ofString "exit\nrestart\n")
    m.heardAll [.client 5] = [(0, "exit"), (0, "restart")] ∧ m.askedAll [.client 5] = [0] ∧
      ∃ next, m.round [.client 5] = .error (.replaced next) := by
  intro m
  have heard : m.heardAll [.client 5] = [(0, "exit"), (0, "restart")] := by decide +kernel
  have asked : m.askedAll [.client 5] = [0] := by decide +kernel
  have startable : m.Startable := ⟨⟨Bytes.ofString "kestrel", List.mem_cons_self, rfl⟩, by decide⟩
  have texts : m.HasTextPaths := by
    intro fd l p found
    cases found
  have noted : (m.askedAll [.client 5]).getLast?.or m.exitStatus = some 0 := by
    rw [asked]
    rfl
  refine ⟨heard, asked, ?_⟩
  rcases round_noted noted with ⟨calm, _⟩ | ⟨_, m', fd, steady, going⟩
  · rw [heard] at calm
    exact absurd calm (by decide +kernel)
  · obtain ⟨next, replaced⟩ := steady.replaced startable texts (some fd)
    exact ⟨next, going.trans (congrArg Except.error replaced)⟩

end WindowManager

end Succession
