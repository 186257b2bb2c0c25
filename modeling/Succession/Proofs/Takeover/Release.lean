import Succession.Proofs.Takeover.Record

/-!
# The grab is released

A takeover that got the grab releases it at the end, whatever failed on the way, and the first
fault is the one that is reported (`grab_is_released`). After a fault nothing is claimed, honoured
or taken any more, and what was achieved before stays.
-/

namespace Succession.Takeover

open Chronicle (Leads arrivals gathered stateAfter)

variable {σ ε α : Type}

/-! ## Where a fault shows -/

theorem Call.faultOf_eq_some {outcome : Except Fault α} {f : Fault} :
    faultOf outcome = some f ↔ outcome = .error f := by
  cases outcome with
  | ok a => exact ⟨nofun, nofun⟩
  | error g => rw [faultOf, Option.some.injEq, Except.error.injEq]

/-- Of the faults of two outcomes the first counts. -/
theorem Call.faultOf_bind (first : Except Fault α) (second : Except Fault Unit) :
    faultOf (do
      let a ← first
      second
      return a) = (faultOf first).or (faultOf second) := by
  cases first with
  | error f => rfl
  | ok a => cases second <;> rfl

theorem Reports.findSome? {outcome : Except Fault α} {calls : List (Call ε)}
    (reports : Reports outcome calls) : calls.findSome? Call.fault? = Call.faultOf outcome := by
  cases reports with
  | ok clean => exact List.findSome?_eq_none_iff.mpr clean
  | error clean fault =>
    rw [List.findSome?_append, List.findSome?_eq_none_iff.mpr clean, List.findSome?_cons, fault]
    rfl

/-- Where the calls in front succeed, only one of those behind can fail. -/
theorem mem_of_behind_fault {clean tail front rest : List (Call ε)} {call later : Call ε}
    (allClean : ∀ call ∈ clean, call.fault? = none) (split : clean ++ tail = front ++ call :: rest)
    (fault : call.fault?.isSome = true) (behind : later ∈ rest) : later ∈ tail.tail := by
  -- the calls in front go one by one, as none of them is the one that failed
  induction clean generalizing front with
  | nil =>
    rw [List.nil_append] at split
    rw [split]
    cases front with
    | nil => exact behind
    | cons _ front => exact List.mem_append_right front (List.mem_cons_of_mem call behind)
  | cons first clean ih =>
    obtain ⟨firstClean, allClean⟩ := List.forall_mem_cons.mp allClean
    cases front with
    | nil =>
      obtain ⟨rfl, _⟩ := List.cons.inj split
      rw [firstClean] at fault
      cases fault
    | cons _ front => exact ih allClean (List.cons.inj split).2

/-- When a stage is over, there is nothing but one last call behind a call that failed. -/
theorem Reports.last_of_behind_fault {outcome : Except Fault α}
    {calls front rest : List (Call ε)} {last call later : Call ε} (reports : Reports outcome calls)
    (split : calls ++ [last] = front ++ call :: rest) (fault : call.fault?.isSome = true)
    (behind : later ∈ rest) : later = last := by
  cases reports with
  | ok clean => cases mem_of_behind_fault clean split fault behind
  | error clean _ =>
    rw [List.append_assoc] at split
    exact List.mem_singleton.mp (mem_of_behind_fault clean split fault behind)

namespace Party

/-! ## The whole takeover -/

variable {p : Party σ ε} {c : Chronicle σ (Call ε)} {t : σ}

theorem run_recorded_of_refused {f : Fault} (refused : p.grab c.now = (.error f, t)) :
    p.recorded.run c = (.error f, c.note (.grab (.error f)) t) ∧ p.run c.now = (.error f, t) := by
  have noted : p.recorded.grab c = (.error f, c.note (.grab (.error f)) t) := noteOutcome_eq refused
  rw [Party.run, Party.run, noted, refused]
  exact ⟨rfl, rfl⟩

theorem run_recorded_of_grabbed (grabbed : p.grab c.now = (.ok (), t)) :
    ∃ outcome under u release v, Leads p.Answers t under u ∧ p.ungrab u = (release, v) ∧
      Reports outcome (under.map Prod.fst) ∧ OfGrab (under.map Prod.fst) ∧
      let whole : Except Fault Report := do
        let report ← outcome
        release
        return report
      p.recorded.run c =
        (whole, c.extend ((.grab (.ok ()), t) :: under ++ [(.ungrab release, v)]) v) ∧
      p.run c.now = (whole, v) := by
  have noted : p.recorded.grab c = (.ok (), c.note (.grab (.ok ())) t) := noteOutcome_eq grabbed
  obtain ⟨under, done, leads, reports, ofGrab⟩ :=
    underGrab_recorded (p := p) (c := c.note (.grab (.ok ())) t)
  rcases plain : p.underGrab t with ⟨outcome, u⟩
  simp only [Chronicle.note_now, plain] at done leads reports
  rcases released : p.ungrab u with ⟨release, v⟩
  have last : p.recorded.ungrab ((c.note (.grab (.ok ())) t).extend under u) = (release, _) :=
    noteOutcome_eq released
  refine ⟨outcome, under, u, release, v, leads, released, reports, ofGrab, ?_, ?_⟩
  · rw [Party.run, noted]
    simp only [done, last]
    rw [Chronicle.note, Chronicle.note, Chronicle.extend_extend, Chronicle.extend_extend]
    cases outcome <;> cases release <;> rfl
  · rw [Party.run, grabbed]
    simp only [plain, released]
    cases outcome <;> cases release <;> rfl

/-- Polls take their events from the front of a queue, other calls only put events behind it, and no
call gives a managed window up. -/
structure Keeps (p : Party σ ε) (queue : σ → List ε) : Prop where
  inOrder : ∀ {s call t}, p.Answers s call t → queue s <+: call.taken ++ queue t
  stays : ∀ {s call t w}, p.Answers s call t → p.isManaged w s = true → p.isManaged w t = true

/-- A window is managed once it was claimed, or once the request to show it was honoured, where
`window` is the window that an event is about. -/
def Settles (p : Party σ ε) (window : ε → WindowId) : Prop :=
  ∀ {s call t}, p.Answers s call t → ∀ w ∈ call.settled window, p.isManaged w t = true

namespace Keeps

variable {queue : σ → List ε} {s t : σ} {past : List (Call ε × σ)} {w : WindowId}

/-- What was managed at first or at some time is managed in the end. -/
theorem managed (keeps : p.Keeps queue) (leads : Leads p.Answers s past t)
    (before : p.isManaged w s = true ∨ ∃ entry ∈ past, p.isManaged w entry.2 = true) :
    p.isManaged w t = true := by
  rcases before with first | ⟨entry, member, later⟩
  · exact leads.keeps (p.isManaged w · = true) keeps.stays first
  · obtain ⟨_, _, _, leads⟩ := leads.of_mem member
    exact leads.keeps (p.isManaged w · = true) keeps.stays later

/-- What was claimed, or asked for and honoured, is managed in the end. -/
theorem settled (keeps : p.Keeps queue) {window : ε → WindowId} (settles : p.Settles window)
    (leads : Leads p.Answers s past t) {entry : Call ε × σ} (member : entry ∈ past)
    (settled : w ∈ entry.1.settled window) : p.isManaged w t = true := by
  obtain ⟨_, _, did, _⟩ := leads.of_mem member
  exact keeps.managed leads (.inr ⟨entry, member, settles did w settled⟩)

/-- What a record says of the queue and of the managed windows. -/
theorem account (keeps : p.Keeps queue) (leads : Leads p.Answers s past t) :
    queue s ++ arrivals Call.taken queue s past = gathered Call.taken past ++ queue t ∧
    (∀ w, (p.isManaged w s = true ∨ ∃ entry ∈ past, p.isManaged w entry.2 = true) →
      p.isManaged w t = true) ∧
    ∀ window, p.Settles window → ∀ entry ∈ past, ∀ w ∈ entry.1.settled window,
      p.isManaged w t = true :=
  ⟨leads.accounted keeps.inOrder, fun _ => keeps.managed leads,
    fun _ settles _ member _ => keeps.settled settles leads member⟩

end Keeps

/-- A takeover asks the server for the grab. If that is refused, this is all. Otherwise it waits for
all events, asks for the windows unless the wait or a poll failed, and in the end releases the grab
once, behind all claims and honoured requests. Its fault is that of the first call that failed, and
behind a call that failed there is nothing but the release. At every moment the events that were
there at first and those that came are those that successful polls took and those that are left, and
every window is managed that was so at first or after one of the calls, as are those that were
claimed or whose requests were honoured if that makes them managed. -/
theorem grab_is_released {queue : σ → List ε} (keeps : p.Keeps queue) {s : σ}
    {outcome : Except Fault Report} {c : Chronicle σ (Call ε)}
    (ran : p.recorded.run ⟨s, []⟩ = (outcome, c)) :
    p.run s = (outcome, c.now) ∧ Leads p.Answers s c.past c.now ∧
    (∀ f, (p.grab s).1 = .error f → outcome = .error f ∧ c.calls = [.grab (.error f)]) ∧
    ((p.grab s).1 = .ok () → ∃ under release,
      c.calls = .grab (.ok ()) :: under ++ [.ungrab release] ∧
      under.filterMap Call.request? =
        .sync :: if under.any Call.barsQuery then [] else [.query]) ∧
    (∀ f, outcome = .error f ↔ c.calls.findSome? Call.fault? = some f) ∧
    (∀ front call rest, c.calls = front ++ call :: rest → call.fault?.isSome = true →
      ∀ later ∈ rest, ∃ release, later = .ungrab release) ∧
    ∀ front rest, c.past = front ++ rest →
      queue s ++ arrivals Call.taken queue s front =
        gathered Call.taken front ++ queue (stateAfter s front) ∧
      (∀ w, (p.isManaged w s = true ∨ ∃ entry ∈ front, p.isManaged w entry.2 = true) →
        p.isManaged w (stateAfter s front) = true) ∧
      ∀ window, p.Settles window → ∀ entry ∈ front, ∀ w ∈ entry.1.settled window,
        p.isManaged w (stateAfter s front) = true := by
  have moments (leads : Leads p.Answers s c.past c.now) (front rest : List (Call ε × σ))
      (split : c.past = front ++ rest) := keeps.account (split ▸ leads).cut.1
  rcases grabbed : p.grab s with ⟨granted, t⟩
  cases granted with
  | error f =>
    obtain ⟨noted, plain⟩ := run_recorded_of_refused (c := ⟨s, []⟩) grabbed
    cases noted.symm.trans ran
    have leads : Leads p.Answers s [(.grab (.error f), t)] t := .one grabbed
    refine ⟨plain, leads, ?_, nofun, ?_, ?_, moments leads⟩
    · rintro _ ⟨⟩
      exact ⟨rfl, rfl⟩
    · intro g
      show Except.error f = Except.error g ↔ some f = some g
      rw [Except.error.injEq, Option.some.injEq]
    · intro front call rest split fault later behind
      have split : [] ++ [.grab (.error f)] = front ++ call :: rest := split
      cases mem_of_behind_fault (List.forall_mem_nil _) split fault behind
  | ok _ =>
    obtain ⟨result, stretch, u, release, v, under, released, reports, ofGrab, noted, plain⟩ :=
      run_recorded_of_grabbed (c := ⟨s, []⟩) grabbed
    cases noted.symm.trans ran
    have leads : Leads p.Answers s ((.grab (.ok ()), t) :: stretch ++ [(.ungrab release, v)]) v :=
      .cons grabbed (under.append (.one released))
    have calls : (Chronicle.extend ⟨s, []⟩
        ((Call.grab (.ok ()), t) :: stretch ++ [(.ungrab release, v)]) v).calls =
        .grab (.ok ()) :: stretch.map Prod.fst ++ [.ungrab release] := by
      rw [Chronicle.calls_extend, List.map_append, List.map_cons]
      rfl
    -- the grab is one more call that succeeds before the stage under it
    have begun : Reports result (.grab (.ok ()) :: stretch.map Prod.fst) := reports.cons rfl
    refine ⟨plain, leads, nofun, fun _ => ⟨_, release, calls, ofGrab⟩, ?_, ?_, moments leads⟩
    · intro f
      rw [calls, ← Call.faultOf_eq_some, Call.faultOf_bind, List.findSome?_append, begun.findSome?,
        List.findSome?_singleton]
      rfl
    · intro front call rest split fault later behind
      rw [calls] at split
      exact ⟨release, begun.last_of_behind_fault split fault behind⟩

end Party

/-! ## The rehearsal -/

/-- The window that an event is about; zero stands for none. -/
def windowOf : DisplayEvent → WindowId
  | .mapRequest w | .unmap _ w | .destroy _ w => w
  | .other | .error _ => 0

namespace Rehearsal

variable {s t : Rehearsal} {w v : WindowId}

theorem manage_spec (w : WindowId) (s : Rehearsal) :
    s.queue <+: (s.manage w).queue ∧ (∀ v ∈ s.managed, v ∈ (s.manage w).managed) ∧
    ∀ v ∈ [w], v ∈ (s.manage w).managed := by
  unfold manage
  split
  · next managed => exact ⟨List.prefix_rfl, fun _ => id, List.forall_mem_singleton.mpr managed⟩
  · exact ⟨List.prefix_rfl, fun _ managed => List.mem_append_left _ managed,
      fun _ => List.mem_append_right _⟩

theorem poll_eq {outcome : Except Fault (Option DisplayEvent)} (did : s.poll = (outcome, t)) :
    s.queue = (Call.poll outcome).taken ++ t.queue ∧ t.managed = s.managed := by
  unfold poll at did
  split at did
  · cases did
    exact ⟨rfl, rfl⟩
  · split at did <;> cases did
    · exact ⟨rfl, rfl⟩
    · next front => exact ⟨front, rfl⟩

/-- What a call does to the queue and to the managed windows. -/
theorem answers_spec {call : Call DisplayEvent} (did : party.Answers s call t) :
    s.queue <+: call.taken ++ t.queue ∧ (∀ v ∈ s.managed, v ∈ t.managed) ∧
    ∀ w ∈ call.settled windowOf, w ∈ t.managed := by
  cases call with
  | grab outcome | ungrab outcome =>
    cases did
    exact ⟨List.prefix_rfl, fun _ => id, nofun⟩
  | sync outcome =>
    have did : s.sync = (outcome, t) := did
    unfold sync at did
    split at did
    · next s' same =>
      obtain ⟨_, rfl⟩ := Prod.mk.inj same
      cases did
      exact ⟨List.prefix_append _ _, fun _ => id, nofun⟩
    · obtain ⟨_, rfl⟩ := Prod.mk.inj did
      exact ⟨List.prefix_rfl, fun _ => id, nofun⟩
  | poll outcome =>
    obtain ⟨queue, managed⟩ := poll_eq did
    exact ⟨queue ▸ List.prefix_rfl, fun _ => managed ▸ id, nofun⟩
  | query outcome =>
    have did : s.children = (outcome, t) := did
    unfold children at did
    split at did <;> next s' same =>
      obtain ⟨_, rfl⟩ := Prod.mk.inj same
      cases did
      exact ⟨List.prefix_rfl, fun _ => id, nofun⟩
  | claim w outcome =>
    have did : s.claim w = (outcome, t) := did
    simp only [claim] at did
    split at did <;> cases did
    · exact ⟨List.prefix_rfl, fun _ => id, nofun⟩
    · exact manage_spec w { s with managerCalls := s.managerCalls ++ [.claim w] }
  | honour e =>
    obtain ⟨request, rfl⟩ := did
    cases e with
    | mapRequest w =>
      exact manage_spec w { s with managerCalls := s.managerCalls ++ [.honour w] }
    | _ => cases request

theorem party_keeps : party.Keeps Rehearsal.queue where
  inOrder did := (answers_spec did).1
  stays did managed := decide_eq_true ((answers_spec did).2.1 _ (of_decide_eq_true managed))

theorem party_settles : party.Settles windowOf :=
  fun did w settled => decide_eq_true ((answers_spec did).2.2 w settled)

/-- Two clients ask for their windows to be shown, the second one only when all events have come.
Of three windows that exist the second cannot be claimed, and in the end the grab cannot be
released. -/
def troubled : Rehearsal where
  queue := [.mapRequest 1, .destroy 9 9]
  inFlight := [.mapRequest 2]
  windows := [⟨3, false, true⟩, ⟨4, false, true⟩, ⟨5, false, true⟩]
  failingClaims := [4]
  failingCalls := [.ungrab]

/-- The claim that fails is what is reported. The release is tried all the same, and the three
windows settled before stay managed. -/
theorem grab_is_released_of_troubled :
    ∃ c, party.recorded.run ⟨troubled, []⟩ = (.error (.ipc "claim 4"), c) ∧
      party.run troubled = (.error (.ipc "claim 4"), c.now) ∧
      c.calls.filterMap Call.request? = [.grab, .sync, .query, .ungrab] ∧
      gathered Call.taken c.past = [.mapRequest 1, .destroy 9 9, .mapRequest 2] ∧
      (∃ under release, c.calls = .grab (.ok ()) :: under ++ [.ungrab release]) ∧
      ∀ w ∈ [1, 2, 3], party.isManaged w c.now = true := by
  have story : let c := (party.recorded.run ⟨troubled, []⟩).2
      c.calls.findSome? Call.fault? = some (.ipc "claim 4") ∧
      c.calls.filterMap Call.request? = [.grab, .sync, .query, .ungrab] ∧
      gathered Call.taken c.past = [.mapRequest 1, .destroy 9 9, .mapRequest 2] ∧
      gathered (Call.settled windowOf) c.past = [1, 2, 3] := by
    decide +kernel
  rcases ran : party.recorded.run ⟨troubled, []⟩ with ⟨outcome, c⟩
  rw [ran] at story
  obtain ⟨first, requests, taken, settled⟩ := story
  obtain ⟨plain, leads, _, released, reported, _, moments⟩ := Party.grab_is_released party_keeps ran
  obtain rfl := (reported _).mpr first
  obtain ⟨under, release, calls, _⟩ := released rfl
  refine ⟨c, rfl, plain, requests, taken, ⟨under, release, calls⟩, fun w member => ?_⟩
  obtain ⟨entry, noted, among⟩ := List.mem_flatMap.mp (settled ▸ member)
  obtain ⟨_, _, managed⟩ := moments c.past [] (List.append_nil _).symm
  rw [← leads.stateAfter_eq]
  exact managed windowOf party_settles entry noted w among

end Rehearsal

end Succession.Takeover
