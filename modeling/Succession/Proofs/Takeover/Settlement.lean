import Mathlib.Tactic.Tauto
import Succession.Proofs.Outcome
import Succession.Proofs.Takeover.Release
import Succession.Proofs.Takeover.Stages
import Succession.Proofs.Window.SlotOrder

/-!
# Every window is claimed once

What a takeover that succeeds asks of the manager: first that every request to show a window be
honoured, in the order in which the requests came, and then that every eligible window be claimed
that is not managed by then, in stacking order (`windows_are_claimed_once`). The managed windows
change while both loops run. What carries the proof is that they are at any moment those of the
beginning and those that were claimed or honoured since (`Fair.managed_iff`), so that each claim is
decided by what was listed before it.
-/

namespace Succession.Takeover

open Chronicle (Leads arrivals gathered stateAfter)
open WindowOrder (eraseDups_concat)

variable {σ ε α : Type}

/-! ## 1. The windows to be claimed -/

/-- The eligible ones of some children, in stacking order. -/
def eligible (windows : List RootChild) : List WindowId :=
  (windows.filter RootChild.isEligible).map RootChild.window

/-- The eligible windows that are not managed, each where it is listed first. -/
def unmanaged (managed : WindowId → Bool) (windows : List RootChild) : List WindowId :=
  (eligible windows).eraseDups.filter fun w => !managed w

theorem nodup_eraseDups (l : List WindowId) : l.eraseDups.Nodup := by
  induction l using List.reverseRecOn with
  | nil => exact .nil
  | append_singleton l w ih =>
    rw [eraseDups_concat]
    split
    · exact ih
    · next absent =>
      refine List.nodup_append.mpr ⟨ih, List.pairwise_singleton _ w, ?_⟩
      intro v member u last
      rw [List.mem_singleton.mp last]
      rintro rfl
      exact absent (List.mem_eraseDups.mp member)

theorem eraseDups_filter (keep : WindowId → Bool) (l : List WindowId) :
    (l.filter keep).eraseDups = l.eraseDups.filter keep := by
  induction l using List.reverseRecOn with
  | nil => rfl
  | append_singleton l w ih =>
    rw [List.filter_append, eraseDups_concat]
    by_cases kept : keep w = true
    · have same : w ∈ l.filter keep ↔ w ∈ l := List.mem_filter.trans (and_iff_left kept)
      rw [List.filter_cons_of_pos kept, List.filter_nil, eraseDups_concat, ih]
      simp only [same]
      split
      · rfl
      · rw [List.filter_append, List.filter_cons_of_pos kept, List.filter_nil]
    · rw [List.filter_cons_of_neg kept, List.filter_nil, List.append_nil, ih]
      split
      · rfl
      · rw [List.filter_append, List.filter_cons_of_neg kept, List.filter_nil, List.append_nil]

theorem mem_unmanaged {managed : WindowId → Bool} {windows : List RootChild} {w : WindowId} :
    w ∈ unmanaged managed windows ↔ w ∈ eligible windows ∧ managed w = false := by
  unfold unmanaged
  rw [List.mem_filter, List.mem_eraseDups, Bool.not_eq_true']

theorem nodup_unmanaged (managed : WindowId → Bool) (windows : List RootChild) :
    (unmanaged managed windows).Nodup := (nodup_eraseDups _).filter _

/-- A window that comes first is listed no more behind it. -/
theorem unmanaged_cons {managed : WindowId → Bool} {w : RootChild} {rest : List RootChild}
    (fits : w.isEligible = true) :
    unmanaged managed (w :: rest) =
      [w.window].filter (fun v => !managed v) ++
        (unmanaged managed rest).filter (fun v => !v == w.window) := by
  unfold unmanaged eligible
  rw [List.filter_cons_of_pos fits, List.map_cons, List.eraseDups_cons, eraseDups_filter,
    ← List.singleton_append, List.filter_append, List.filter_filter, List.filter_filter]
  simp only [Bool.and_comm]

/-- A window that is not eligible or managed already is not to be claimed. -/
theorem unmanaged_cons_of_skipped {managed : WindowId → Bool} {w : RootChild}
    (rest : List RootChild) (skipped : (!w.isEligible || managed w.window) = true) :
    unmanaged managed (w :: rest) = unmanaged managed rest := by
  cases fits : w.isEligible with
  | false =>
    unfold unmanaged eligible
    rw [List.filter_cons_of_neg (Bool.eq_false_iff.mp fits)]
  | true =>
    rw [fits, Bool.not_true, Bool.false_or] at skipped
    have others : (unmanaged managed rest).filter (fun v => !v == w.window) =
        unmanaged managed rest := by
      refine List.filter_eq_self.mpr fun v member => ?_
      rw [Bool.not_eq_true', beq_eq_false_iff_ne]
      rintro rfl
      cases skipped.symm.trans (mem_unmanaged.mp member).2
    rw [unmanaged_cons fits, others, List.filter_cons_of_neg (by rw [skipped]; exact nofun)]
    rfl

/-- Any other window is, and those behind it as if it were managed then. -/
theorem unmanaged_cons_of_claimed {managed later : WindowId → Bool} {w : RootChild}
    (rest : List RootChild) (claimed : (!w.isEligible || managed w.window) = false)
    (grown : ∀ v, later v = true ↔ managed v = true ∨ v = w.window) :
    unmanaged managed (w :: rest) = w.window :: unmanaged later rest := by
  obtain ⟨fits, free⟩ := Bool.or_eq_false_iff.mp claimed
  have others : (unmanaged managed rest).filter (fun v => !v == w.window) =
      unmanaged later rest := by
    unfold unmanaged
    rw [List.filter_filter]
    refine List.filter_congr fun v _ => ?_
    rw [Bool.eq_iff_iff, Bool.and_eq_true, Bool.not_eq_true', Bool.not_eq_true',
      Bool.not_eq_true', ← Bool.not_eq_true (later v), grown, not_or, beq_eq_false_iff_ne,
      Bool.not_eq_true, and_comm]
  rw [unmanaged_cons ((Bool.not_eq_false' _).mp fits), others,
    List.filter_cons_of_pos (by rw [free]; rfl)]
  rfl

/-! ## 2. What is asked of the manager -/

/-- The window that the manager is asked to manage. -/
def ManagerCall.window : ManagerCall → WindowId
  | claim w | honour w => w

/-- What the manager is asked for by a call, where `window` is the window that an event is about. -/
def Call.orders (window : ε → WindowId) : Call ε → List ManagerCall
  | claim w _ => [.claim w]
  | honour e => [.honour (window e)]
  | grab _ | sync _ | poll _ | query _ | ungrab _ => []

/-- The windows that a query lists. -/
def Call.listed : Call ε → List RootChild
  | query (.ok windows) => windows
  | _ => []

/-- A call that succeeds manages the windows that the manager is asked to manage. -/
theorem Call.settled_of_clean {call : Call ε} (window : ε → WindowId) (clean : call.fault? = none) :
    call.settled window = (call.orders window).map ManagerCall.window := by
  cases call with
  | claim w outcome =>
    cases outcome with
    | error f => cases clean
    | ok _ => rfl
  | _ => rfl

theorem gathered_eq_flatMap (yield : Call ε → List α) (past : List (Call ε × σ)) :
    gathered yield past = (past.map Prod.fst).flatMap yield :=
  (List.flatMap_map Prod.fst yield past).symm

/-- One chronicle goes on from another, with calls that did what they are noted for. -/
structure GoesOn (p : Party σ ε) (c : Chronicle σ (Call ε)) (stretch : List (Call ε × σ))
    (d : Chronicle σ (Call ε)) : Prop where
  past : d.past = c.past ++ stretch
  leads : Leads p.Answers c.now stretch d.now

namespace GoesOn

variable {p : Party σ ε} {c d e : Chronicle σ (Call ε)} {front back : List (Call ε × σ)}

theorem refl (c : Chronicle σ (Call ε)) : GoesOn p c [] c := ⟨(List.append_nil _).symm, .nil⟩

theorem trans (first : GoesOn p c front d) (second : GoesOn p d back e) :
    GoesOn p c (front ++ back) e := by
  refine ⟨?_, first.leads.append second.leads⟩
  rw [second.past, first.past, List.append_assoc]

theorem note {call : Call ε} {t : σ} (did : p.Answers c.now call t) :
    GoesOn p c [(call, t)] (c.note call t) := ⟨rfl, .one did⟩

/-- A call whose outcome is noted. -/
theorem of_noted {call : Except Fault α → Call ε} {outcome : Except Fault α}
    {answer : Except Fault α × σ} (noted : noteOutcome call c answer = (outcome, d))
    (did : ∀ t, answer = (outcome, t) → p.Answers c.now (call outcome) t) :
    GoesOn p c [(call outcome, d.now)] d := by
  obtain ⟨same, rfl⟩ := Prod.mk.inj noted
  subst same
  exact note (did answer.2 rfl)

end GoesOn

namespace Party

variable {p : Party σ ε} {queue : σ → List ε} {window : ε → WindowId} {c d : Chronicle σ (Call ε)}

/-- The queue holds the events that can be polled, and a poll finds none only if there is none. A
window becomes managed by being claimed, or by the request to show it being honoured, and in no
other way; and no call that succeeds gives a managed window up. -/
structure Fair (p : Party σ ε) (queue : σ → List ε) (window : ε → WindowId) : Prop where
  inOrder : ∀ {s call t}, p.Answers s call t → queue s <+: call.taken ++ queue t
  exhausted : ∀ {s t}, p.poll s = (.ok none, t) → queue t = []
  manages : ∀ {s call t}, p.Answers s call t → call.fault? = none →
    ∀ w, p.isManaged w t = true ↔ p.isManaged w s = true ∨ w ∈ call.settled window

/-- Events come by waiting for them, and no other call brings any. -/
def OnlySyncBrings (p : Party σ ε) (queue : σ → List ε) : Prop :=
  ∀ {s call t}, p.Answers s call t → (∀ outcome, call ≠ .sync outcome) →
    queue s = call.taken ++ queue t

/-- The managed windows are those of the beginning and those that the manager was asked to
manage. -/
theorem Fair.managed_iff (fair : p.Fair queue window) {s t : σ} {past : List (Call ε × σ)}
    (leads : Leads p.Answers s past t) (clean : ∀ call ∈ past.map Prod.fst, call.fault? = none)
    (w : WindowId) :
    p.isManaged w t = true ↔
      p.isManaged w s = true ∨ w ∈ (gathered (Call.orders window) past).map ManagerCall.window := by
  induction leads with
  | nil => exact ⟨.inl, fun | .inl managed => managed⟩
  | cons did _ ih =>
    obtain ⟨first, others⟩ := List.forall_mem_cons.mp clean
    rw [ih others, fair.manages did first, Call.settled_of_clean window first,
      Chronicle.gathered_cons, List.map_append, List.mem_append, or_assoc]

/-- Where the wait for events is over, no more come. -/
theorem OnlySyncBrings.arrivals_eq_nil (only : p.OnlySyncBrings queue) {s t : σ}
    {past : List (Call ε × σ)} (leads : Leads p.Answers s past t)
    (late : ∀ call ∈ past.map Prod.fst, ∀ outcome, call ≠ .sync outcome) :
    arrivals Call.taken queue s past = [] := by
  induction leads with
  | nil => rfl
  | cons did _ ih =>
    obtain ⟨first, others⟩ := List.forall_mem_cons.mp late
    rw [arrivals, ih others, List.append_nil, only did first, List.drop_length]

/-! ## 3. The drain -/

/-- What a stretch of the drain does: it has the requests among its events honoured in order, and
the report grows by what it counts. -/
structure Drains (p : Party σ ε) (window : ε → WindowId) (before after : Report)
    (past : List (Call ε × σ)) : Prop where
  clean : ∀ call ∈ past.map Prod.fst, call.fault? = none
  listed : gathered Call.listed past = []
  orders : gathered (Call.orders window) past =
    (((gathered Call.taken past).filter p.isMapRequest).map window).map .honour
  requests : after.mapRequests =
    before.mapRequests + ((gathered Call.taken past).filter p.isMapRequest).length
  events : after.mapRequests + after.discarded =
    before.mapRequests + before.discarded + (gathered Call.taken past).length
  claimed : after.claimed = before.claimed
  skipped : after.skipped = before.skipped

namespace Drains

variable {before after : Report} {past : List (Call ε × σ)} {e : ε} {s t : σ}

theorem nothing (report : Report) : Drains p window report report [(.poll (.ok none), s)] where
  clean := List.forall_mem_singleton.mpr rfl
  listed := rfl
  orders := rfl
  requests := rfl
  events := rfl
  claimed := rfl
  skipped := rfl

theorem honoured (request : p.isMapRequest e = true)
    (drains : Drains p window { before with mapRequests := before.mapRequests + 1 } after past) :
    Drains p window before after ((.poll (.ok (some e)), s) :: (.honour e, t) :: past) := by
  have requests : (gathered Call.taken ((.poll (.ok (some e)), s) :: (.honour e, t) :: past)).filter
      p.isMapRequest = e :: (gathered Call.taken past).filter p.isMapRequest :=
    List.filter_cons_of_pos request
  constructor
  · exact List.forall_mem_cons.mpr ⟨rfl, List.forall_mem_cons.mpr ⟨rfl, drains.clean⟩⟩
  · exact drains.listed
  · rw [requests]
    exact congrArg (ManagerCall.honour (window e) :: ·) drains.orders
  · rw [requests, drains.requests, List.length_cons, Nat.add_right_comm, Nat.add_assoc]
  · rw [drains.events]
    show before.mapRequests + 1 + before.discarded + (gathered Call.taken past).length =
      before.mapRequests + before.discarded + ((gathered Call.taken past).length + 1)
    omega
  · exact drains.claimed
  · exact drains.skipped

theorem dropped (other : ¬p.isMapRequest e = true)
    (drains : Drains p window { before with discarded := before.discarded + 1 } after past) :
    Drains p window before after ((.poll (.ok (some e)), s) :: past) := by
  have requests : (gathered Call.taken ((.poll (.ok (some e)), s) :: past)).filter p.isMapRequest =
      (gathered Call.taken past).filter p.isMapRequest := List.filter_cons_of_neg other
  constructor
  · exact List.forall_mem_cons.mpr ⟨rfl, drains.clean⟩
  · exact drains.listed
  · rw [requests]
    exact drains.orders
  · rw [requests]
    exact drains.requests
  · rw [drains.events]
    exact Nat.add_right_comm _ 1 _
  · exact drains.claimed
  · exact drains.skipped

/-- In front of the drain come the grab and the wait, which count for nothing. -/
theorem begun (drains : Drains p window before after past) :
    Drains p window before after ((.grab (.ok ()), s) :: (.sync (.ok ()), t) :: past) where
  clean := List.forall_mem_cons.mpr ⟨rfl, List.forall_mem_cons.mpr ⟨rfl, drains.clean⟩⟩
  listed := drains.listed
  orders := drains.orders
  requests := drains.requests
  events := drains.events
  claimed := drains.claimed
  skipped := drains.skipped

end Drains

/-- The drain polls until there is nothing left. -/
theorem drainUpTo_recorded_ok (lawful : p.Lawful) (window : ε → WindowId) {limit : Nat}
    {before after : Report} (enough : p.backlog c.now < limit)
    (drained : p.recorded.drainUpTo limit before c = (.ok after, d)) :
    ∃ stretch, GoesOn p c stretch d ∧ Drains p window before after stretch ∧
      ∃ s, p.poll s = (.ok none, d.now) := by
  induction limit generalizing before c with
  | zero => cases enough
  | succ limit ih =>
    rw [Party.drainUpTo] at drained
    rcases polled : p.poll c.now with ⟨outcome, next⟩
    have noted : p.recorded.poll c = (outcome, c.note (.poll outcome) next) := noteOutcome_eq polled
    rw [noted] at drained
    cases outcome with
    | error f => cases drained
    | ok event =>
      have first : GoesOn p c _ (c.note (.poll (.ok event)) next) := .note polled
      cases event with
      | none =>
        cases drained
        exact ⟨_, first, .nothing after, _, polled⟩
      | some e =>
        have fewer : p.backlog next < limit :=
          Nat.lt_of_lt_of_le (lawful.backlog_poll polled) (Nat.lt_succ_iff.mp enough)
        simp only at drained
        split at drained
        · next request =>
          have did : p.Answers next (.honour e) (p.honour e next) := ⟨request, rfl⟩
          have second : GoesOn p (c.note (.poll (.ok (some e))) next) _ _ := .note did
          obtain ⟨stretch, on, drains, last⟩ :=
            ih (Nat.lt_of_le_of_lt (lawful.backlog_honour e next) fewer) drained
          exact ⟨_, (first.trans second).trans on, drains.honoured request, last⟩
        · next other =>
          obtain ⟨stretch, on, drains, last⟩ := ih fewer drained
          exact ⟨_, first.trans on, drains.dropped other, last⟩

/-! ## 4. The claims -/

/-- The claims are those of the windows that are not managed, and the other windows are counted. -/
theorem claimAll_recorded_ok (fair : p.Fair queue window) {windows : List RootChild}
    {before after : Report} (done : p.recorded.claimAll windows before c = (.ok after, d)) :
    let taken := unmanaged (p.isManaged · c.now) windows
    (∃ stretch, GoesOn p c stretch d ∧
      stretch.map Prod.fst = taken.map fun w => Call.claim w (.ok ())) ∧
    after.claimed = before.claimed ++ taken ∧
    taken.length + after.skipped = before.skipped + windows.length ∧
    after.mapRequests = before.mapRequests ∧ after.discarded = before.discarded := by
  induction windows generalizing before c with
  | nil =>
    cases done
    exact ⟨⟨[], .refl d, rfl⟩, (List.append_nil _).symm, Nat.zero_add _, rfl, rfl⟩
  | cons w rest ih =>
    rw [Party.claimAll] at done
    split at done
    · next skipped =>
      obtain ⟨on, claimed, counted, requests, discarded⟩ := ih done
      rw [unmanaged_cons_of_skipped rest skipped]
      refine ⟨on, claimed, ?_, requests, discarded⟩
      rw [counted, List.length_cons]
      exact Nat.add_right_comm _ 1 _
    · next wanted =>
      rcases claimed : p.claim w.window c.now with ⟨outcome, next⟩
      have noted : p.recorded.claim w.window c = (outcome, c.note (.claim w.window outcome) next) :=
        noteOutcome_eq claimed
      rw [noted] at done
      cases outcome with
      | error f => cases done
      | ok _ =>
        have did : p.Answers c.now (.claim w.window (.ok ())) next := claimed
        have grown (v : WindowId) :
            p.isManaged v next = true ↔ p.isManaged v c.now = true ∨ v = w.window :=
          (fair.manages did rfl v).trans (or_congr_right List.mem_singleton)
        obtain ⟨⟨stretch, on, calls⟩, reported, counted, requests, discarded⟩ := ih done
        rw [unmanaged_cons_of_claimed rest (Bool.eq_false_iff.mpr wanted) grown]
        refine ⟨⟨_, (GoesOn.note did).trans on, ?_⟩, ?_, ?_, requests, discarded⟩
        · exact congrArg (Call.claim w.window (.ok ()) :: ·) calls
        · rw [reported, List.append_assoc]
          rfl
        · rw [List.length_cons, List.length_cons, Nat.add_right_comm]
          exact congrArg (· + 1) counted

/-! ## 5. The whole takeover -/

/-- What a takeover that succeeds does, one stage after another. -/
theorem run_recorded_ok (lawful : p.Lawful) (fair : p.Fair queue window) {report : Report}
    (ran : p.recorded.run c = (.ok report, d)) :
    ∃ early listing late windows before,
      GoesOn p c early listing ∧ GoesOn p listing late d ∧ Drains p window {} before early ∧
      queue listing.now = [] ∧
      (∃ drain, early.map Prod.fst = .grab (.ok ()) :: .sync (.ok ()) :: drain) ∧
      let taken := unmanaged (p.isManaged · listing.now) windows
      late.map Prod.fst =
        .query (.ok windows) :: taken.map (fun w => .claim w (.ok ())) ++ [.ungrab (.ok ())] ∧
      report.claimed = taken ∧ taken.length + report.skipped = windows.length ∧
      report.mapRequests = before.mapRequests ∧ report.discarded = before.discarded := by
  obtain ⟨grabbed, done, grab, under, release⟩ := run_ok ran
  obtain ⟨synced, drained, listed, before, windows, sync, drain, children, claims⟩ :=
    underGrab_ok under
  have onGrab : GoesOn p c _ grabbed := .of_noted grab fun _ => id
  have onSync : GoesOn p grabbed _ synced := .of_noted sync fun _ => id
  have onQuery : GoesOn p drained _ listed := .of_noted children fun _ => id
  have onRelease : GoesOn p done _ d := .of_noted release fun _ => id
  obtain ⟨drain, onDrain, drains, _, empty⟩ :=
    drainUpTo_recorded_ok lawful window (Nat.lt_succ_self (p.backlog synced.now)) drain
  obtain ⟨⟨claiming, onClaims, calls⟩, claimed, counted, requests, discarded⟩ :=
    claimAll_recorded_ok fair claims
  -- what is managed when the windows have been listed was so when the drain was over
  have managed : (p.isManaged · listed.now) = (p.isManaged · drained.now) := by
    funext w
    have did : p.Answers drained.now (.query (.ok windows)) listed.now := by
      cases onQuery.leads with
      | cons did _ => exact did
    exact Bool.eq_iff_iff.mpr ((fair.manages did rfl w).trans (or_iff_left List.not_mem_nil))
  rw [managed] at calls claimed counted
  rw [drains.claimed, List.nil_append] at claimed
  rw [drains.skipped, Nat.zero_add] at counted
  refine ⟨_, drained, _, windows, before, (onGrab.trans onSync).trans onDrain,
    (onQuery.trans onClaims).trans onRelease, drains.begun, fair.exhausted empty, ⟨_, rfl⟩, ?_,
    claimed, counted, requests, discarded⟩
  rw [List.map_append, List.map_append, calls]
  rfl

/-- What the calls behind the drain yield. -/
theorem gathered_late (window : ε → WindowId) {late : List (Call ε × σ)}
    {windows : List RootChild} {taken : List WindowId}
    (calls : late.map Prod.fst =
      .query (.ok windows) :: taken.map (fun w => .claim w (.ok ())) ++ [.ungrab (.ok ())]) :
    gathered Call.taken late = [] ∧ gathered Call.listed late = windows ∧
    gathered (Call.orders window) late = taken.map .claim ∧
    ∀ call ∈ late.map Prod.fst, call.fault? = none ∧ ∀ outcome, call ≠ .sync outcome := by
  have each {α : Type} (yield : Call ε → List α) :
      gathered yield late = yield (.query (.ok windows)) ++
        (taken.flatMap fun w => yield (.claim w (.ok ()))) ++ yield (.ungrab (.ok ())) := by
    rw [gathered_eq_flatMap, calls, List.flatMap_append, List.flatMap_cons, List.flatMap_map,
      List.flatMap_singleton]
  refine ⟨?_, ?_, ?_, ?_⟩
  · rw [each]
    simp [Call.taken]
  · rw [each]
    simp [Call.listed]
  · rw [each, List.map_eq_flatMap]
    exact List.append_nil _
  · rw [calls]
    intro call member
    simp only [List.cons_append, List.mem_cons, List.mem_append, List.mem_map,
      List.not_mem_nil, or_false] at member
    rcases member with rfl | ⟨w, _, rfl⟩ | rfl
    all_goals exact ⟨rfl, nofun⟩

theorem run_of_recorded {outcome : Except Fault Report}
    (ran : p.recorded.run c = (outcome, d)) : p.run c.now = (outcome, d.now) := by
  rcases grabbed : p.grab c.now with ⟨granted, t⟩
  cases granted with
  | error f =>
    obtain ⟨noted, plain⟩ := run_recorded_of_refused grabbed
    cases noted.symm.trans ran
    exact plain
  | ok _ =>
    obtain ⟨_, _, _, _, _, _, _, _, _, noted, plain⟩ := run_recorded_of_grabbed grabbed
    cases noted.symm.trans ran
    exact plain

/-- **A takeover that succeeds claims every window once.** Take any windows that are managed at
first, any events, and any children of the root window. The events that were in the queue and those
that came until the drain was over are all taken. Let `honoured` be the windows that they ask to
have shown, and `windows` the children.

* The manager is asked to honour each request, in the order in which they came, and then to claim
  the windows that are reported, in that order.
* Those are the eligible children that were neither managed at first nor honoured, in stacking
  order, each where it is listed first; so no window is claimed twice.
* In the end those windows are managed that were so at first, the honoured ones and all eligible
  children.
* Each child is claimed or skipped, and each event is a request or discarded.
* What is in the queue in the end came behind the drain. If events come by the wait for them alone,
  this is nothing. -/
theorem windows_are_claimed_once (lawful : p.Lawful) (fair : p.Fair queue window) {s : σ}
    {report : Report} (ran : p.recorded.run ⟨s, []⟩ = (.ok report, c)) :
    let events := gathered Call.taken c.past
    let honoured := (events.filter p.isMapRequest).map window
    let windows := gathered Call.listed c.past
    p.run s = (.ok report, c.now) ∧ Leads p.Answers s c.past c.now ∧
    gathered (Call.orders window) c.past = honoured.map .honour ++ report.claimed.map .claim ∧
    report.claimed =
      (eligible windows).eraseDups.filter (fun w => !(p.isManaged w s || decide (w ∈ honoured))) ∧
    report.claimed.Nodup ∧
    (∀ w, p.isManaged w c.now = true ↔
      p.isManaged w s = true ∨ w ∈ honoured ∨ w ∈ eligible windows) ∧
    report.claimed.length + report.skipped = windows.length ∧
    report.mapRequests = honoured.length ∧
    report.mapRequests + report.discarded = events.length ∧
    (∃ early late, c.past = early ++ late ∧
      (∃ drain, early.map Prod.fst = .grab (.ok ()) :: .sync (.ok ()) :: drain) ∧
      late.map Prod.fst = .query (.ok windows) ::
        report.claimed.map (fun w => .claim w (.ok ())) ++ [.ungrab (.ok ())] ∧
      queue s ++ arrivals Call.taken queue s early = events ∧
      queue c.now = arrivals Call.taken queue (stateAfter s early) late) ∧
    (p.OnlySyncBrings queue → queue c.now = []) := by
  intro events honoured windows
  obtain ⟨early, listing, late, windows', before, first, second, drains, empty, begun, calls,
    claimed, counted, requests, discarded⟩ := run_recorded_ok lawful fair ran
  have whole := first.trans second
  have past : c.past = early ++ late := whole.past
  obtain ⟨takesNone, lists, claims, lateCalls⟩ := gathered_late window calls
  have sameEvents : events = gathered Call.taken early := by
    show gathered Call.taken c.past = _
    rw [past, Chronicle.gathered_append, takesNone, List.append_nil]
  have sameWindows : windows = windows' := by
    show gathered Call.listed c.past = _
    rw [past, Chronicle.gathered_append, drains.listed, lists, List.nil_append]
  have sameHonoured : gathered (Call.orders window) early = honoured.map .honour := by
    rw [drains.orders, ← sameEvents]
  -- when the children are listed, what is managed is what was so at first or honoured
  have managed (w : WindowId) :
      p.isManaged w listing.now = (p.isManaged w s || decide (w ∈ honoured)) := by
    rw [Bool.eq_iff_iff, Bool.or_eq_true, decide_eq_true_iff,
      fair.managed_iff first.leads drains.clean, sameHonoured, List.map_map]
    have same : ManagerCall.window ∘ ManagerCall.honour = id := rfl
    rw [same, List.map_id]
  have taken : unmanaged (p.isManaged · listing.now) windows' =
      (eligible windows).eraseDups.filter fun w =>
        !(p.isManaged w s || decide (w ∈ honoured)) := by
    rw [sameWindows]
    exact List.filter_congr fun w _ => congrArg (!·) (managed w)
  have takes : queue s ++ arrivals Call.taken queue s early =
      gathered Call.taken early ++ queue listing.now := first.leads.accounted fair.inOrder
  have comes : queue listing.now ++ arrivals Call.taken queue listing.now late =
      gathered Call.taken late ++ queue c.now := second.leads.accounted fair.inOrder
  rw [empty, List.append_nil, ← sameEvents] at takes
  rw [empty, takesNone, List.nil_append, List.nil_append] at comes
  refine ⟨run_of_recorded ran, past ▸ whole.leads, ?_, claimed.trans taken,
    claimed ▸ nodup_unmanaged _ _, ?_, ?_, ?_, ?_, ⟨early, late, past, begun, ?_, ?_, ?_⟩, ?_⟩
  · rw [past, Chronicle.gathered_append, sameHonoured, claims, claimed]
  · intro w
    have before : p.isManaged w listing.now = true ↔ p.isManaged w s = true ∨ w ∈ honoured := by
      rw [managed, Bool.or_eq_true, decide_eq_true_iff]
    have same : ManagerCall.window ∘ ManagerCall.claim = id := rfl
    rw [fair.managed_iff second.leads fun call member => (lateCalls call member).1, claims,
      List.map_map, same, List.map_id, mem_unmanaged, ← sameWindows, ← or_assoc, ← before]
    cases p.isManaged w listing.now <;> simp
  · rw [claimed, sameWindows]
    exact counted
  · rw [requests, drains.requests, ← sameEvents]
    exact (Nat.zero_add _).trans (List.length_map _).symm
  · rw [requests, discarded, drains.events, ← sameEvents]
    exact Nat.zero_add _
  · rw [claimed, sameWindows]
    exact calls
  · exact takes
  · rw [first.leads.stateAfter_eq, comes]
  · intro only
    rw [← comes]
    exact OnlySyncBrings.arrivals_eq_nil only second.leads fun call member => (lateCalls call member).2

end Party

/-! ## 6. The rehearsal -/

namespace Rehearsal

variable {s t : Rehearsal} {v w : WindowId}

theorem mem_manage : v ∈ (s.manage w).managed ↔ v ∈ s.managed ∨ v = w := by
  unfold manage
  split
  · next managed =>
    refine ⟨.inl, ?_⟩
    rintro (before | rfl)
    · exact before
    · exact managed
  · rw [List.mem_append, List.mem_singleton]

theorem sync_managed {outcome : Except Fault Unit} (did : s.sync = (outcome, t)) :
    t.managed = s.managed := by
  unfold sync at did
  split at did
  · next same =>
    obtain ⟨_, rfl⟩ := Prod.mk.inj same
    cases did
    rfl
  · obtain ⟨_, rfl⟩ := Prod.mk.inj did
    rfl

theorem children_frame {outcome : Except Fault (List RootChild)}
    (did : s.children = (outcome, t)) : t.managed = s.managed ∧ t.queue = s.queue := by
  unfold children at did
  split at did <;> next same =>
    obtain ⟨_, rfl⟩ := Prod.mk.inj same
    cases did
    exact ⟨rfl, rfl⟩

theorem queue_manage (w : WindowId) (s : Rehearsal) : (s.manage w).queue = s.queue := by
  unfold manage
  split <;> rfl

theorem claim_queue {outcome : Except Fault Unit} (did : s.claim w = (outcome, t)) :
    t.queue = s.queue := by
  simp only [claim] at did
  split at did <;> cases did
  · rfl
  · exact queue_manage w _

theorem party_fair : party.Fair Rehearsal.queue windowOf where
  inOrder did := (answers_spec did).1
  exhausted := by
    intro s t did
    have did : s.poll = (.ok none, t) := did
    unfold poll at did
    split at did
    · cases did
    · split at did
      · next empty =>
        cases did
        exact empty
      · cases did
  manages := by
    intro s call t did clean v
    show decide _ = true ↔ decide _ = true ∨ _
    rw [decide_eq_true_iff, decide_eq_true_iff]
    have unchanged {l : List WindowId} (same : t.managed = s.managed) (none : l = []) :
        v ∈ t.managed ↔ v ∈ s.managed ∨ v ∈ l := by
      rw [same, none]
      exact (or_iff_left List.not_mem_nil).symm
    cases call with
    | grab outcome | ungrab outcome =>
      cases did
      exact unchanged rfl rfl
    | sync outcome => exact unchanged (sync_managed did) rfl
    | poll outcome => exact unchanged (poll_eq did).2 rfl
    | query outcome => exact unchanged (children_frame did).1 rfl
    | claim w outcome =>
      have did : s.claim w = (outcome, t) := did
      simp only [claim] at did
      split at did <;> cases did
      · cases clean
      · exact mem_manage.trans (or_congr_right List.mem_singleton.symm)
    | honour e =>
      obtain ⟨request, rfl⟩ := did
      cases e with
      | mapRequest w => exact mem_manage.trans (or_congr_right List.mem_singleton.symm)
      | _ => cases request

/-- In a rehearsal nothing comes but by waiting for it. -/
theorem party_onlySyncBrings : party.OnlySyncBrings Rehearsal.queue := by
  intro s call t did other
  cases call with
  | grab outcome | ungrab outcome =>
    cases did
    rfl
  | sync outcome => exact absurd rfl (other outcome)
  | poll outcome => exact (poll_eq did).1
  | query outcome => exact (children_frame did).2.symm
  | claim w outcome => exact (claim_queue did).symm
  | honour e =>
    obtain ⟨request, rfl⟩ := did
    cases e with
    | mapRequest w =>
      exact (queue_manage w { s with managerCalls := s.managerCalls ++ [.honour w] }).symm
    | _ => cases request

/-- Window 5 was restored. Two requests are about window 2, which is listed too; window 1 is listed
twice, and windows 3 and 4 are not eligible. -/
def crowded : Rehearsal where
  queue := [.mapRequest 2, .unmap 1 1]
  inFlight := [.other, .mapRequest 7, .mapRequest 2]
  managed := [5]
  windows := [⟨1, false, true⟩, ⟨2, false, true⟩, ⟨3, true, true⟩, ⟨4, false, false⟩,
    ⟨1, false, true⟩, ⟨5, false, true⟩, ⟨6, false, true⟩]

/-- Of the seven children the first and the last are claimed. -/
theorem windows_are_claimed_once_of_crowded :
    ∃ c, party.recorded.run ⟨crowded, []⟩ = (.ok ⟨[1, 6], 3, 2, 5⟩, c) ∧
      party.run crowded = (.ok ⟨[1, 6], 3, 2, 5⟩, c.now) ∧
      gathered (Call.orders windowOf) c.past =
        [.honour 2, .honour 7, .honour 2, .claim 1, .claim 6] ∧
      (∀ w, party.isManaged w c.now = true ↔ w ∈ [5, 2, 7, 1, 6]) ∧ c.now.queue = [] := by
  have story : let (outcome, c) := party.recorded.run ⟨crowded, []⟩
      outcome.toOption = some ⟨[1, 6], 3, 2, 5⟩ ∧
      gathered Call.taken c.past =
        [.mapRequest 2, .unmap 1 1, .other, .mapRequest 7, .mapRequest 2] ∧
      gathered Call.listed c.past = crowded.windows := by
    decide +kernel
  rcases ran : party.recorded.run ⟨crowded, []⟩ with ⟨outcome, c⟩
  rw [ran] at story
  obtain ⟨reported, events, windows⟩ := story
  obtain rfl := toOption_eq_some.mp reported
  have settled := Party.windows_are_claimed_once party_lawful party_fair ran
  simp only [events, windows] at settled
  obtain ⟨plain, _, orders, _, _, managed, _, _, _, _, empty⟩ := settled
  refine ⟨c, rfl, plain, orders, fun w => ?_, empty party_onlySyncBrings⟩
  rw [managed]
  show decide (w ∈ [5]) = true ∨ w ∈ [2, 7, 2] ∨ w ∈ [1, 2, 1, 5, 6] ↔ _
  simp only [decide_eq_true_eq, List.mem_cons, List.not_mem_nil, or_false]
  tauto

end Rehearsal

end Succession.Takeover
