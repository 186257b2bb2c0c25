import Succession.EventLoop.Feed
import Succession.Proofs.EventLoop.Steps
import Succession.Proofs.Outcome

/-!
# No event is lost

The loop takes events from the front of the queue, deals with each of them once and in order, and
lets them wait while the gate is closed (`events_are_accounted`). Events may come at any time: from
outside, from the handling of other events, and from callbacks.
-/

namespace Succession.EventSource

open Chronicle (Leads arrivals gathered stateAfter)

variable {σ ε : Type}

/-! ## Each event that is taken is dealt with -/

/-- The event that was taken last and is still to be dealt with. -/
def inHand (isError : ε → Bool) (past : List (Call ε × σ)) : List ε :=
  match past.getLast? with
  | some (.poll (.ok (some e)), _) => if isError e then [] else [e]
  | _ => []

/-- At every moment of the record the events that were dealt with, and the one in hand, are those
that were taken and report no failed request; in the end there is none in hand. -/
structure Paired (isError : ε → Bool) (past : List (Call ε × σ)) : Prop where
  upTo : ∀ front rest, past = front ++ rest →
    gathered Call.dispatched front ++ inHand isError front =
      (gathered Call.taken front).filter fun e => !isError e
  done : inHand isError past = []

theorem inHand_append {isError : ε → Bool} {front : List (Call ε × σ)}
    (done : inHand isError front = []) (rest : List (Call ε × σ)) :
    inHand isError (front ++ rest) = inHand isError rest := by
  cases rest with
  | nil => rw [List.append_nil, done, inHand, List.getLast?_nil]
  | cons entry rest => rw [inHand, inHand, List.getLast?_append, List.getLast?_cons, Option.some_or]

theorem inHand_one {isError : ε → Bool} (call : Call ε) (t : σ) :
    inHand isError [(call, t)] = call.taken.filter fun e => !isError e := by
  rw [inHand, List.getLast?_singleton]
  cases call with
  | poll outcome =>
    rcases outcome with f | _ | e
    · rfl
    · rfl
    · cases error : isError e <;> simp [Call.taken, takenBy, error]
  | _ => rfl

namespace Paired

variable {isError : ε → Bool} {front rest : List (Call ε × σ)}

theorem nil : Paired isError ([] : List (Call ε × σ)) where
  upTo front rest split := by
    obtain ⟨rfl, _⟩ := List.append_eq_nil_iff.mp split.symm
    rfl
  done := rfl

theorem append (first : Paired isError front) (second : Paired isError rest) :
    Paired isError (front ++ rest) where
  upTo a b split := by
    rcases List.append_eq_append_iff.mp split with ⟨middle, rfl, rfl⟩ | ⟨middle, rfl, rfl⟩
    · -- the whole first record lies before the moment
      have whole := first.upTo front [] (List.append_nil _).symm
      rw [first.done, List.append_nil] at whole
      rw [inHand_append first.done, Chronicle.gathered_append, Chronicle.gathered_append,
        List.filter_append, ← whole, List.append_assoc, second.upTo middle b rfl]
    · exact first.upTo a middle rfl
  done := by rw [inHand_append first.done, second.done]

/-- A call that deals with no event and takes at most one that reports a failed request. -/
theorem one {call : Call ε} (dispatched : call.dispatched = [])
    (taken : (call.taken.filter fun e => !isError e) = []) (t : σ) :
    Paired isError [(call, t)] where
  upTo front rest split := by
    rcases List.cons_eq_append_iff.mp split with ⟨rfl, _⟩ | ⟨more, rfl, left⟩
    · rfl
    · obtain ⟨rfl, _⟩ := List.append_eq_nil_iff.mp left.symm
      simp [inHand_one, dispatched, taken]
  done := by rw [inHand_one, taken]

/-- Any other event is dealt with at once. -/
theorem dealt {e : ε} (error : isError e = false) (t u : σ) :
    Paired isError [(.poll (.ok (some e)), t), (.dispatch e, u)] where
  upTo front rest split := by
    rcases List.cons_eq_append_iff.mp split with ⟨rfl, _⟩ | ⟨more, rfl, left⟩
    · rfl
    · rcases List.cons_eq_append_iff.mp left with ⟨rfl, _⟩ | ⟨last, rfl, empty⟩
      · simp [inHand_one, Call.dispatched]
      · obtain ⟨rfl, _⟩ := List.append_eq_nil_iff.mp empty.symm
        simp [inHand, Call.taken, takenBy, Call.dispatched, error]
  done := rfl

end Paired

variable {p : EventSource σ ε} {allowed : (σ → σ) → Prop} {free : Prop} {s t : σ}
  {past : List (Call ε × σ)} {c : Chronicle σ (Call ε)}

theorem Draining.paired {outcome : Except Fault Nat} (draining : Draining p s past outcome t) :
    Paired p.isError past := by
  induction draining with
  | lost _ => exact .one rfl rfl _
  | done _ _ => exact (Paired.one rfl rfl _).append (.one rfl rfl _)
  | @dropped s t u e _ _ _ error _ ih =>
    have none : ((Call.poll (.ok (some e))).taken.filter fun e => !p.isError e) = [] := by
      simp [Call.taken, takenBy, error]
    exact (Paired.one rfl none t).append ih
  | dealt _ error _ ih => exact (Paired.dealt error _ _).append ih

theorem Working.paired (working : Working p allowed free s past t) : Paired p.isError past := by
  induction working with
  | nothing => exact .nil
  | append _ _ first second => exact first.append second
  | drained _ draining => exact draining.paired
  | failed _ _ | setGate _ _ | other _ _ => exact .one rfl rfl _

/-! ## Events are taken only while the gate is open -/

theorem Draining.gated (kept : p.Preserves p.gate) {outcome : Except Fault Nat}
    (isOpen : (p.gate s).isOpen = true) (draining : Draining p s past outcome t) :
    Leads (fun s call _ => call.taken ≠ [] → (p.gate s).isOpen = true) s past t := by
  induction draining with
  | lost _ => exact .one fun _ => isOpen
  | done _ _ => exact .cons (fun _ => isOpen) (.one fun taken => absurd rfl taken)
  | dropped polled _ _ ih =>
    have same := kept.of_poll polled
    exact .cons (fun _ => isOpen) (ih (same ▸ isOpen))
  | @dealt s t u e _ _ polled _ _ ih =>
    have same : p.gate (p.dispatch e t) = p.gate s :=
      (kept.dispatch e t).trans (kept.of_poll polled)
    exact .cons (fun _ => isOpen) (.cons (fun taken => absurd rfl taken) (ih (same ▸ isOpen)))

/-- Drains that are not made by force take events only while the gate is open. -/
theorem Working.gated (kept : p.Preserves p.gate) (working : Working p allowed False s past t) :
    Leads (fun s call _ => call.taken ≠ [] → (p.gate s).isOpen = true) s past t := by
  induction working with
  | nothing => exact .nil
  | append _ _ first second => exact first.append second
  | drained isOpen draining => exact draining.gated kept (isOpen.resolve_left id)
  | failed _ _ | setGate _ _ | other _ _ => exact .one fun taken => absurd rfl taken

/-! ## The queue -/

/-- Polls take their events from the front of a queue until it is empty; nothing else takes any, but
anything may put events behind it. The gate moves only where it is moved. -/
structure Queueing (p : EventSource σ ε) (queue : σ → List ε) : Prop where
  inOrder : ∀ {s t outcome}, p.poll s = (outcome, t) →
    queue s <+: (Call.poll outcome).taken ++ queue t
  exhausted : ∀ {s t}, p.poll s = (.ok none, t) → queue t = []
  flush : ∀ s, queue s <+: queue (p.flush s).2
  dispatch : ∀ e s, queue s <+: queue (p.dispatch e s)
  failed : ∀ f s, queue s <+: queue (p.failed f s)
  setGate : ∀ g s, queue s <+: queue (p.setGate g s)
  keepsGate : p.Preserves p.gate
  gate_setGate : ∀ g s, p.gate (p.setGate g s) = g

/-- A change of the state that at most puts events behind the queue. -/
def Enqueues (p : EventSource σ ε) (queue : σ → List ε) (change : σ → σ) : Prop :=
  ∀ s, queue s <+: queue (change s) ∧ p.gate (change s) = p.gate s

namespace Queueing

variable {queue : σ → List ε}

theorem of_answers (queueing : p.Queueing queue) {call : Call ε}
    (did : p.Answers (p.Enqueues queue) s call t) : queue s <+: call.taken ++ queue t := by
  cases call with
  | poll outcome => exact queueing.inOrder did
  | flush outcome =>
    obtain rfl : (p.flush s).2 = t := congrArg Prod.snd did
    exact queueing.flush s
  | dispatch e =>
    obtain rfl : p.dispatch e s = t := did
    exact queueing.dispatch e s
  | failed f =>
    obtain rfl : p.failed f s = t := did
    exact queueing.failed f s
  | setGate g =>
    obtain rfl : p.setGate g s = t := did
    exact queueing.setGate g s
  | other =>
    obtain ⟨change, enqueues, rfl⟩ := did
    exact (enqueues s).1

end Queueing

/-- A drain that succeeds leaves the queue as the last flush leaves an empty one. -/
theorem Draining.queue_eq_nil {queue : σ → List ε} (queueing : p.Queueing queue)
    (silent : ∀ s, queue (p.flush s).2 = queue s) {outcome : Except Fault Nat}
    (draining : Draining p s past outcome t) {count : Nat} (succeeds : outcome = .ok count) :
    queue t = [] := by
  induction draining generalizing count with
  | lost _ => cases succeeds
  | @done s t u _ polled flushed =>
    obtain rfl : (p.flush t).2 = u := congrArg Prod.snd flushed
    rw [silent, queueing.exhausted polled]
  | dropped _ _ _ ih => exact ih succeeds
  | dealt _ _ _ ih =>
    obtain ⟨_, succeeds, _⟩ := map_eq_ok.mp succeeds
    exact ih succeeds

/-- A drain in which no call fails succeeds. -/
theorem Draining.succeeds {outcome : Except Fault Nat} (draining : Draining p s past outcome t)
    (sound : ∀ entry ∈ past, entry.1.fails = false) : ∃ count, outcome = .ok count := by
  induction draining with
  | lost _ => cases sound _ (List.mem_singleton_self _)
  | @done s t u outcome _ _ =>
    cases outcome with
    | error f => cases sound _ (List.mem_cons_of_mem _ (List.mem_singleton_self _))
    | ok _ => exact ⟨0, rfl⟩
  | dropped _ _ _ ih => exact ih (List.forall_mem_cons.mp sound).2
  | dealt _ _ _ ih =>
    obtain ⟨count, rfl⟩ := ih (List.forall_mem_cons.mp (List.forall_mem_cons.mp sound).2).2
    exact ⟨count + 1, rfl⟩

/-- Where no call fails, the queue is empty when a drain with the gate open is over. -/
theorem drainIfOpen_queue {queue : σ → List ε} (lawful : p.Lawful) (queueing : p.Queueing queue)
    (silent : ∀ s, queue (p.flush s).2 = queue s) (isOpen : (p.gate c.now).isOpen = true)
    {new : List (Call ε × σ)} (noted : (p.recorded.drainIfOpen c).2 = c.extend new t)
    (sound : ∀ entry ∈ new, entry.1.fails = false) : queue t = [] := by
  rcases drainIfOpen_recorded lawful isOpen with
    ⟨past, count, u, draining, noted', _⟩ | ⟨past, f, u, draining, noted', _⟩
  · obtain ⟨rfl, rfl⟩ := Chronicle.extend_inj (noted.symm.trans noted')
    exact draining.queue_eq_nil queueing silent rfl
  · have noted' : c.extend new t = c.extend (past ++ [(.failed f, p.failed f u)]) (p.failed f u) :=
      noted.symm.trans (noted'.trans (Chronicle.extend_extend ..))
    obtain ⟨rfl, rfl⟩ := Chronicle.extend_inj noted'
    obtain ⟨_, impossible⟩ := draining.succeeds fun entry member =>
      sound entry (List.mem_append_left _ member)
    cases impossible

/-! ## Opening the gate -/

theorem setOpen_of_closed (isClosed : (p.gate s).isOpen = false) :
    ∃ g : Gate, g.isOpen = true ∧ p.setOpen true s = (p.drainIfOpen (p.setGate g s)).2 := by
  refine ⟨{ p.gate s with isOpen := true }.toggleLatest true, ?_, ?_⟩
  · rw [Gate.toggleLatest]
    split <;> rfl
  · simp only [setOpen, isClosed]
    rfl

/-- Where no call fails, opening the gate empties the queue. -/
theorem setOpen_queue {queue : σ → List ε} (lawful : p.Lawful) (queueing : p.Queueing queue)
    (silent : ∀ s, queue (p.flush s).2 = queue s) (isClosed : (p.gate c.now).isOpen = false)
    {new : List (Call ε × σ)} (noted : p.recorded.setOpen true c = c.extend new t)
    (sound : ∀ entry ∈ new, entry.1.fails = false) : queue t = [] := by
  have isClosed' : (p.recorded.gate c).isOpen = false := isClosed
  obtain ⟨g, isOpen, opened⟩ := setOpen_of_closed isClosed'
  have moved : (p.gate (p.recorded.setGate g c).now).isOpen = true := by
    show (p.gate (p.setGate g c.now)).isOpen = true
    rw [queueing.gate_setGate, isOpen]
  -- the drain goes on from the record in which the gate has been moved
  have drains : Notes p (p.Enqueues queue) False _ _ := .drainIfOpen lawful
  obtain ⟨past, _, drained⟩ := drains (p.recorded.setGate g c)
  have whole : c.extend new t = c.extend ((.setGate g, p.setGate g c.now) :: past) _ :=
    noted.symm.trans (opened.trans (drained.trans (Chronicle.note_extend ..)))
  obtain ⟨rfl, rfl⟩ := Chronicle.extend_inj whole
  exact drainIfOpen_queue lawful queueing silent moved drained (List.forall_mem_cons.mp sound).2

/-! ## The account -/

/-- When the queue is empty, all that was queued or came was dealt with in order. -/
theorem Working.dispatched_eq {queue : σ → List ε} (queueing : p.Queueing queue)
    (working : Working p (p.Enqueues queue) free s past t) (empty : queue t = []) :
    gathered Call.dispatched past =
      (queue s ++ arrivals Call.taken queue s past).filter fun e => !p.isError e := by
  have balance := working.leads.accounted fun did => queueing.of_answers did
  have whole := working.paired.upTo past [] (List.append_nil _).symm
  rw [working.paired.done, List.append_nil] at whole
  rw [whole, balance, empty, List.append_nil]

/-- A step other than a drain by force takes events only while the gate is open, and a step that
opens the gate deals with all that is queued, and what comes along, if no call fails. -/
theorem perform_spec {queue : σ → List ε} (lawful : p.Lawful) (queueing : p.Queueing queue)
    (c : Chronicle σ (Call ε)) {step : LoopStep σ}
    (gentle : ∀ change ∈ step.changes, p.Enqueues queue change) :
    ∃ new, p.recorded.perform (notingStep step) c = c.extend new (p.perform step c.now) ∧
      (step ≠ .drain → ∀ front call t rest, new = front ++ (call, t) :: rest → call.taken ≠ [] →
        (p.gate (stateAfter c.now front)).isOpen = true) ∧
      (step = .setOpen true → (p.gate c.now).isOpen = false →
        (∀ s, queue (p.flush s).2 = queue s) → (∀ entry ∈ new, entry.1.fails = false) →
        queue (p.perform step c.now) = [] ∧
        gathered Call.dispatched new =
          (queue c.now ++ arrivals Call.taken queue c.now new).filter fun e => !p.isError e) := by
  have performed : Notes p (p.Enqueues queue) (step = .drain) _ _ := .perform lawful gentle id
  obtain ⟨new, working, noted⟩ := performed c
  refine ⟨new, noted, ?_, ?_⟩
  · rintro unforced front call t rest rfl taken
    have careful : Working p (p.Enqueues queue) False c.now _ _ := working.mono unforced
    cases (careful.gated queueing.keepsGate).cut.2 with
    | cons gated _ => exact gated taken
  · rintro rfl isClosed silent sound
    have empty := setOpen_queue lawful queueing silent isClosed noted sound
    exact ⟨empty, working.dispatched_eq queueing empty⟩

/-- Whatever was done with the loop, and whichever polls and flushes failed: at every moment the
events that were queued at first and those that came since are those that were taken, in order, and
those that are queued; and those that were dealt with, once each and in order, are those that were
taken, but for reports of failed requests and one that is just to be dealt with. Any step but a
drain by force takes events only while the gate is open. Opening the gate when it was closed, if no
call fails and flushing leaves the queue as it is, empties the queue: all that was queued, and what
came along, is dealt with in order. -/
theorem events_are_accounted {queue : σ → List ε} (lawful : p.Lawful) (queueing : p.Queueing queue)
    {steps : List (LoopStep σ)}
    (gentle : ∀ step ∈ steps, ∀ change ∈ step.changes, p.Enqueues queue change)
    (performed : p.recorded.performAll (steps.map notingStep) ⟨s, []⟩ = c) :
    c.now = p.performAll steps s ∧ Leads (p.Answers (p.Enqueues queue)) s c.past c.now ∧
    (∀ front rest, c.past = front ++ rest →
      queue s ++ arrivals Call.taken queue s front =
        gathered Call.taken front ++ queue (stateAfter s front) ∧
      gathered Call.dispatched front ++ inHand p.isError front =
        (gathered Call.taken front).filter fun e => !p.isError e) ∧
    inHand p.isError c.past = [] ∧
    ∀ step : LoopStep σ, (∀ change ∈ step.changes, p.Enqueues queue change) →
      ∃ new, p.recorded.perform (notingStep step) c = c.extend new (p.perform step c.now) ∧
      (step ≠ .drain → ∀ front call t rest, new = front ++ (call, t) :: rest → call.taken ≠ [] →
        (p.gate (stateAfter c.now front)).isOpen = true) ∧
      (step = .setOpen true → (p.gate c.now).isOpen = false →
        (∀ s, queue (p.flush s).2 = queue s) → (∀ entry ∈ new, entry.1.fails = false) →
        queue (p.perform step c.now) = [] ∧
        gathered Call.dispatched new =
          (queue c.now ++ arrivals Call.taken queue c.now new).filter fun e => !p.isError e) := by
  have all : Notes p (p.Enqueues queue) True _ _ := .performAll lawful trivial gentle
  obtain ⟨past, working, noted⟩ := all ⟨s, []⟩
  rw [noted] at performed
  subst performed
  have paired := working.paired
  refine ⟨rfl, working.leads, fun front rest split => ⟨?_, paired.upTo front rest split⟩,
    paired.done, fun step gentle => perform_spec lawful queueing _ gentle⟩
  obtain rfl : past = front ++ rest := split
  exact working.leads.cut.1.accounted fun did => queueing.of_answers did

end Succession.EventSource

namespace Succession

open Chronicle (gathered)

namespace Feed

open EventSource (Call notingStep)

theorem poll_eq {s t : Feed} {outcome : Except Fault (Option FeedEvent)}
    (polled : s.poll = (outcome, t)) : s.queue = (Call.poll outcome).taken ++ t.queue ∧
      t.gate = s.gate ∧ (outcome = .ok none → t.queue = []) := by
  unfold poll at polled
  split at polled
  · cases polled
    exact ⟨rfl, rfl, nofun⟩
  · split at polled <;> cases polled
    · next empty => exact ⟨rfl, rfl, fun _ => empty⟩
    · next front => exact ⟨front, rfl, nofun⟩

theorem source_queueing : source.Queueing Feed.queue where
  inOrder polled := (poll_eq polled).1 ▸ List.prefix_rfl
  exhausted polled := (poll_eq polled).2.2 rfl
  flush _ := List.prefix_rfl
  dispatch e s := List.prefix_append s.queue e.next
  failed _ _ := List.prefix_rfl
  setGate _ _ := List.prefix_rfl
  keepsGate := {
    poll _ := (poll_eq rfl).2.1
    flush _ := rfl
    dispatch _ _ := rfl
    failed _ _ := rfl }
  gate_setGate _ _ := rfl

theorem enqueues_push (events : List FeedEvent) : source.Enqueues Feed.queue (·.push events) :=
  fun s => ⟨List.prefix_append s.queue events, rfl⟩

/-- The gate is closed, and then two events come: one from which another follows, and a report of a
failed request. -/
def held : List (LoopStep Feed) :=
  [.setOpen false, .change (·.push [.mk 1 false [.mk 2 false []], .mk 3 true []]), .beforeWait]

/-- The events wait while the gate is closed, and are dealt with when it is opened. -/
theorem events_are_accounted_of_held :
    ∃ c d, source.recorded.performAll (held.map notingStep) ⟨{}, []⟩ = c ∧
      gathered Call.taken c.past = [] ∧ c.now.queue.map FeedEvent.window = [1, 3] ∧
      source.recorded.perform (.setOpen true) c = d ∧ d.now.queue = [] ∧
      (gathered Call.dispatched d.past).map FeedEvent.window = [1, 2] := by
  have gentle : ∀ step ∈ held, ∀ change ∈ step.changes, source.Enqueues Feed.queue change := by
    refine List.forall_mem_cons.mpr ⟨nofun, List.forall_mem_cons.mpr ⟨?_, ?_⟩⟩
    · exact List.forall_mem_singleton.mpr (enqueues_push _)
    · exact List.forall_mem_singleton.mpr nofun
  have story :
      let c := source.recorded.performAll (held.map notingStep) ⟨{}, []⟩
      let d := source.recorded.perform (.setOpen true) c
      (gathered Call.taken c.past).map FeedEvent.window = [] ∧
      c.now.queue.map FeedEvent.window = [1, 3] ∧ c.now.gate.isOpen = false ∧
      (∀ entry ∈ d.past, entry.1.fails = false) ∧
      (gathered Call.dispatched d.past).map FeedEvent.window = [1, 2] := by
    decide
  obtain ⟨none, waiting, isClosed, sound, dispatched⟩ := story
  obtain ⟨_, _, _, _, further⟩ :=
    EventSource.events_are_accounted (s := {}) source_lawful source_queueing gentle rfl
  obtain ⟨new, opened, _, drains⟩ := further (.setOpen true) nofun
  have opened : source.recorded.perform (.setOpen true) _ = _ := opened
  obtain ⟨empty, _⟩ := drains rfl isClosed (fun _ => rfl) fun entry member =>
    sound entry (opened ▸ List.mem_append_right _ member)
  exact ⟨_, _, rfl, List.map_eq_nil_iff.mp none, waiting, opened, empty, opened ▸ dispatched⟩

end Feed

end Succession
