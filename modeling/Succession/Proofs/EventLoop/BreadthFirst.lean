import Succession.Proofs.EventLoop.Accounting

/-!
# Draining reaches every event

Dealing with an event may put further events behind the queue, and those again others. If no endless
chain of events follows from any, draining ends and has reached all of them: first those that were
queued, then those that follow from these, and so on level by level (`drain_is_breadth_first`).

1. The order is given twice: level by level (`BreadthFirst`), and by a queue to whose end the events
   go that follow from its first one (`FirstInFirstOut`). Both are the same
   (`BreadthFirst.firstInFirstOut`).
2. The first one exists where no chain is endless (`exists_breadthFirst`).
3. A drain goes through the second one, as far as its calls succeed (`drainUpTo_firstInFirstOut`).
-/

namespace Succession.EventSource

variable {σ ε : Type}

/-! ## 1. The order of the events -/

section Order

variable (isError : ε → Bool) (next : ε → List ε)

/-- The events that follow from others. Nothing follows from reports of failed requests, since they
are not dealt with. -/
def followUps (events : List ε) : List ε :=
  events.flatMap fun e => if isError e then [] else next e

/-- The events of a level, then those that follow from them, and so on until nothing follows. -/
inductive BreadthFirst : List ε → List ε → Prop
  | done : BreadthFirst [] []
  | level {events rest : List ε} : events ≠ [] →
      BreadthFirst (followUps isError next events) rest → BreadthFirst events (events ++ rest)

/-- The events that are taken from the front of a queue to whose end those go that follow from
them. -/
inductive FirstInFirstOut : List ε → List ε → Prop
  | done : FirstInFirstOut [] []
  | take {e : ε} {waiting rest : List ε} :
      FirstInFirstOut (waiting ++ followUps isError next [e]) rest →
      FirstInFirstOut (e :: waiting) (e :: rest)

end Order

variable {isError : ε → Bool} {next : ε → List ε}

theorem followUps_cons (e : ε) (events : List ε) :
    followUps isError next (e :: events) =
      followUps isError next [e] ++ followUps isError next events := by
  rw [followUps, followUps, followUps, ← List.flatMap_append, List.singleton_append]

theorem followUps_error {e : ε} (error : isError e = true) : followUps isError next [e] = [] := by
  rw [followUps, List.flatMap_singleton, if_pos error]

theorem followUps_dealt {e : ε} (error : isError e = false) :
    followUps isError next [e] = next e := by
  rw [followUps, List.flatMap_singleton, error]
  rfl

/-- The order is determined. -/
theorem BreadthFirst.unique {events order order' : List ε}
    (first : BreadthFirst isError next events order)
    (second : BreadthFirst isError next events order') : order = order' := by
  induction first generalizing order' with
  | done =>
    cases second with
    | done => rfl
    | level some _ => exact absurd rfl some
  | level some _ ih =>
    cases second with
    | done => exact absurd rfl some
    | level _ others => rw [ih others]

/-- Taking the events at the front of a queue leaves those behind them and what follows. -/
theorem FirstInFirstOut.front {events waiting rest : List ε}
    (others : FirstInFirstOut isError next (waiting ++ followUps isError next events) rest) :
    FirstInFirstOut isError next (events ++ waiting) (events ++ rest) := by
  induction events generalizing waiting with
  | nil => simpa [followUps] using others
  | cons e events ih =>
    rw [followUps_cons, ← List.append_assoc] at others
    rw [List.cons_append, List.cons_append]
    refine .take ?_
    rw [List.append_assoc]
    exact ih others

/-- A queue is gone through level by level. -/
theorem BreadthFirst.firstInFirstOut {events order : List ε}
    (breadth : BreadthFirst isError next events order) :
    FirstInFirstOut isError next events order := by
  induction breadth with
  | done => exact .done
  | @level events rest _ _ ih =>
    have whole : FirstInFirstOut isError next (events ++ []) (events ++ rest) :=
      .front (by rwa [List.nil_append])
    rwa [List.append_nil] at whole

/-! ## 2. Chains that end -/

/-- From an event at most so many events follow one from the other, it counted too. -/
def Within (next : ε → List ε) : Nat → ε → Prop
  | 0, _ => False
  | depth + 1, e => ∀ later ∈ next e, Within next depth later

theorem Within.mono {depth more : Nat} {e : ε} (within : Within next depth e)
    (fewer : depth ≤ more) : Within next more e := by
  induction depth generalizing e more with
  | zero => exact within.elim
  | succ depth ih =>
    cases more with
    | zero => exact absurd fewer (Nat.not_succ_le_zero depth)
    | succ more =>
      exact fun later member => ih (within later member) (Nat.le_of_succ_le_succ fewer)

/-- Of finitely many chains one is the longest. -/
theorem exists_within {events : List ε} (each : ∀ e ∈ events, ∃ depth, Within next depth e) :
    ∃ depth, ∀ e ∈ events, Within next depth e := by
  induction events with
  | nil => exact ⟨0, List.forall_mem_nil _⟩
  | cons e events ih =>
    obtain ⟨⟨depth, first⟩, others⟩ := List.forall_mem_cons.mp each
    obtain ⟨depth', others⟩ := ih others
    exact ⟨max depth depth', List.forall_mem_cons.mpr ⟨first.mono (Nat.le_max_left _ _),
      fun e member => (others e member).mono (Nat.le_max_right _ _)⟩⟩

theorem within_of_acc {e : ε} (ends : Acc (fun later e => later ∈ next e) e) :
    ∃ depth, Within next depth e := by
  induction ends with
  | intro e _ ih =>
    obtain ⟨depth, later⟩ := exists_within ih
    exact ⟨depth + 1, later⟩

theorem mem_followUps {later : ε} {events : List ε}
    (member : later ∈ followUps isError next events) : ∃ e ∈ events, later ∈ next e := by
  obtain ⟨e, among, follows⟩ := List.mem_flatMap.mp member
  split at follows
  · cases follows
  · exact ⟨e, among, follows⟩

theorem exists_breadthFirst_of_within {depth : Nat} {events : List ε}
    (within : ∀ e ∈ events, Within next depth e) :
    ∃ order, BreadthFirst isError next events order := by
  induction depth generalizing events with
  | zero =>
    rw [List.eq_nil_iff_forall_not_mem.mpr within]
    exact ⟨[], .done⟩
  | succ depth ih =>
    by_cases none : events = []
    · rw [none]
      exact ⟨[], .done⟩
    · have below : ∀ later ∈ followUps isError next events, Within next depth later := by
        intro later member
        obtain ⟨e, among, follows⟩ := mem_followUps member
        exact within e among later follows
      obtain ⟨rest, breadth⟩ := ih below
      exact ⟨events ++ rest, .level none breadth⟩

/-- Where no endless chain of events follows from any, there is an order in which all are
reached. -/
theorem exists_breadthFirst {events : List ε}
    (finite : ∀ e ∈ events, Acc (fun later e => later ∈ next e) e) :
    ∃ order, BreadthFirst isError next events order := by
  obtain ⟨_, within⟩ := exists_within fun e member => within_of_acc (finite e member)
  exact exists_breadthFirst_of_within within

/-! ## 3. The drain -/

/-- Polls take the events of a queue from its front, dealing with an event puts those behind it that
follow from it, and nothing else moves the queue. The source bounds how many there are in all. -/
structure Follows (p : EventSource σ ε) (queue : σ → List ε) (next : ε → List ε) : Prop where
  poll : ∀ {s t outcome}, p.poll s = (outcome, t) → queue s = takenBy outcome ++ queue t
  exhausted : ∀ {s t}, p.poll s = (.ok none, t) → queue t = []
  flush : ∀ s, queue (p.flush s).2 = queue s
  dispatch : ∀ e s, queue (p.dispatch e s) = queue s ++ next e
  bounded : ∀ {s order}, BreadthFirst p.isError next (queue s) order → order.length ≤ p.backlog s

/-- The calls that deal with events: each is taken, and then dealt with unless it reports a failed
request. -/
def dealings (isError : ε → Bool) (events : List ε) : List (Call ε) :=
  events.flatMap fun e => .poll (.ok (some e)) :: if isError e then [] else [.dispatch e]

/-- How a drain goes for which some events are queued, and whose order is the second list: its
calls, its outcome and what it leaves in the queue.

* `all`: no call fails. Every event is reached, those that report no failed request are dealt with
  and counted, and then there is one flush.
* `unsent`: only the flush fails.
* `lost`: a poll fails after `n` that did not. The first `n` events are reached; of those that were
  queued or have followed, the others are left. -/
inductive Drained (isError : ε → Bool) (next : ε → List ε) (events order : List ε) :
    List (Call ε) → Except Fault Nat → List ε → Prop
  | all : Drained isError next events order
      (dealings isError order ++ [.poll (.ok none), .flush (.ok ())])
      (.ok (order.countP fun e => !isError e)) []
  | unsent (f : Fault) : Drained isError next events order
      (dealings isError order ++ [.poll (.ok none), .flush (.error f)]) (.error f) []
  | lost {n : Nat} {left : List ε} (f : Fault) : n ≤ order.length →
      events ++ followUps isError next (order.take n) = order.take n ++ left →
      Drained isError next events order
        (dealings isError (order.take n) ++ [.poll (.error f)]) (.error f) left

theorem dealings_cons (e : ε) (events : List ε) :
    dealings isError (e :: events) =
      (.poll (.ok (some e)) :: if isError e then [] else [.dispatch e]) ++
        dealings isError events :=
  List.flatMap_cons

/-- A drain goes on from its first event as one goes that begins behind it. -/
theorem Drained.take {e : ε} {waiting order left : List ε} {calls : List (Call ε)}
    {outcome : Except Fault Nat}
    (others : Drained isError next (waiting ++ followUps isError next [e]) order calls outcome
      left) :
    Drained isError next (e :: waiting) (e :: order)
      ((.poll (.ok (some e)) :: if isError e then [] else [.dispatch e]) ++ calls)
      (if isError e then outcome else outcome.map (· + 1)) left := by
  cases others with
  | all =>
    have counted : (if isError e then .ok (order.countP fun e => !isError e)
        else Except.map (· + 1) (.ok (order.countP fun e => !isError e) : Except Fault Nat)) =
          .ok ((e :: order).countP fun e => !isError e) := by
      rw [List.countP_cons]
      cases isError e <;> rfl
    rw [← List.append_assoc, ← dealings_cons, counted]
    exact .all
  | unsent f =>
    rw [← List.append_assoc, ← dealings_cons]
    cases isError e <;> exact .unsent f
  | @lost n _ f within split =>
    rw [← List.append_assoc, ← dealings_cons, ← List.take_succ_cons]
    have split : e :: waiting ++ followUps isError next ((e :: order).take (n + 1)) =
        (e :: order).take (n + 1) ++ left := by
      rw [List.take_succ_cons, followUps_cons, List.cons_append, List.cons_append,
        ← List.append_assoc, split]
    cases isError e <;> exact .lost f (Nat.succ_le_succ within) split

/-- A drain that succeeds has reached all events. -/
theorem Drained.of_ok {events order left : List ε} {calls : List (Call ε)} {count : Nat}
    (drained : Drained isError next events order calls (.ok count) left) :
    calls = dealings isError order ++ [.poll (.ok none), .flush (.ok ())] ∧
      count = (order.countP fun e => !isError e) ∧ left = [] := by
  cases drained
  exact ⟨rfl, rfl, rfl⟩

/-- A drain that leaves events has reached those before them. -/
theorem Drained.of_error {events order left : List ε} {calls : List (Call ε)} {f : Fault}
    (drained : Drained isError next events order calls (.error f) left) (some : left ≠ []) :
    ∃ n ≤ order.length, events ++ followUps isError next (order.take n) = order.take n ++ left ∧
      calls = dealings isError (order.take n) ++ [.poll (.error f)] := by
  cases drained with
  | unsent => exact absurd rfl some
  | lost _ within split => exact ⟨_, within, split, rfl⟩

variable {p : EventSource σ ε} {queue : σ → List ε} {c : Chronicle σ (Call ε)}

/-- However many events may be taken, if only more than there are: a drain ends, and its calls are
those that the order tells, as far as they succeed. -/
theorem drainUpTo_firstInFirstOut (follows : p.Follows queue next) {order : List ε}
    (fifo : FirstInFirstOut p.isError next (queue c.now) order) :
    ∃ past outcome t,
      Drained p.isError next (queue c.now) order (past.map Prod.fst) outcome (queue t) ∧
      ∀ limit, order.length < limit →
        p.recorded.drainUpTo limit c = (outcome, c.extend past t) := by
  generalize queued : queue c.now = events at fifo
  induction fifo generalizing c with
  | done =>
    rcases polled : p.poll c.now with ⟨outcome, t⟩
    have front := follows.poll polled
    rw [queued] at front
    rcases outcome with f | _ | e
    · refine ⟨[(.poll (.error f), t)], .error f, t, ?_, fun limit enough => ?_⟩
      · exact .lost (n := 0) f (Nat.le_refl 0) front
      · obtain ⟨limit, rfl⟩ := Nat.exists_eq_add_of_lt enough
        exact recorded_drainUpTo_lost polled _
    · rcases flushed : p.flush t with ⟨sent, u⟩
      have empty : queue u = [] := by
        rw [← follows.exhausted polled, ← follows.flush t, flushed]
      refine ⟨[(.poll (.ok none), t), (.flush sent, u)], sent.map fun _ => 0, u, ?_,
        fun limit enough => ?_⟩
      · rw [empty]
        cases sent with
        | error f => exact .unsent f
        | ok _ => exact .all
      · obtain ⟨limit, rfl⟩ := Nat.exists_eq_add_of_lt enough
        exact recorded_drainUpTo_done polled flushed _
    · cases front
  | @take e waiting rest _ ih =>
    rcases polled : p.poll c.now with ⟨outcome, t⟩
    have front := follows.poll polled
    rw [queued] at front
    rcases outcome with f | _ | e'
    · refine ⟨[(.poll (.error f), t)], .error f, t, ?_, fun limit enough => ?_⟩
      · exact .lost (n := 0) f (Nat.zero_le _) ((List.append_nil _).trans front)
      · obtain ⟨limit, rfl⟩ := Nat.exists_eq_add_of_lt enough
        exact recorded_drainUpTo_lost polled _
    · rw [follows.exhausted polled] at front
      cases front
    · obtain ⟨rfl, waits⟩ := List.cons.inj front
      have fewer (limit : Nat) : rest.length < (e :: rest).length + limit :=
        Nat.lt_add_right limit (Nat.lt_succ_self _)
      cases error : p.isError e with
      | true =>
        have behind : queue t = waiting ++ followUps p.isError next [e] := by
          rw [followUps_error error, List.append_nil]
          exact waits.symm
        obtain ⟨past, outcome, u, drained, ends⟩ := ih (c := c.note (.poll (.ok (some e))) t) behind
        have drained := drained.take
        simp only [error, if_true] at drained
        refine ⟨(.poll (.ok (some e)), t) :: past, outcome, u, drained, fun limit enough => ?_⟩
        obtain ⟨limit, rfl⟩ := Nat.exists_eq_add_of_lt enough
        rw [recorded_drainUpTo_taken polled, if_pos error, ends _ (fewer limit),
          Chronicle.note_extend]
      | false =>
        have behind : queue (p.dispatch e t) = waiting ++ followUps p.isError next [e] := by
          rw [followUps_dealt error, follows.dispatch]
          exact congrArg (· ++ next e) waits.symm
        obtain ⟨past, outcome, u, drained, ends⟩ :=
          ih (c := (c.note (.poll (.ok (some e))) t).note (.dispatch e) (p.dispatch e t)) behind
        have drained := drained.take
        simp only [error, if_neg Bool.false_ne_true] at drained
        refine ⟨(.poll (.ok (some e)), t) :: (.dispatch e, p.dispatch e t) :: past,
          outcome.map (· + 1), u, drained, fun limit enough => ?_⟩
        obtain ⟨limit, rfl⟩ := Nat.exists_eq_add_of_lt enough
        rw [recorded_drainUpTo_taken polled, if_neg (by rw [error]; exact Bool.false_ne_true),
          ends _ (fewer limit), Chronicle.note_extend, Chronicle.note_extend]

/-- **Draining ends and reaches every event.** Take a source whose events are taken from a queue, to
whose end those go that follow from them, and a state in which no endless chain follows from any
event that is queued. There is an order in which all of them are reached, those that are queued
first and then level by level what follows, and

* a drain goes as this order tells (`Drained`): if no call fails, it deals with all events that
  report no failed request, counts them, leaves the queue empty and flushes once, at the end; if a
  poll fails after `n` that did not, it has taken the first `n`, dealt with those among them that
  report no failed request, and flushed nothing, and the others wait in order;
* it is never cut off: it would go so with any limit above the number of events;
* with the gate open, the loop's drain gives the count, or zero after it has reported the failure,
  which it does once. -/
theorem drain_is_breadth_first (follows : p.Follows queue next) (c : Chronicle σ (Call ε))
    (finite : ∀ e ∈ queue c.now, Acc (fun later e => later ∈ next e) e) :
    ∃ order past outcome t, BreadthFirst p.isError next (queue c.now) order ∧
      Drained p.isError next (queue c.now) order (past.map Prod.fst) outcome (queue t) ∧
      p.drain c.now = (outcome, t) ∧ p.recorded.drain c = (outcome, c.extend past t) ∧
      (∀ limit, order.length < limit → p.recorded.drainUpTo limit c = p.recorded.drain c) ∧
      ((p.gate c.now).isOpen = true → p.recorded.drainIfOpen c =
        match outcome with
        | .ok count => (count, c.extend past t)
        | .error f => (0, (c.extend past t).note (.failed f) (p.failed f t))) := by
  obtain ⟨order, breadth⟩ := exists_breadthFirst finite
  obtain ⟨past, outcome, t, drained, ends⟩ :=
    drainUpTo_firstInFirstOut follows breadth.firstInFirstOut
  have noted : p.recorded.drain c = (outcome, c.extend past t) :=
    ends _ (Nat.lt_succ_of_le (follows.bounded breadth))
  have plain : p.drain c.now = (outcome, t) := by
    obtain ⟨count, final⟩ := recorded_drainUpTo (p := p) (p.backlog c.now + 1) c
    exact (Prod.ext count final).symm.trans (congrArg (fun r => (r.1, r.2.now)) noted)
  refine ⟨order, past, outcome, t, breadth, drained, plain, noted,
    fun limit enough => (ends limit enough).trans noted.symm, fun isOpen => ?_⟩
  have isOpen : (p.recorded.gate c).isOpen = true := isOpen
  rw [drainIfOpen, if_pos isOpen, noted]
  cases outcome <;> rfl

end Succession.EventSource

namespace Succession

open EventSource (BreadthFirst FirstInFirstOut Drained dealings followUps)

namespace FeedEvent

theorem weight_le_weightAll {e : FeedEvent} {events : List FeedEvent} (member : e ∈ events) :
    weight e ≤ weightAll events := by
  induction events with
  | nil => cases member
  | cons first rest ih =>
    rw [weightAll]
    rcases List.mem_cons.mp member with rfl | later
    · exact Nat.le_add_right _ _
    · exact Nat.le_add_left_of_le (ih later)

/-- Every chain of events ends, since an event outweighs those that follow from it. -/
theorem acc_next (e : FeedEvent) : Acc (fun later e : FeedEvent => later ∈ e.next) e := by
  have lighter {later e : FeedEvent} (follows : later ∈ e.next) : weight later < weight e := by
    rw [weight_eq e]
    exact Nat.lt_succ_of_le (weight_le_weightAll follows)
  exact Subrelation.accessible lighter ((measure weight).wf.apply e)

/-- No more events are reached than are counted by weight. -/
theorem length_le_weightAll {events order : List FeedEvent}
    (fifo : FirstInFirstOut isError next events order) : order.length ≤ weightAll events := by
  induction fifo with
  | done => exact Nat.le_refl 0
  | @take e waiting rest _ ih =>
    have fewer : weightAll (followUps isError next [e]) ≤ weightAll e.next := by
      cases error : e.isError with
      | true =>
        rw [EventSource.followUps_error error]
        exact Nat.zero_le _
      | false => exact Nat.le_of_eq (congrArg weightAll (EventSource.followUps_dealt error))
    rw [weightAll_append] at ih
    rw [List.length_cons, weightAll, weight_eq]
    omega

end FeedEvent

namespace Feed

open EventSource (Call)

theorem source_follows : source.Follows Feed.queue FeedEvent.next where
  poll polled := (poll_eq polled).1
  exhausted polled := (poll_eq polled).2.2 rfl
  flush _ := rfl
  dispatch _ _ := rfl
  bounded breadth := FeedEvent.length_le_weightAll breadth.firstInFirstOut

/-- Two events that follow from a third one; one of them reports a failed request. -/
def twigs : List FeedEvent := [.mk 4 false [.mk 6 false []], .mk 5 true [.mk 9 false []]]

/-- Events from which others follow, though not from the second one, which reports a failed
request. -/
def bushy : List FeedEvent :=
  [.mk 1 false twigs, .mk 2 true [.mk 8 false []], .mk 3 false [.mk 7 false []]]

/-- The order in which they are reached. -/
def bushyOrder : List FeedEvent :=
  bushy ++ (twigs ++ [.mk 7 false []] ++ ([.mk 6 false []] ++ []))

theorem bushy_breadthFirst :
    BreadthFirst FeedEvent.isError FeedEvent.next bushy bushyOrder :=
  .level nofun (.level nofun (.level nofun .done))

/-- Without a failure all levels are reached; if the fifth poll fails, four events are. -/
theorem drain_is_breadth_first_of_bushy :
    (∃ past t, source.recorded.drain ⟨{ queue := bushy }, []⟩ = (.ok 5, ⟨t, past⟩) ∧
      t.queue = [] ∧
      past.map Prod.fst =
        dealings FeedEvent.isError (bushy ++ twigs ++ [.mk 7 false [], .mk 6 false []]) ++
          [.poll (.ok none), .flush (.ok ())]) ∧
    ∃ past t, source.recorded.drainIfOpen ⟨{ queue := bushy, pollsLeft := some 4 }, []⟩ =
        (0, Chronicle.note ⟨t, past⟩ (.failed (.ipc "poll")) (source.failed (.ipc "poll") t)) ∧
      t.queue = [.mk 5 true [.mk 9 false []], .mk 7 false [], .mk 6 false []] ∧
      past.map Prod.fst =
        dealings FeedEvent.isError (bushy ++ [.mk 4 false [.mk 6 false []]]) ++
          [.poll (.error (.ipc "poll"))] := by
  have finite : ∀ e ∈ bushy, Acc (fun later e : FeedEvent => later ∈ e.next) e :=
    fun e _ => e.acc_next
  constructor
  · obtain ⟨order, past, outcome, t, breadth, drained, plain, noted, _⟩ :=
      EventSource.drain_is_breadth_first source_follows ⟨{ queue := bushy }, []⟩ finite
    obtain rfl := bushy_breadthFirst.unique breadth
    obtain rfl : .ok 5 = outcome := congrArg Prod.fst plain
    obtain ⟨calls, _, empty⟩ := drained.of_ok
    exact ⟨past, t, noted, empty, calls⟩
  · obtain ⟨order, past, outcome, t, breadth, drained, plain, noted, _, reported⟩ :=
      EventSource.drain_is_breadth_first source_follows
        ⟨{ queue := bushy, pollsLeft := some 4 }, []⟩ finite
    obtain rfl := bushy_breadthFirst.unique breadth
    obtain rfl : .error (.ipc "poll") = outcome := congrArg Prod.fst plain
    have waiting : [.mk 5 true [.mk 9 false []], .mk 7 false [], .mk 6 false []] = t.queue :=
      congrArg (fun r => r.2.queue) plain
    rw [← waiting] at drained
    obtain ⟨n, within, split, calls⟩ := drained.of_error nofun
    -- the windows of the events that are left tell how many were taken
    have only : ∀ n ≤ 7,
        (bushy ++ followUps FeedEvent.isError FeedEvent.next (bushyOrder.take n)).map
            FeedEvent.window =
          (bushyOrder.take n).map FeedEvent.window ++ [5, 7, 6] → n = 4 := by
      decide
    obtain rfl := only n within ((congrArg (List.map FeedEvent.window) split).trans
      List.map_append)
    exact ⟨past, t, reported rfl, waiting.symm, calls⟩

end Feed

end Succession
