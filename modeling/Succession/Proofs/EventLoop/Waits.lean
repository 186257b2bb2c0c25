import Succession.Proofs.EventLoop.Accounting

/-!
# What is queued when the loop goes to sleep

Before each wait the loop drains the queue and then does its idle action. A wait therefore begins
with what the idle action before it put into an empty queue (`waits_begin_drained`): with nothing,
unless that action brings events, which then wait until the loop wakes up for another reason
(`idle_events_wait`).
-/

namespace Succession.EventSource

open Chronicle (arrivals gathered stateAfter)

variable {σ ε : Type} {p : EventSource σ ε} {queue : σ → List ε} {s : σ}

/-- With the gate open, the callbacks and the drain behind them leave an empty queue if no call
fails. -/
theorem round_drained (lawful : p.Lawful) (queueing : p.Queueing queue)
    (silent : ∀ s, queue (p.flush s).2 = queue s) {callbacks : List (Callback σ)}
    (gentle : ∀ change ∈ callbacks.filterMap Callback.change?, p.Enqueues queue change)
    {c : Chronicle σ (Call ε)} (isOpen : (p.gate c.now).isOpen = true) :
    ∃ front d, p.beforeWait (p.attend callbacks c.now) = d ∧
      p.recorded.beforeWait (p.recorded.attend (callbacks.map notingCallback) c) =
        c.extend front d ∧
      Working p (p.Enqueues queue) False c.now front d ∧ p.gate d = p.gate c.now ∧
      ((∀ entry ∈ front, entry.1.fails = false) → queue d = []) := by
  have attends : Notes p (p.Enqueues queue) False _ _ := .attend lawful gentle
  have drains : Notes p (p.Enqueues queue) False _ _ := .drainIfOpen lawful
  have kept := queueing.keepsGate.attend (fun change member s => (gentle change member s).2) c.now
  obtain ⟨woken, working, attended⟩ := attends c
  generalize p.attend callbacks c.now = awake at *
  obtain ⟨new, working', drained⟩ := drains (c.extend woken awake)
  refine ⟨woken ++ new, _, rfl, ?_, working.append working', ?_, fun sound => ?_⟩
  · rw [attended]
    exact drained.trans (Chronicle.extend_extend ..)
  · exact (queueing.keepsGate.drainIfOpen awake).trans kept
  · exact drainIfOpen_queue lawful queueing silent (kept ▸ isOpen) drained fun entry member =>
      sound entry (List.mem_append_right _ member)

/-- At the end of each round but for its idle action the queue is empty, and the next wait begins as
the idle action leaves the state. -/
theorem rounds_drained (lawful : p.Lawful) (queueing : p.Queueing queue)
    (silent : ∀ s, queue (p.flush s).2 = queue s) {rs : List (LoopRound σ)}
    (gentle : ∀ change ∈ rs.flatMap LoopRound.changes, p.Enqueues queue change)
    {c : Chronicle σ (Call ε)} (isOpen : (p.gate c.now).isOpen = true)
    (sound : ∀ entry ∈ (p.recorded.rounds (rs.map notingRound) c).2.past, entry.1.fails = false) :
    ∃ drained : List σ, drained.length = rs.length ∧
      (p.rounds rs c.now).1 ++ [(p.rounds rs c.now).2] =
        c.now :: (rs.zip drained).map (fun (r, d) => r.idle d) ∧
      ∀ d ∈ drained, queue d = [] ∧ ∃ front, Working p (p.Enqueues queue) False c.now front d ∧
        c.past ++ front <+: (p.recorded.rounds (rs.map notingRound) c).2.past := by
  induction rs generalizing c with
  | nil => exact ⟨[], rfl, rfl, List.forall_mem_nil _⟩
  | cons r rest ih =>
    obtain ⟨first, others⟩ := List.forall_mem_append.mp gentle
    obtain ⟨callbacks, idle⟩ := List.forall_mem_append.mp first
    have idle : p.Enqueues queue r.idle := List.forall_mem_singleton.mp idle
    obtain ⟨front, d, plain, noted, working, kept, empties⟩ :=
      round_drained lawful queueing silent callbacks isOpen
    have round : (p.recorded.rounds ((r :: rest).map notingRound) c).2 =
        (p.recorded.rounds (rest.map notingRound) (noting r.idle (c.extend front d))).2 := by
      rw [← noted]
      rfl
    have isOpen : (p.gate (noting r.idle (c.extend front d)).now).isOpen = true := by
      show (p.gate (r.idle d)).isOpen = true
      rw [(idle d).2, kept, isOpen]
    rw [round] at sound ⊢
    obtain ⟨drained, length, waits, later⟩ := ih others isOpen sound
    -- the later rounds see all that this one noted, its idle action included
    have goesOn : Notes p (p.Enqueues queue) False _ _ := .rounds lawful others
    have grows : c.past ++ front <+: _ :=
      (List.prefix_append _ [(Call.other, r.idle d)]).trans
        (goesOn.past_grows (noting r.idle (c.extend front d)))
    refine ⟨d :: drained, ?_, ?_, List.forall_mem_cons.mpr ⟨⟨?_, front, working, grows⟩, ?_⟩⟩
    · rw [List.length_cons, List.length_cons, length]
    · subst plain
      exact congrArg (c.now :: ·) waits
    · exact empties fun entry member => sound entry (grows.subset (List.mem_append_right _ member))
    · intro d' member
      obtain ⟨empty, front', working', grows'⟩ := later d' member
      refine ⟨empty, front ++ [(.other, r.idle d)] ++ front', ?_, ?_⟩
      · exact (working.append (.other d idle)).append working'
      · have ended : (noting r.idle (c.extend front d)).past =
            c.past ++ front ++ [(.other, r.idle d)] := rfl
        rw [ended] at grows'
        simpa only [List.append_assoc] using grows'

/-- Up to a moment of a record nothing was left behind: the queue is empty, and every event that was
queued at first or came since was dealt with in order, but for reports of failed requests. -/
def DealtWithAll (p : EventSource σ ε) (queue : σ → List ε) (s : σ) (past : List (Call ε × σ))
    (d : σ) : Prop :=
  ∃ front, front <+: past ∧ stateAfter s front = d ∧ queue d = [] ∧
    gathered Call.dispatched front =
      (queue s ++ arrivals Call.taken queue s front).filter fun e => !p.isError e

theorem Working.dealtWithAll (queueing : p.Queueing queue) {free : Prop}
    {past front : List (Call ε × σ)} {d : σ}
    (working : Working p (p.Enqueues queue) free s front d) (among : front <+: past)
    (empty : queue d = []) : p.DealtWithAll queue s past d :=
  ⟨front, among, working.leads.stateAfter_eq, empty, working.dispatched_eq queueing empty⟩

/-- The gate is open and no call fails. Then each wait begins as the idle action before it, or the
drain before the first wait, left the state; and that action found an empty queue, with every event
that was queued or had come by then dealt with. So a wait begins with an empty queue if the idle
actions bring no events. -/
theorem waits_begin_drained (lawful : p.Lawful) (queueing : p.Queueing queue)
    (silent : ∀ s, queue (p.flush s).2 = queue s) {rs : List (LoopRound σ)}
    (gentle : ∀ change ∈ rs.flatMap LoopRound.changes, p.Enqueues queue change)
    (isOpen : (p.gate s).isOpen = true)
    (sound : ∀ entry ∈ (p.recorded.run (rs.map notingRound) ⟨s, []⟩).2.past,
      entry.1.fails = false) :
    let past := (p.recorded.run (rs.map notingRound) ⟨s, []⟩).2.past
    ∃ first drained, drained.length = rs.length ∧
      (p.run rs s).1 ++ [(p.run rs s).2] = first :: (rs.zip drained).map (fun (r, d) => r.idle d) ∧
      (∀ d ∈ first :: drained, p.DealtWithAll queue s past d) ∧
      ((∀ r ∈ rs, ∀ s, queue (r.idle s) = queue s) → ∀ w ∈ (p.run rs s).1, queue w = []) := by
  intro past
  -- the drain before the first wait is that of a round in which no callback runs
  have none : ∀ change ∈ ([] : List (Callback σ)).filterMap Callback.change?,
      p.Enqueues queue change := List.forall_mem_nil _
  obtain ⟨front, d, plain, noted, working, kept, empties⟩ :=
    round_drained (c := ⟨s, []⟩) lawful queueing silent none isOpen
  have started : (p.recorded.run (rs.map notingRound) ⟨s, []⟩).2 =
      (p.recorded.rounds (rs.map notingRound) (Chronicle.extend ⟨s, []⟩ front d)).2 := by
    rw [← noted]
    rfl
  have goesOn : Notes p (p.Enqueues queue) False _ _ := .rounds lawful gentle
  have grows : front <+: past := by
    show front <+: (p.recorded.run _ _).2.past
    rw [started]
    exact goesOn.past_grows (Chronicle.extend ⟨s, []⟩ front d)
  have empty : queue d = [] := empties fun entry member => sound entry (grows.subset member)
  rw [started] at sound
  obtain ⟨drained, length, waits, later⟩ :=
    rounds_drained lawful queueing silent gentle (kept ▸ isOpen) sound
  have waits : (p.run rs s).1 ++ [(p.run rs s).2] =
      d :: (rs.zip drained).map fun (r, d) => r.idle d := by
    subst plain
    exact waits
  refine ⟨d, drained, length, waits, List.forall_mem_cons.mpr ⟨?_, fun d' member => ?_⟩, ?_⟩
  · exact working.dealtWithAll queueing grows empty
  · obtain ⟨empty', front', working', grows'⟩ := later d' member
    rw [← started] at grows'
    exact (working.append working').dealtWithAll queueing grows' empty'
  · intro quiet w member
    have among : w ∈ d :: (rs.zip drained).map fun (r, d) => r.idle d :=
      waits ▸ List.mem_append_left _ member
    rcases List.mem_cons.mp among with rfl | among
    · exact empty
    · obtain ⟨⟨r, d'⟩, pair, rfl⟩ := List.mem_map.mp among
      obtain ⟨isRound, isDrained⟩ := List.of_mem_zip pair
      rw [quiet r isRound, (later d' isDrained).1]

end Succession.EventSource

namespace Succession.Feed

open EventSource (notingRound)

/-- In a first round the idle action brings an event. A second round follows. -/
def lateRounds : List (LoopRound Feed) := [⟨[], (·.push [.mk 7 false []])⟩, {}]

theorem lateRounds_gentle :
    ∀ change ∈ lateRounds.flatMap LoopRound.changes, source.Enqueues Feed.queue change := by
  have nothing : source.Enqueues Feed.queue id := fun _ => ⟨List.prefix_rfl, rfl⟩
  exact List.forall_mem_cons.mpr ⟨enqueues_push _, List.forall_mem_singleton.mpr nothing⟩

theorem lateRounds_sound :
    ∀ entry ∈ (source.recorded.run (lateRounds.map notingRound) ⟨{}, []⟩).2.past,
      entry.1.fails = false := by
  decide

/-- The idle action finds an empty queue; what it brings is there when the second wait begins. -/
theorem waits_begin_drained_of_late :
    let past := (source.recorded.run (lateRounds.map notingRound) ⟨{}, []⟩).2.past
    ∃ first second third,
      source.run lateRounds {} = ([first, second.push [.mk 7 false []]], third) ∧
      ∀ d ∈ [first, second, third], source.DealtWithAll Feed.queue {} past d := by
  have silent (s : Feed) : (source.flush s).2.queue = s.queue := rfl
  have isOpen : (source.gate {}).isOpen = true := rfl
  obtain ⟨first, drained, length, waits, dealt, _⟩ :=
    EventSource.waits_begin_drained source_lawful source_queueing silent lateRounds_gentle isOpen
      lateRounds_sound
  obtain ⟨second, third, rfl⟩ : ∃ second third, drained = [second, third] := by
    rcases drained with _ | ⟨second, _ | ⟨third, _ | _⟩⟩ <;> cases length
    exact ⟨second, third, rfl⟩
  rcases ran : source.run lateRounds {} with ⟨ws, last⟩
  rw [ran] at waits
  have waits : ws ++ [last] = [first, second.push [.mk 7 false []]] ++ [third] := waits
  obtain ⟨rfl, final⟩ := List.append_inj' waits rfl
  obtain rfl := List.singleton_inj.mp final
  exact ⟨first, second, last, rfl, dealt⟩

/-- The gate is open and no call fails, and yet the second wait begins with an event in the queue
that nobody has dealt with. -/
theorem idle_events_wait :
    ({} : Feed).gate.isOpen = true ∧
    (∀ entry ∈ (source.recorded.run (lateRounds.map notingRound) ⟨{}, []⟩).2.past,
      entry.1.fails = false) ∧
    (source.run lateRounds {}).1.map (fun s => (s.queue.map FeedEvent.window, s.dispatched)) =
      [([], []), ([7], [])] := by
  exact ⟨rfl, lateRounds_sound, by decide⟩

end Succession.Feed
