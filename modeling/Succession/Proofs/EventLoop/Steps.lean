import Succession.Proofs.EventLoop.Frame
import Succession.Proofs.EventLoop.Record

/-!
# The steps of the loop

What can be done with a source of events from outside: the entry points of the loop one by one, and
changes of the state such as events that arrive. On a record of the source each of them does what it
does on the source (`Records.perform`), and drains by force only where it is a drain. The record of
the loop is one such record (`Notes.perform`).
-/

namespace Succession

variable {σ ε : Type}

/-- One thing that is done with a source of events. -/
inductive LoopStep (σ : Type)
  /-- The state changes otherwise, as when events arrive. -/
  | change (change : σ → σ)
  | drain
  | drainIfOpen
  | beforeWait
  | setOpen (on : Bool)
  | watch
  /-- A wait ends, and callbacks run. -/
  | attend (callbacks : List (Callback σ))
  | run (rs : List (LoopRound σ))

/-- The changes of the state that a round makes besides the drains. -/
def LoopRound.changes (r : LoopRound σ) : List (σ → σ) :=
  r.callbacks.filterMap Callback.change? ++ [r.idle]

/-- The changes of the state that a step makes besides the drains. -/
def LoopStep.changes : LoopStep σ → List (σ → σ)
  | change f => [f]
  | attend callbacks => callbacks.filterMap Callback.change?
  | run rs => rs.flatMap LoopRound.changes
  | drain | drainIfOpen | beforeWait | setOpen _ | watch => []

namespace EventSource

/-- The state after a step. -/
def perform (p : EventSource σ ε) (step : LoopStep σ) (s : σ) : σ :=
  match step with
  | .change f => f s
  | .drain => (p.drain s).2
  | .drainIfOpen => (p.drainIfOpen s).2
  | .beforeWait => p.beforeWait s
  | .setOpen on => p.setOpen on s
  | .watch => p.watch s
  | .attend callbacks => p.attend callbacks s
  | .run rs => (p.run rs s).2

/-- The state after some steps. -/
def performAll (p : EventSource σ ε) : List (LoopStep σ) → σ → σ
  | [], s => s
  | step :: rest, s => performAll p rest (p.perform step s)

/-- A callback whose change is noted. -/
def notingCallback : Callback σ → Callback (Chronicle σ (Call ε))
  | .connection => .connection
  | .other change => .other (noting change)

/-- A round whose changes are noted. -/
def notingRound (r : LoopRound σ) : LoopRound (Chronicle σ (Call ε)) :=
  ⟨r.callbacks.map notingCallback, noting r.idle⟩

/-- A step whose changes are noted. -/
def notingStep : LoopStep σ → LoopStep (Chronicle σ (Call ε))
  | .change f => .change (noting f)
  | .drain => .drain
  | .drainIfOpen => .drainIfOpen
  | .beforeWait => .beforeWait
  | .setOpen on => .setOpen on
  | .watch => .watch
  | .attend callbacks => .attend (callbacks.map notingCallback)
  | .run rs => .run (rs.map notingRound)

/-! ## A source and its record -/

/-- What is done to the record is what is done to the state, by calls of a kind. -/
def Mirrors (does : σ → List (Call ε × σ) → σ → Prop)
    (noted : Chronicle σ (Call ε) → Chronicle σ (Call ε)) (plain : σ → σ) : Prop :=
  ∀ c, ∃ past, does c.now past (plain c.now) ∧ noted c = c.extend past (plain c.now)

theorem Mirrors.andThen {does : σ → List (Call ε × σ) → σ → Prop}
    (append : ∀ {s t u front rest}, does s front t → does t rest u → does s (front ++ rest) u)
    {noted noted' : Chronicle σ (Call ε) → Chronicle σ (Call ε)} {plain plain' : σ → σ}
    (first : Mirrors does noted plain) (second : Mirrors does noted' plain') :
    Mirrors does (fun c => noted' (noted c)) fun s => plain' (plain s) := by
  intro c
  obtain ⟨front, did, same⟩ := first c
  obtain ⟨rest, did', same'⟩ := second (c.extend front (plain c.now))
  refine ⟨front ++ rest, append did did', ?_⟩
  show noted' (noted c) = _
  rw [same, same', Chronicle.extend_extend]
  rfl

/-- A source on chronicles records what another one does: it drains, moves the gate and changes as
the other one does, and what it notes is of a kind. -/
structure Records (q : EventSource (Chronicle σ (Call ε)) ε) (p : EventSource σ ε)
    (allowed : (σ → σ) → Prop) (does : σ → List (Call ε × σ) → σ → Prop) : Prop where
  nothing : ∀ s, does s [] s
  append : ∀ {s t u front rest}, does s front t → does t rest u → does s (front ++ rest) u
  gate : ∀ c, q.gate c = p.gate c.now
  setGate : ∀ g, Mirrors does (q.setGate g) (p.setGate g)
  change : ∀ {f : σ → σ}, allowed f → Mirrors does (noting f) f
  drainIfOpen : Mirrors does (fun c => (q.drainIfOpen c).2) fun s => (p.drainIfOpen s).2

namespace Records

variable {q : EventSource (Chronicle σ (Call ε)) ε} {p : EventSource σ ε}
  {allowed : (σ → σ) → Prop} {does : σ → List (Call ε × σ) → σ → Prop}
  (records : Records q p allowed does)
include records

theorem idle : Mirrors does id id :=
  fun c => ⟨[], records.nothing c.now, c.extend_nil.symm⟩

theorem attend {callbacks : List (Callback σ)}
    (others : ∀ change ∈ callbacks.filterMap Callback.change?, allowed change) :
    Mirrors does (q.attend (callbacks.map notingCallback)) (p.attend callbacks) := by
  induction callbacks with
  | nil => exact records.idle
  | cons callback rest ih =>
    cases callback with
    | connection => exact records.drainIfOpen.andThen records.append (ih others)
    | other change =>
      obtain ⟨first, others⟩ := List.forall_mem_cons.mp others
      exact (records.change first).andThen records.append (ih others)

theorem rounds {rs : List (LoopRound σ)}
    (others : ∀ change ∈ rs.flatMap LoopRound.changes, allowed change) :
    Mirrors does (fun c => (q.rounds (rs.map notingRound) c).2) fun s => (p.rounds rs s).2 := by
  induction rs with
  | nil => exact records.idle
  | cons r rest ih =>
    obtain ⟨first, others⟩ := List.forall_mem_append.mp others
    obtain ⟨callbacks, idle⟩ := List.forall_mem_append.mp first
    have idled : Mirrors does (noting r.idle) r.idle :=
      records.change (List.forall_mem_singleton.mp idle)
    have woken := (records.attend callbacks).andThen records.append records.drainIfOpen
    exact (woken.andThen records.append idled).andThen records.append (ih others)

theorem setOpen (on : Bool) : Mirrors does (q.setOpen on) (p.setOpen on) := by
  intro c
  simp only [EventSource.setOpen, records.gate]
  by_cases same : (p.gate c.now).isOpen = on
  · rw [if_pos same, if_pos same]
    exact records.idle c
  · rw [if_neg same, if_neg same]
    cases on with
    | true => exact (records.setGate _).andThen records.append records.drainIfOpen c
    | false => exact records.setGate _ c

/-- A step on the record is the step, if a drain by force is one that is recorded. -/
theorem perform {step : LoopStep σ} (others : ∀ change ∈ step.changes, allowed change)
    (forced : step = .drain → Mirrors does (fun c => (q.drain c).2) fun s => (p.drain s).2) :
    Mirrors does (q.perform (notingStep step)) (p.perform step) := by
  cases step with
  | change f => exact records.change (others f (List.mem_singleton_self _))
  | drain => exact forced rfl
  | drainIfOpen => exact records.drainIfOpen
  | beforeWait => exact records.drainIfOpen
  | setOpen on => exact records.setOpen on
  | watch =>
    intro c
    simp only [EventSource.perform, notingStep, EventSource.watch, records.gate]
    exact records.setGate _ c
  | attend callbacks => exact records.attend others
  | run rs => exact records.drainIfOpen.andThen records.append (records.rounds others)

theorem performAll {steps : List (LoopStep σ)}
    (others : ∀ step ∈ steps, ∀ change ∈ step.changes, allowed change)
    (forced : .drain ∈ steps → Mirrors does (fun c => (q.drain c).2) fun s => (p.drain s).2) :
    Mirrors does (q.performAll (steps.map notingStep)) (p.performAll steps) := by
  induction steps with
  | nil => exact records.idle
  | cons step rest ih =>
    obtain ⟨first, others⟩ := List.forall_mem_cons.mp others
    have one := records.perform first fun same => forced (same ▸ List.mem_cons_self)
    exact one.andThen records.append (ih others fun member => forced (.tail _ member))

end Records

/-! ## The record of the loop -/

namespace Notes

variable {p : EventSource σ ε} {allowed : (σ → σ) → Prop} {free : Prop} (lawful : p.Lawful)
include lawful

theorem records : Records p.recorded p allowed (Working p allowed free) where
  nothing _ := .nothing
  append := .append
  gate _ := rfl
  setGate := setGate
  change := change
  drainIfOpen := drainIfOpen lawful

theorem attend {callbacks : List (Callback σ)}
    (others : ∀ change ∈ callbacks.filterMap Callback.change?, allowed change) :
    Notes p allowed free (p.recorded.attend (callbacks.map notingCallback))
      (p.attend callbacks) := (records lawful).attend others

theorem rounds {rs : List (LoopRound σ)}
    (others : ∀ change ∈ rs.flatMap LoopRound.changes, allowed change) :
    Notes p allowed free (fun c => (p.recorded.rounds (rs.map notingRound) c).2)
      fun s => (p.rounds rs s).2 := (records lawful).rounds others

/-- A step on the record is the step, and it drains by force only if it is a drain. -/
theorem perform {step : LoopStep σ} (others : ∀ change ∈ step.changes, allowed change)
    (isFree : step = .drain → free) :
    Notes p allowed free (p.recorded.perform (notingStep step)) (p.perform step) :=
  (records lawful).perform others fun same => drain lawful (isFree same)

theorem performAll (isFree : free) {steps : List (LoopStep σ)}
    (others : ∀ step ∈ steps, ∀ change ∈ step.changes, allowed change) :
    Notes p allowed free (p.recorded.performAll (steps.map notingStep)) (p.performAll steps) :=
  (records lawful).performAll others fun _ => drain lawful isFree

end Notes

end EventSource

end Succession
