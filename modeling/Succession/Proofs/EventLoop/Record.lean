import Succession.EventLoop.Source
import Succession.Proofs.Chronicle

/-!
# The record of the loop

A source of events is instrumented so that it notes every call with its outcome. The loop runs on it
as it does on the source itself. `Draining` tells what a drain does call by call, and `Working` what
the loop does besides: it drains when the gate is open, reports that the connection is gone, moves
the gate, and lets the world around it change the state.
-/

namespace Succession.EventSource

open Chronicle (Leads)

variable {σ ε : Type}

/-- What the loop asks of a source, with the outcome. -/
inductive Call (ε : Type)
  | poll (outcome : Except Fault (Option ε))
  | flush (outcome : Except Fault Unit)
  | dispatch (e : ε)
  | failed (f : Fault)
  | setGate (g : Gate)
  /-- The state changed otherwise. -/
  | other

namespace Call

/-- Whether the call failed. -/
def fails : Call ε → Bool
  | poll (.error _) | flush (.error _) => true
  | _ => false

/-- The event that a poll took. -/
def taken : Call ε → List ε
  | poll outcome => takenBy outcome
  | _ => []

/-- The event that was dealt with. -/
def dispatched : Call ε → List ε
  | dispatch e => [e]
  | _ => []

end Call

/-- A call leads from one state to another. Other changes are of the kind that is `allowed`. -/
def Answers (p : EventSource σ ε) (allowed : (σ → σ) → Prop) (s : σ) (call : Call ε) (t : σ) :
    Prop :=
  match call with
  | .poll outcome => p.poll s = (outcome, t)
  | .flush outcome => p.flush s = (outcome, t)
  | .dispatch e => p.dispatch e s = t
  | .failed f => p.failed f s = t
  | .setGate g => p.setGate g s = t
  | .other => ∃ change, allowed change ∧ change s = t

/-- The source that notes every call. -/
def recorded (p : EventSource σ ε) : EventSource (Chronicle σ (Call ε)) ε where
  poll c := ((p.poll c.now).1, c.note (.poll (p.poll c.now).1) (p.poll c.now).2)
  flush c := ((p.flush c.now).1, c.note (.flush (p.flush c.now).1) (p.flush c.now).2)
  isError := p.isError
  dispatch e c := c.note (.dispatch e) (p.dispatch e c.now)
  failed f c := c.note (.failed f) (p.failed f c.now)
  gate c := p.gate c.now
  setGate g c := c.note (.setGate g) (p.setGate g c.now)
  backlog c := p.backlog c.now

/-- What happens in one drain, and its outcome. -/
inductive Draining (p : EventSource σ ε) : σ → List (Call ε × σ) → Except Fault Nat → σ → Prop
  | lost {s t : σ} {f : Fault} :
      p.poll s = (.error f, t) → Draining p s [(.poll (.error f), t)] (.error f) t
  | done {s t u : σ} {outcome : Except Fault Unit} :
      p.poll s = (.ok none, t) → p.flush t = (outcome, u) →
      Draining p s [(.poll (.ok none), t), (.flush outcome, u)] (outcome.map fun _ => 0) u
  | dropped {s t u : σ} {e : ε} {rest : List (Call ε × σ)} {outcome : Except Fault Nat} :
      p.poll s = (.ok (some e), t) → p.isError e = true → Draining p t rest outcome u →
      Draining p s ((.poll (.ok (some e)), t) :: rest) outcome u
  | dealt {s t u : σ} {e : ε} {rest : List (Call ε × σ)} {outcome : Except Fault Nat} :
      p.poll s = (.ok (some e), t) → p.isError e = false →
      Draining p (p.dispatch e t) rest outcome u →
      Draining p s ((.poll (.ok (some e)), t) :: (.dispatch e, p.dispatch e t) :: rest)
        (outcome.map (· + 1)) u

/-- What the loop does. Drains are made while the gate is open, or at any time if `free`. -/
inductive Working (p : EventSource σ ε) (allowed : (σ → σ) → Prop) (free : Prop) :
    σ → List (Call ε × σ) → σ → Prop
  | nothing {s : σ} : Working p allowed free s [] s
  | append {s t u : σ} {front rest : List (Call ε × σ)} :
      Working p allowed free s front t → Working p allowed free t rest u →
      Working p allowed free s (front ++ rest) u
  | drained {s t : σ} {past : List (Call ε × σ)} {outcome : Except Fault Nat} :
      free ∨ (p.gate s).isOpen = true → Draining p s past outcome t →
      Working p allowed free s past t
  | failed (f : Fault) (s : σ) : Working p allowed free s [(.failed f, p.failed f s)] (p.failed f s)
  | setGate (g : Gate) (s : σ) :
      Working p allowed free s [(.setGate g, p.setGate g s)] (p.setGate g s)
  | other {change : σ → σ} (s : σ) :
      allowed change → Working p allowed free s [(.other, change s)] (change s)

variable {p : EventSource σ ε} {allowed : (σ → σ) → Prop} {free : Prop} {s t : σ}
  {past : List (Call ε × σ)} {c d : Chronicle σ (Call ε)}

theorem Draining.leads {outcome : Except Fault Nat} (draining : Draining p s past outcome t) :
    Leads (p.Answers allowed) s past t := by
  induction draining with
  | lost polled => exact .one polled
  | done polled flushed => exact .cons polled (.one flushed)
  | dropped polled _ _ ih => exact .cons polled ih
  | dealt polled _ _ ih => exact .cons polled (.cons rfl ih)

/-- Every call did what it is noted for. -/
theorem Working.leads (working : Working p allowed free s past t) :
    Leads (p.Answers allowed) s past t := by
  induction working with
  | nothing => exact .nil
  | append _ _ first second => exact first.append second
  | drained _ draining => exact draining.leads
  | failed f s => exact .one rfl
  | setGate g s => exact .one rfl
  | other s is => exact .one ⟨_, is, rfl⟩

theorem Working.mono {free' : Prop} (fewer : free → free')
    (working : Working p allowed free s past t) : Working p allowed free' s past t := by
  induction working with
  | nothing => exact .nothing
  | append _ _ first second => exact .append first second
  | drained isOpen draining => exact .drained (isOpen.imp_left fewer) draining
  | failed f s => exact .failed f s
  | setGate g s => exact .setGate g s
  | other s is => exact .other s is

/-! ## The loop on the record -/

theorem recorded_isError : p.recorded.isError = p.isError := rfl

theorem recorded_poll {outcome : Except Fault (Option ε)} (polled : p.poll c.now = (outcome, t)) :
    p.recorded.poll c = (outcome, c.note (.poll outcome) t) := by
  show ((p.poll c.now).1, _) = _
  rw [polled]

theorem recorded_flush {outcome : Except Fault Unit} (flushed : p.flush c.now = (outcome, t)) :
    p.recorded.flush c = (outcome, c.note (.flush outcome) t) := by
  show ((p.flush c.now).1, _) = _
  rw [flushed]

theorem recorded_drainUpTo_lost {f : Fault} (polled : p.poll c.now = (.error f, t)) (limit : Nat) :
    p.recorded.drainUpTo (limit + 1) c = (.error f, c.extend [(.poll (.error f), t)] t) := by
  rw [drainUpTo, recorded_poll polled]
  rfl

theorem recorded_drainUpTo_done {u : σ} {outcome : Except Fault Unit}
    (polled : p.poll c.now = (.ok none, t)) (flushed : p.flush t = (outcome, u)) (limit : Nat) :
    p.recorded.drainUpTo (limit + 1) c =
      (outcome.map fun _ => 0, c.extend [(.poll (.ok none), t), (.flush outcome, u)] u) := by
  have flushed : p.recorded.flush (c.note (.poll (.ok none)) t) = (outcome, _) :=
    recorded_flush flushed
  rw [drainUpTo, recorded_poll polled]
  simp only [flushed]
  cases outcome <;> exact congrArg (Prod.mk _) (Chronicle.note_extend ..)

theorem recorded_drainUpTo_taken {e : ε} (polled : p.poll c.now = (.ok (some e), t)) (limit : Nat) :
    p.recorded.drainUpTo (limit + 1) c =
      if p.isError e then p.recorded.drainUpTo limit (c.note (.poll (.ok (some e))) t)
      else
        let (count, d) := p.recorded.drainUpTo limit
          ((c.note (.poll (.ok (some e))) t).note (.dispatch e) (p.dispatch e t))
        (count.map (· + 1), d) := by
  rw [drainUpTo, recorded_poll polled]
  rfl

/-- On the record a drain has the outcome and leaves the state that it has and leaves on the source
itself. -/
theorem recorded_drainUpTo (limit : Nat) (c : Chronicle σ (Call ε)) :
    (p.recorded.drainUpTo limit c).1 = (p.drainUpTo limit c.now).1 ∧
      (p.recorded.drainUpTo limit c).2.now = (p.drainUpTo limit c.now).2 := by
  induction limit generalizing c with
  | zero => exact ⟨rfl, rfl⟩
  | succ limit ih =>
    rcases polled : p.poll c.now with ⟨outcome, t⟩
    rw [drainUpTo.eq_2 p, polled]
    rcases outcome with f | _ | e
    · rw [recorded_drainUpTo_lost polled]
      exact ⟨rfl, rfl⟩
    · rcases flushed : p.flush t with ⟨sent, u⟩
      rw [recorded_drainUpTo_done polled flushed]
      cases sent <;> simp only [flushed] <;> exact ⟨rfl, rfl⟩
    · rw [recorded_drainUpTo_taken polled]
      cases error : p.isError e with
      | true =>
        simp only [error, if_true]
        exact ih (c.note (.poll (.ok (some e))) t)
      | false =>
        obtain ⟨count, final⟩ := ih ((c.note (.poll (.ok (some e))) t).note (.dispatch e)
          (p.dispatch e t))
        simp only [error, if_neg Bool.false_ne_true]
        exact ⟨congrArg (Except.map (· + 1)) count, final⟩

theorem drainUpTo_recorded (lawful : p.Lawful) {limit : Nat} (enough : p.backlog c.now < limit) :
    ∃ past, Draining p c.now past (p.drainUpTo limit c.now).1 (p.drainUpTo limit c.now).2 ∧
      p.recorded.drainUpTo limit c =
        ((p.drainUpTo limit c.now).1, c.extend past (p.drainUpTo limit c.now).2) := by
  induction limit generalizing c with
  | zero => exact absurd enough (Nat.not_lt_zero _)
  | succ limit ih =>
    rcases polled : p.poll c.now with ⟨outcome, next⟩
    rw [drainUpTo.eq_2 p, polled]
    rcases outcome with f | _ | e
    · exact ⟨_, .lost polled, recorded_drainUpTo_lost polled limit⟩
    · rcases flushed : p.flush next with ⟨outcome, last⟩
      have draining := Draining.done polled flushed
      rw [recorded_drainUpTo_done polled flushed]
      simp only [flushed]
      cases outcome <;> exact ⟨_, draining, rfl⟩
    · rw [recorded_drainUpTo_taken polled]
      -- what is left of the limit is still above the backlog
      have fewer := lawful.backlog_error polled
      have fewer' := lawful.backlog_dispatch polled
      cases error : p.isError e with
      | true =>
        obtain ⟨past, draining, noted⟩ := ih (c := c.note (.poll (.ok (some e))) next)
          (Nat.lt_of_lt_of_le (fewer error) (Nat.le_of_lt_succ enough))
        simp only [error, if_true]
        refine ⟨_, .dropped polled error draining, noted.trans ?_⟩
        rw [Chronicle.note_extend, Chronicle.note_now]
      | false =>
        obtain ⟨past, draining, noted⟩ :=
          ih (c := (c.note (.poll (.ok (some e))) next).note (.dispatch e) (p.dispatch e next))
          (Nat.lt_of_lt_of_le (fewer' error) (Nat.le_of_lt_succ enough))
        simp only [error, if_neg Bool.false_ne_true]
        refine ⟨_, .dealt polled error draining, ?_⟩
        simp only [Chronicle.note_now, noted, Chronicle.note_extend]

/-- A drain on the record is a drain. -/
theorem drain_recorded (lawful : p.Lawful) (c : Chronicle σ (Call ε)) :
    ∃ past, Draining p c.now past (p.drain c.now).1 (p.drain c.now).2 ∧
      p.recorded.drain c = ((p.drain c.now).1, c.extend past (p.drain c.now).2) :=
  drainUpTo_recorded lawful (Nat.lt_succ_self _)

/-- With the gate open there is a drain, and the report that the connection is gone if it fails. -/
theorem drainIfOpen_recorded (lawful : p.Lawful) (isOpen : (p.gate c.now).isOpen = true) :
    (∃ past count t, Draining p c.now past (.ok count) t ∧
      (p.recorded.drainIfOpen c).2 = c.extend past t ∧ (p.drainIfOpen c.now).2 = t) ∨
    ∃ past f t, Draining p c.now past (.error f) t ∧
      (p.recorded.drainIfOpen c).2 = (c.extend past t).note (.failed f) (p.failed f t) ∧
      (p.drainIfOpen c.now).2 = p.failed f t := by
  obtain ⟨past, draining, noted⟩ := drain_recorded lawful c
  have isOpen' : (p.recorded.gate c).isOpen = true := isOpen
  rcases plain : p.drain c.now with ⟨outcome, t⟩
  rw [plain] at draining noted
  rw [drainIfOpen, drainIfOpen, if_pos isOpen, if_pos isOpen', noted, plain]
  cases outcome with
  | ok count => exact .inl ⟨past, count, t, draining, rfl, rfl⟩
  | error f => exact .inr ⟨past, f, t, draining, rfl, rfl⟩

/-! ## Everything that the loop does -/

/-- A change of the state that is noted. -/
def noting (change : σ → σ) (c : Chronicle σ (Call ε)) : Chronicle σ (Call ε) :=
  c.note .other (change c.now)

/-- What is done to the record is what is done to the state, and it is something that the loop
does. -/
def Notes (p : EventSource σ ε) (allowed : (σ → σ) → Prop) (free : Prop)
    (noted : Chronicle σ (Call ε) → Chronicle σ (Call ε)) (plain : σ → σ) : Prop :=
  ∀ c, ∃ past, Working p allowed free c.now past (plain c.now) ∧
    noted c = c.extend past (plain c.now)

namespace Notes

variable {noted : Chronicle σ (Call ε) → Chronicle σ (Call ε)} {plain : σ → σ}

theorem nothing : Notes p allowed free id id :=
  fun c => ⟨[], .nothing, c.extend_nil.symm⟩

/-- The record only grows. -/
theorem past_grows (notes : Notes p allowed free noted plain) (c : Chronicle σ (Call ε)) :
    c.past <+: (noted c).past := by
  obtain ⟨past, _, same⟩ := notes c
  rw [same]
  exact List.prefix_append c.past past

theorem setGate (g : Gate) : Notes p allowed free (p.recorded.setGate g) (p.setGate g) :=
  fun c => ⟨_, .setGate g c.now, rfl⟩

theorem change {change : σ → σ} (is : allowed change) :
    Notes p allowed free (noting change) change :=
  fun c => ⟨_, .other c.now is, rfl⟩

theorem drain (lawful : p.Lawful) (isFree : free) :
    Notes p allowed free (fun c => (p.recorded.drain c).2) fun s => (p.drain s).2 := by
  intro c
  obtain ⟨past, draining, noted⟩ := drain_recorded lawful c
  exact ⟨past, .drained (.inl isFree) draining, congrArg Prod.snd noted⟩

theorem drainIfOpen (lawful : p.Lawful) :
    Notes p allowed free (fun c => (p.recorded.drainIfOpen c).2) fun s => (p.drainIfOpen s).2 := by
  intro c
  by_cases isOpen : (p.gate c.now).isOpen = true
  · rcases drainIfOpen_recorded lawful isOpen with
      ⟨past, _, t, draining, noted, plain⟩ | ⟨past, f, t, draining, noted, plain⟩
    · simp only [noted, plain]
      exact ⟨past, .drained (.inr isOpen) draining, rfl⟩
    · simp only [noted, plain]
      exact ⟨_, .append (.drained (.inr isOpen) draining) (.failed f t), Chronicle.extend_extend ..⟩
  · have isClosed : ¬(p.recorded.gate c).isOpen = true := isOpen
    simp only [EventSource.drainIfOpen, if_neg isOpen, if_neg isClosed]
    exact nothing c

end Notes

end Succession.EventSource
