import Mathlib.Data.List.Basic
import Mathlib.Tactic.IntervalCases
import Succession.Proofs.EventLoop.Accounting

/-!
# Handlers that call the loop

A handler may move the gate, drain, or run the loop again while a drain is going on, and its own
drains have handlers that do the same. `Nested` is what a handler does, and `reentrant` the source
whose handlers call it again, to any depth. On its record the calls that handlers bring about stand
where they are made.

A drain looks at the gate when it begins, and not again. So closing the gate keeps the loop from
beginning to drain (`closed_gate_begins_no_drain`); but a drain that has begun goes on with the gate
closed (`drain_goes_on_behind_closed_gate`).
-/

namespace Succession

open Chronicle (Leads arrivals gathered stateAfter)

variable {σ ε : Type}

/-- What the handler of an event does, one thing after another. What comes next may depend on the
state that the step before left. -/
inductive Nested (σ : Type)
  | done
  | call (step : LoopStep σ) (next : σ → Nested σ)

/-- Whatever a handler comes to do is of a kind. -/
def Nested.Each (kind : LoopStep σ → Prop) : Nested σ → Prop
  | done => True
  | call step next => kind step ∧ ∀ s, (next s).Each kind

/-- A step that does not drain by force, and whose changes are of a kind. -/
structure LoopStep.Unforced (allowed : (σ → σ) → Prop) (step : LoopStep σ) : Prop where
  unforced : step ≠ .drain
  changes : ∀ change ∈ step.changes, allowed change

namespace EventSource

/-! ## 1. The source whose handlers call it -/

/-- The state after a handler. -/
def handle (p : EventSource σ ε) : Nested σ → σ → σ
  | .done, s => s
  | .call step next, s => handle p (next (p.perform step s)) (p.perform step s)

/-- The source with other handlers. -/
def withDispatch (p : EventSource σ ε) (dispatch : ε → σ → σ) : EventSource σ ε :=
  { p with dispatch := dispatch }

@[simp] theorem withDispatch_isError (p : EventSource σ ε) (dispatch : ε → σ → σ) :
    (p.withDispatch dispatch).isError = p.isError := rfl

@[simp] theorem withDispatch_dispatch (p : EventSource σ ε) (dispatch : ε → σ → σ) :
    (p.withDispatch dispatch).dispatch = dispatch := rfl

/-- The source whose handlers call it again, at most so many times inside one another. The innermost
ones leave it alone. -/
def reentrant (p : EventSource σ ε) (handling : ε → σ → Nested σ) : Nat → EventSource σ ε
  | 0 => p
  | depth + 1 => p.withDispatch fun e s =>
      handle (reentrant p handling depth) (handling e (p.dispatch e s)) (p.dispatch e s)

/-- A handler whose changes are noted. -/
def notingHandling : Nested σ → Nested (Chronicle σ (Call ε))
  | .done => .done
  | .call step next => .call (notingStep step) fun c => notingHandling (next c.now)

/-- The record of a source whose handlers call it again. -/
def reentrantRecord (p : EventSource σ ε) (handling : ε → σ → Nested σ) (depth : Nat) :
    EventSource (Chronicle σ (Call ε)) ε :=
  p.recorded.reentrant (fun e c => notingHandling (handling e c.now)) depth

/-- Whether the call takes an event or deals with one. -/
def Call.consumes : Call ε → Bool
  | poll _ | dispatch _ => true
  | flush _ | failed _ | setGate _ | other => false

/-! ## 2. What one drain does, and what the loop does -/

/-- The relation between states and the calls that lead from one to another. -/
abbrev Doing (σ ε : Type) := σ → List (Call ε × σ) → σ → Prop

variable (p : EventSource σ ε) (allowed : (σ → σ) → Prop) (inside : Doing σ ε)

/-- What happens in one drain, where `inside` is what handlers bring about. -/
inductive Drains : Doing σ ε
  | lost {s t : σ} {f : Fault} : p.poll s = (.error f, t) → Drains s [(.poll (.error f), t)] t
  | done {s t u : σ} {outcome : Except Fault Unit} :
      p.poll s = (.ok none, t) → p.flush t = (outcome, u) →
      Drains s [(.poll (.ok none), t), (.flush outcome, u)] u
  | dropped {s t u : σ} {e : ε} {rest : List (Call ε × σ)} :
      p.poll s = (.ok (some e), t) → p.isError e = true → Drains t rest u →
      Drains s ((.poll (.ok (some e)), t) :: rest) u
  | dealt {s t u v : σ} {e : ε} {within rest : List (Call ε × σ)} :
      p.poll s = (.ok (some e), t) → p.isError e = false → inside (p.dispatch e t) within u →
      Drains u rest v →
      Drains s ((.poll (.ok (some e)), t) :: (.dispatch e, p.dispatch e t) :: (within ++ rest)) v

/-- What a drain that has begun and is still going on did until its next call. -/
inductive Underway : Doing σ ε
  | begun {s : σ} : Underway s [] s
  | taken {s t : σ} {e : ε} :
      p.poll s = (.ok (some e), t) → p.isError e = false →
      Underway s [(.poll (.ok (some e)), t)] t
  | dropped {s t u : σ} {e : ε} {rest : List (Call ε × σ)} :
      p.poll s = (.ok (some e), t) → p.isError e = true → Underway t rest u →
      Underway s ((.poll (.ok (some e)), t) :: rest) u
  | dealt {s t u v : σ} {e : ε} {within rest : List (Call ε × σ)} :
      p.poll s = (.ok (some e), t) → p.isError e = false → inside (p.dispatch e t) within u →
      Underway u rest v →
      Underway s ((.poll (.ok (some e)), t) :: (.dispatch e, p.dispatch e t) :: (within ++ rest)) v

/-- What the loop does: it begins to drain when the gate is open, reports that the connection is
gone, moves the gate, and lets the world around it change the state. -/
inductive Works : Doing σ ε
  | nothing {s : σ} : Works s [] s
  | append {s t u : σ} {front rest : List (Call ε × σ)} :
      Works s front t → Works t rest u → Works s (front ++ rest) u
  | drained {s t : σ} {past : List (Call ε × σ)} :
      (p.gate s).isOpen = true → Drains p inside s past t → Works s past t
  | failed (f : Fault) (s : σ) : Works s [(.failed f, p.failed f s)] (p.failed f s)
  | setGate (g : Gate) (s : σ) : Works s [(.setGate g, p.setGate g s)] (p.setGate g s)
  | other {change : σ → σ} (s : σ) : allowed change → Works s [(.other, change s)] (change s)

/-- What handlers bring about that call the loop at most so many times inside one another. -/
def Inside : Nat → Doing σ ε
  | 0 => fun s past t => past = [] ∧ s = t
  | depth + 1 => Works p allowed (Inside depth)

/-- A drain began when the gate was open, and is still going on after the calls. -/
def BegunOpen (s : σ) (past : List (Call ε × σ)) : Prop :=
  ∃ early begun depth, past = early ++ begun ∧ (p.gate (stateAfter s early)).isOpen = true ∧
    Underway p (Inside p allowed depth) (stateAfter s early) begun (stateAfter s past)

variable {p allowed inside} {handling : ε → σ → Nested σ} {s t u : σ}
  {past front rest : List (Call ε × σ)} {c d : Chronicle σ (Call ε)}

theorem Drains.leads (within : ∀ {s past t}, inside s past t → Leads (p.Answers allowed) s past t)
    (drains : Drains p inside s past t) : Leads (p.Answers allowed) s past t := by
  induction drains with
  | lost polled => exact .one polled
  | done polled flushed => exact .cons polled (.one flushed)
  | dropped polled _ _ ih => exact .cons polled ih
  | dealt polled _ inner _ ih => exact .cons polled (.cons rfl ((within inner).append ih))

theorem Works.leads (within : ∀ {s past t}, inside s past t → Leads (p.Answers allowed) s past t)
    (works : Works p allowed inside s past t) : Leads (p.Answers allowed) s past t := by
  induction works with
  | nothing => exact .nil
  | append _ _ first second => exact first.append second
  | drained _ drains => exact drains.leads within
  | failed f s => exact .one rfl
  | setGate g s => exact .one rfl
  | other s is => exact .one ⟨_, is, rfl⟩

theorem Inside.leads {depth : Nat} (inner : Inside p allowed depth s past t) :
    Leads (p.Answers allowed) s past t := by
  induction depth generalizing s past t with
  | zero =>
    obtain ⟨rfl, rfl⟩ := inner
    exact .nil
  | succ depth ih => exact Works.leads ih inner

/-! ## 3. Who takes events -/

theorem stateAfter_append (s : σ) (front rest : List (Call ε × σ)) :
    stateAfter s (front ++ rest) = stateAfter (stateAfter s front) rest := by
  induction front generalizing s with
  | nil => rfl
  | cons entry front ih => exact ih entry.2

theorem BegunOpen.behind (front : List (Call ε × σ))
    (is : BegunOpen p allowed (stateAfter s front) past) :
    BegunOpen p allowed s (front ++ past) := by
  obtain ⟨early, begun, depth, rfl, isOpen, underway⟩ := is
  refine ⟨front ++ early, begun, depth, (List.append_assoc ..).symm, ?_, ?_⟩
  · rw [stateAfter_append]
    exact isOpen
  · rw [stateAfter_append, stateAfter_append]
    exact underway

/-- Every event that is taken or dealt with in a record is so by a drain that began while the gate
was open. -/
def Guarded (p : EventSource σ ε) (allowed : (σ → σ) → Prop) (s : σ)
    (past : List (Call ε × σ)) : Prop :=
  ∀ front entry rest, past = front ++ entry :: rest → entry.1.consumes = true →
    BegunOpen p allowed s front

/-- An entry of two records is one of the first or of the second. -/
theorem entry_of_append {α : Type} {front rest a b : List α} {entry : α}
    (split : front ++ rest = a ++ entry :: b) :
    (∃ middle, front = a ++ entry :: middle) ∨ ∃ middle, a = front ++ middle ∧
      rest = middle ++ entry :: b := by
  rcases List.append_eq_append_iff.mp split with ⟨middle, same, later⟩ | ⟨middle, rfl, same⟩
  · exact .inr ⟨middle, same, later⟩
  · cases middle with
    | nil => exact .inr ⟨[], by simp, same.symm⟩
    | cons next middle =>
      obtain ⟨rfl, _⟩ := List.cons.inj same
      exact .inl ⟨middle, rfl⟩

theorem Guarded.append (leads : stateAfter s front = t) (first : Guarded p allowed s front)
    (second : Guarded p allowed t rest) : Guarded p allowed s (front ++ rest) := by
  intro a entry b split consumes
  rcases entry_of_append split with ⟨middle, same⟩ | ⟨middle, rfl, same⟩
  · exact first a entry middle same consumes
  · have later := second middle entry b same consumes
    rw [← leads] at later
    exact later.behind front

/-- A record of one call that neither takes an event nor deals with one. -/
theorem Guarded.one {call : Call ε} (idle : call.consumes = false) :
    Guarded p allowed s [(call, t)] := by
  intro front entry rest split consumes
  have member : entry ∈ [(call, t)] := split ▸ List.mem_append_right _ List.mem_cons_self
  rw [List.mem_singleton.mp member, idle] at consumes
  cases consumes

/-- The calls of a drain are its own, or those of drains inside it. -/
theorem Drains.made {depth : Nat} (drains : Drains p (Inside p allowed depth) s past t)
    (guarded : ∀ {s past t}, Inside p allowed depth s past t → Guarded p allowed s past) :
    ∀ front entry rest, past = front ++ entry :: rest → entry.1.consumes = true →
      Underway p (Inside p allowed depth) s front (stateAfter s front) ∨
      BegunOpen p allowed s front := by
  induction drains with
  | lost polled =>
    intro front entry rest split consumes
    rcases List.cons_eq_append_iff.mp split with ⟨rfl, _⟩ | ⟨more, rfl, left⟩
    · exact .inl .begun
    · cases (List.append_eq_nil_iff.mp left.symm).2
  | @done _ t u outcome polled flushed =>
    intro front entry rest split consumes
    rcases List.cons_eq_append_iff.mp split with ⟨rfl, _⟩ | ⟨more, rfl, left⟩
    · exact .inl .begun
    · -- a flush neither takes an event nor deals with one
      have member : entry ∈ [(Call.flush outcome, u)] :=
        left ▸ List.mem_append_right _ List.mem_cons_self
      rw [List.mem_singleton.mp member] at consumes
      cases consumes
  | @dropped s t _ e _ polled error _ ih =>
    intro front entry rest split consumes
    rcases List.cons_eq_append_iff.mp split with ⟨rfl, _⟩ | ⟨more, rfl, left⟩
    · exact .inl .begun
    · rcases ih more entry rest left consumes with own | inner
      · exact .inl (.dropped polled error own)
      · exact .inr (BegunOpen.behind (s := s) [_] inner)
  | @dealt s t u v e within later polled error inner _ ih =>
    intro front entry rest split consumes
    rcases List.cons_eq_append_iff.mp split with ⟨rfl, _⟩ | ⟨more, rfl, left⟩
    · exact .inl .begun
    · rcases List.cons_eq_append_iff.mp left with ⟨rfl, _⟩ | ⟨more, rfl, behind⟩
      · exact .inl (.taken polled error)
      · rcases entry_of_append behind with ⟨middle, same⟩ | ⟨middle, rfl, same⟩
        · have inner := guarded inner more entry middle same consumes
          exact .inr (BegunOpen.behind (s := s) [_, _] inner)
        · have ended : stateAfter (p.dispatch e t) within = u := inner.leads.stateAfter_eq
          rcases ih middle entry rest same consumes with own | further
          · refine .inl ?_
            have goesOn := Underway.dealt polled error inner own
            show Underway _ _ _ _ (stateAfter (p.dispatch e t) (within ++ middle))
            rwa [stateAfter_append, ended]
          · rw [← ended] at further
            exact .inr (BegunOpen.behind (s := s) [_, _] (further.behind within))

theorem Works.guarded {depth : Nat} (works : Works p allowed (Inside p allowed depth) s past t)
    (guarded : ∀ {s past t}, Inside p allowed depth s past t → Guarded p allowed s past) :
    Guarded p allowed s past := by
  induction works with
  | nothing =>
    intro front entry rest split
    cases (List.append_eq_nil_iff.mp split.symm).2
  | append before _ first second =>
    exact first.append (before.leads Inside.leads).stateAfter_eq second
  | drained isOpen drains =>
    intro front entry rest split consumes
    rcases drains.made guarded front entry rest split consumes with own | inner
    · exact ⟨[], front, depth, rfl, isOpen, own⟩
    · exact inner
  | failed f s | setGate g s | other s is => exact .one rfl

/-- However deep handlers call the loop, no drain begins behind a closed gate. -/
theorem Inside.guarded {depth : Nat} (inner : Inside p allowed depth s past t) :
    Guarded p allowed s past := by
  induction depth generalizing s past t with
  | zero =>
    obtain ⟨rfl, _⟩ := inner
    intro front entry rest split
    cases (List.append_eq_nil_iff.mp split.symm).2
  | succ depth ih => exact Works.guarded inner ih

/-! ## 4. The record of a source whose handlers call it -/

/-- What handlers do is noted where they do it. -/
def Deals (p : EventSource σ ε) (inside : Doing σ ε) (dispatch : ε → σ → σ)
    (noted : ε → Chronicle σ (Call ε) → Chronicle σ (Call ε)) : Prop :=
  ∀ e c, ∃ within, inside (p.dispatch e c.now) within (dispatch e c.now) ∧
    noted e c = (c.note (.dispatch e) (p.dispatch e c.now)).extend within (dispatch e c.now)

section Record

variable {dispatch : ε → σ → σ} {noted : ε → Chronicle σ (Call ε) → Chronicle σ (Call ε)}
  (lawful : (p.withDispatch dispatch).Lawful) (deals : Deals p inside dispatch noted)
include lawful deals

theorem drainUpTo_withDispatch {limit : Nat} (enough : p.backlog c.now < limit) :
    ∃ past, Drains p inside c.now past ((p.withDispatch dispatch).drainUpTo limit c.now).2 ∧
      (p.recorded.withDispatch noted).drainUpTo limit c =
        (((p.withDispatch dispatch).drainUpTo limit c.now).1,
          c.extend past ((p.withDispatch dispatch).drainUpTo limit c.now).2) := by
  induction limit generalizing c with
  | zero => exact absurd enough (Nat.not_lt_zero _)
  | succ limit ih =>
    rcases polled : p.poll c.now with ⟨outcome, next⟩
    have plain : (p.withDispatch dispatch).poll c.now = (outcome, next) := polled
    have onRecord : (p.recorded.withDispatch noted).poll c =
        (outcome, c.note (.poll outcome) next) := recorded_poll polled
    rw [EventSource.drainUpTo, EventSource.drainUpTo, plain, onRecord]
    cases outcome with
    | error f => exact ⟨_, .lost polled, rfl⟩
    | ok event =>
      cases event with
      | none =>
        rcases flushed : p.flush next with ⟨outcome, last⟩
        have drains : Drains p inside c.now _ last := .done polled flushed
        have plain : (p.withDispatch dispatch).flush next = (outcome, last) := flushed
        have onRecord : (p.recorded.withDispatch noted).flush (c.note (.poll (.ok none)) next) =
            (outcome, _) := recorded_flush flushed
        simp only [plain, onRecord]
        cases outcome <;> exact ⟨_, drains, congrArg _ (Chronicle.note_extend ..)⟩
      | some e =>
        -- what is left of the limit is still above the backlog
        have fewer : p.isError e = true → p.backlog next < p.backlog c.now :=
          lawful.backlog_error polled
        have fewer' : p.isError e = false → p.backlog (dispatch e next) < p.backlog c.now :=
          lawful.backlog_dispatch polled
        cases error : p.isError e with
        | true =>
          obtain ⟨past, drains, drained⟩ := ih (c := c.note (.poll (.ok (some e))) next)
            (Nat.lt_of_lt_of_le (fewer error) (Nat.le_of_lt_succ enough))
          simp only [withDispatch_isError, recorded_isError, error, if_true]
          refine ⟨_, .dropped polled error drains, drained.trans ?_⟩
          rw [Chronicle.note_extend, Chronicle.note_now]
        | false =>
          obtain ⟨within, inner, dealt⟩ := deals e (c.note (.poll (.ok (some e))) next)
          obtain ⟨past, drains, drained⟩ :=
            ih (c := (c.note (.poll (.ok (some e))) next).note (.dispatch e) (p.dispatch e next)
              |>.extend within (dispatch e next))
            (Nat.lt_of_lt_of_le (fewer' error) (Nat.le_of_lt_succ enough))
          simp only [withDispatch_isError, withDispatch_dispatch, recorded_isError, error,
            if_neg Bool.false_ne_true]
          refine ⟨_, .dealt polled error inner drains, ?_⟩
          simp only [dealt, Chronicle.note_now, drained]
          simp only [Chronicle.extend_extend, Chronicle.note_extend]
          rfl

theorem drainIfOpen_withDispatch :
    Mirrors (Works p allowed inside)
      (fun c => ((p.recorded.withDispatch noted).drainIfOpen c).2)
      fun s => ((p.withDispatch dispatch).drainIfOpen s).2 := by
  intro c
  by_cases isOpen : (p.gate c.now).isOpen = true
  · obtain ⟨past, drains, drained⟩ :=
      drainUpTo_withDispatch lawful deals (Nat.lt_succ_self (p.backlog c.now))
    have isOpen' : ((p.recorded.withDispatch noted).gate c).isOpen = true := isOpen
    have isOpen'' : ((p.withDispatch dispatch).gate c.now).isOpen = true := isOpen
    have drained : (p.recorded.withDispatch noted).drain c = _ := drained
    rcases plain : (p.withDispatch dispatch).drain c.now with ⟨outcome, t⟩
    have same : (p.withDispatch dispatch).drainUpTo (p.backlog c.now + 1) c.now = (outcome, t) :=
      plain
    rw [same] at drains drained
    simp only [drainIfOpen, if_pos isOpen', if_pos isOpen'', drained, plain]
    have drainedTo : Works p allowed inside c.now past t := .drained isOpen drains
    cases outcome with
    | ok count => exact ⟨past, drainedTo, rfl⟩
    | error f => exact ⟨_, drainedTo.append (.failed f t), Chronicle.extend_extend ..⟩
  · have isClosed : ¬((p.recorded.withDispatch noted).gate c).isOpen = true := isOpen
    have isClosed' : ¬((p.withDispatch dispatch).gate c.now).isOpen = true := isOpen
    simp only [drainIfOpen, if_neg isClosed, if_neg isClosed']
    exact ⟨[], .nothing, c.extend_nil.symm⟩

theorem records_withDispatch : Records (p.recorded.withDispatch noted) (p.withDispatch dispatch)
    allowed (Works p allowed inside) where
  nothing _ := .nothing
  append := .append
  gate _ := rfl
  setGate g c := ⟨_, .setGate g c.now, rfl⟩
  change is c := ⟨_, .other c.now is, rfl⟩
  drainIfOpen := drainIfOpen_withDispatch lawful deals

end Record

theorem reentrant_eq_withDispatch (p : EventSource σ ε) (handling : ε → σ → Nested σ)
    (depth : Nat) :
    p.reentrant handling depth = p.withDispatch (p.reentrant handling depth).dispatch := by
  cases depth <;> rfl

/-- A handler is noted as what it does. -/
theorem Records.handle {q : EventSource (Chronicle σ (Call ε)) ε} {does : Doing σ ε}
    (records : Records q p allowed does) {doing : Nested σ}
    (each : doing.Each (LoopStep.Unforced allowed)) :
    Mirrors does (q.handle (notingHandling doing)) (p.handle doing) := by
  induction doing with
  | done => exact records.idle
  | call step next ih =>
    intro c
    obtain ⟨first, others⟩ := each
    obtain ⟨front, did, noted⟩ := records.perform first.changes (absurd · first.unforced) c
    obtain ⟨rest, did', noted'⟩ := ih _ (others _) (c.extend front (p.perform step c.now))
    refine ⟨front ++ rest, records.append did did', ?_⟩
    show q.handle (notingHandling (next (q.perform _ c).now)) (q.perform _ c) = _
    rw [noted]
    exact noted'.trans (Chronicle.extend_extend ..)

theorem records_reentrant {depth : Nat} (lawful : (p.reentrant handling depth).Lawful)
    (deals : Deals p inside (p.reentrant handling depth).dispatch
      (p.reentrantRecord handling depth).dispatch) :
    Records (p.reentrantRecord handling depth) (p.reentrant handling depth) allowed
      (Works p allowed inside) := by
  have same : p.reentrantRecord handling depth =
      p.recorded.withDispatch (p.reentrantRecord handling depth).dispatch :=
    reentrant_eq_withDispatch ..
  have whole : Records (p.recorded.withDispatch (p.reentrantRecord handling depth).dispatch)
      (p.withDispatch (p.reentrant handling depth).dispatch) allowed _ :=
    records_withDispatch (reentrant_eq_withDispatch p handling depth ▸ lawful) deals
  rwa [← reentrant_eq_withDispatch, ← same] at whole

/-- What handlers do is noted, however deep they call the loop. -/
theorem deals_reentrant (lawful : ∀ depth, (p.reentrant handling depth).Lawful)
    (handlers : ∀ e s, (handling e s).Each (LoopStep.Unforced allowed)) (depth : Nat) :
    Deals p (Inside p allowed depth) (p.reentrant handling depth).dispatch
      (p.reentrantRecord handling depth).dispatch := by
  induction depth with
  | zero => exact fun e c => ⟨[], ⟨rfl, rfl⟩, (Chronicle.extend_nil _).symm⟩
  | succ depth ih =>
    intro e c
    have records : Records (p.reentrantRecord handling depth) (p.reentrant handling depth) allowed
        (Inside p allowed (depth + 1)) := records_reentrant (lawful depth) ih
    exact records.handle (handlers e _) (c.note (.dispatch e) (p.dispatch e c.now))

/-! ## 5. Behind a closed gate -/

/-- The state after so many calls of a record. -/
def moment (s : σ) (past : List (Call ε × σ)) (n : Nat) : σ := stateAfter s (past.take n)

theorem Call.taken_of_idle {call : Call ε} (idle : call.consumes = false) : call.taken = [] := by
  cases call with
  | poll _ => cases idle
  | _ => rfl

/-- The calls between two moments lead from one to the other. -/
theorem leads_between (leads : Leads (p.Answers allowed) s past t) {m n : Nat} (before : m ≤ n) :
    Leads (p.Answers allowed) (moment s past m) ((past.take n).drop m) (moment s past n) := by
  have first : (past.take n).take m = past.take m := by
    rw [List.take_take, Nat.min_eq_left before]
  have upTo : Leads (p.Answers allowed) s (past.take n) (moment s past n) := by
    rw [← List.take_append_drop n past] at leads
    exact leads.cut.1
  rw [← List.take_append_drop m (past.take n), first] at upTo
  exact upTo.cut.2

/-- A call that takes an event or deals with one while the gate is closed is made by a drain that
began before it was. -/
theorem Guarded.began_before (guarded : Guarded p allowed s past) {m k : Nat} {entry : Call ε × σ}
    (closed : ∀ i, m ≤ i → i ≤ k → (p.gate (moment s past i)).isOpen = false)
    (made : past[k]? = some entry) (consumes : entry.1.consumes = true) :
    ∃ j depth, j < m ∧ (p.gate (moment s past j)).isOpen = true ∧
      Underway p (Inside p allowed depth) (moment s past j) ((past.take k).drop j)
        (moment s past k) := by
  obtain ⟨inRange, rfl⟩ := List.getElem?_eq_some_iff.mp made
  have split : past = past.take k ++ past[k] :: past.drop (k + 1) := by
    rw [← List.drop_eq_getElem_cons, List.take_append_drop]
  obtain ⟨early, begun, depth, same, isOpen, underway⟩ := guarded _ _ _ split consumes
  have atMost : early.length ≤ k := by
    have length := congrArg List.length same
    rw [List.length_take, List.length_append] at length
    omega
  have first : past.take early.length = early := by
    rw [← Nat.min_eq_left atMost, ← List.take_take, same, List.take_left]
  have second : (past.take k).drop early.length = begun := by
    rw [same, List.drop_left]
  refine ⟨early.length, depth, ?_, ?_, ?_⟩
  · -- the gate was open when the drain began
    by_contra late
    have isClosed := closed early.length (Nat.not_lt.mp late) atMost
    rw [moment, first, isOpen] at isClosed
    cases isClosed
  · rw [moment, first]
    exact isOpen
  · rw [moment, moment, first, second]
    exact underway

/-- **Closing the gate keeps the loop from beginning to drain.** Let handlers do what they like:
change the state, move the gate, drain if it is open, or run the loop again, to any depth. Take any
steps of the loop but a drain by force, and the record of all calls, those that handlers bring about
included.

* While the gate is closed, any call that takes an event or deals with one is made by a drain that
  began while the gate was open, before it was closed, and has been going on since.
* At every moment what was in the queue at first and what came is what was taken, in order, and what
  is left. While nothing is taken, what was in the queue stays in it, and what comes stands behind,
  in order. -/
theorem closed_gate_begins_no_drain (lawful : ∀ depth, (p.reentrant handling depth).Lawful)
    (handlers : ∀ e s, (handling e s).Each (LoopStep.Unforced allowed)) {depth : Nat}
    {steps : List (LoopStep σ)} (unforced : ∀ step ∈ steps, step.Unforced allowed)
    (performed :
      (p.reentrantRecord handling depth).performAll (steps.map notingStep) ⟨s, []⟩ = c) :
    c.now = (p.reentrant handling depth).performAll steps s ∧
    Leads (p.Answers allowed) s c.past c.now ∧
    (∀ m k entry, (∀ i, m ≤ i → i ≤ k → (p.gate (moment s c.past i)).isOpen = false) →
      c.past[k]? = some entry → entry.1.consumes = true →
      ∃ j depth, j < m ∧ (p.gate (moment s c.past j)).isOpen = true ∧
        Underway p (Inside p allowed depth) (moment s c.past j) ((c.past.take k).drop j)
          (moment s c.past k)) ∧
    ∀ queue : σ → List ε,
      (∀ {s call t}, p.Answers allowed s call t → queue s <+: call.taken ++ queue t) →
      ∀ n, queue s ++ arrivals Call.taken queue s (c.past.take n) =
          gathered Call.taken (c.past.take n) ++ queue (moment s c.past n) ∧
        ∀ m ≤ n, (∀ entry ∈ (c.past.take n).drop m, entry.1.consumes = false) →
          queue (moment s c.past n) = queue (moment s c.past m) ++
            arrivals Call.taken queue (moment s c.past m) ((c.past.take n).drop m) := by
  have records : Records (p.reentrantRecord handling depth) (p.reentrant handling depth) allowed
      (Inside p allowed (depth + 1)) :=
    records_reentrant (lawful depth) (deals_reentrant lawful handlers depth)
  obtain ⟨past, did, noted⟩ := records.performAll
    (fun step member => (unforced step member).changes)
    (fun member => absurd rfl (unforced _ member).unforced) ⟨s, []⟩
  rw [noted] at performed
  subst performed
  have leads := Inside.leads did
  refine ⟨rfl, leads, fun m k entry closed made consumes =>
    (Inside.guarded did).began_before closed made consumes, fun queue inOrder n => ⟨?_, ?_⟩⟩
  · exact (leads_between leads n.zero_le).accounted inOrder
  · intro m before idle
    have balance : queue (moment s past m) ++
        arrivals Call.taken queue (moment s past m) ((past.take n).drop m) =
          gathered Call.taken ((past.take n).drop m) ++ queue (moment s past n) :=
      (leads_between leads before).accounted inOrder
    have nothing : gathered Call.taken ((past.take n).drop m) = [] :=
      List.flatMap_eq_nil_iff.mpr fun entry member => Call.taken_of_idle (idle entry member)
    rw [nothing, List.nil_append] at balance
    exact balance.symm

end EventSource

/-! ## 6. A modal routine -/

namespace Feed

open EventSource (Call Underway Inside moment notingStep)

/-- The event of window 9 begins a modal routine: its handler closes the gate, and then tries to
drain. -/
def modal (e : FeedEvent) (_ : Feed) : Nested Feed :=
  if e.window = 9 then .call (.setOpen false) fun _ => .call .drainIfOpen fun _ => .done else .done

/-- The handler of a modal event closes the gate, and so its drain does nothing. -/
theorem queue_handle_modal (depth : Nat) (e : FeedEvent) (s : Feed) :
    ((source.reentrant modal depth).handle (modal e s) s).queue = s.queue := by
  have gate : (source.reentrant modal depth).gate = Feed.gate := by cases depth <;> rfl
  have setGate : (source.reentrant modal depth).setGate = source.setGate := by
    cases depth <;> rfl
  unfold modal
  split
  · show ((source.reentrant modal depth).drainIfOpen
      ((source.reentrant modal depth).setOpen false s)).2.queue = s.queue
    generalize closed : (source.reentrant modal depth).setOpen false s = t
    have frame : t.gate.isOpen = false ∧ t.queue = s.queue := by
      subst closed
      unfold EventSource.setOpen
      simp only [gate, setGate]
      split
      · next same => exact ⟨same, rfl⟩
      · refine ⟨?_, rfl⟩
        show (Gate.toggleLatest _ false).isOpen = false
        unfold Gate.toggleLatest
        split <;> rfl
    unfold EventSource.drainIfOpen
    rw [gate, if_neg (Bool.eq_false_iff.mp frame.1)]
    exact frame.2
  · rfl

theorem modal_lawful (depth : Nat) : (source.reentrant modal depth).Lawful := by
  cases depth with
  | zero => exact source_lawful
  | succ depth =>
    refine ⟨fun {s t e} polled other => ?_, source_lawful.backlog_error⟩
    have less := source_lawful.backlog_dispatch polled other
    have same := queue_handle_modal depth e (source.dispatch e t)
    show FeedEvent.weightAll _ < _
    exact Nat.lt_of_le_of_lt (Nat.le_of_eq (congrArg FeedEvent.weightAll same)) less

theorem modal_unforced (e : FeedEvent) (s : Feed) :
    (modal e s).Each (LoopStep.Unforced (source.Enqueues Feed.queue)) := by
  unfold modal
  split
  · exact ⟨⟨nofun, nofun⟩, fun _ => ⟨⟨nofun, nofun⟩, fun _ => trivial⟩⟩
  · exact trivial

/-- Two events come, of which the first begins a modal routine. A third one comes later. -/
def modalSteps : List (LoopStep Feed) :=
  [.change (·.push [.mk 9 false [], .mk 5 false []]), .drainIfOpen,
    .change (·.push [.mk 6 false []]), .beforeWait]

/-- The gate is closed behind the first four calls. What deals with the second event is the drain
that began before, and the third event waits. -/
theorem closed_gate_begins_no_drain_of_modal :
    ∃ c, (source.reentrantRecord modal 1).performAll (modalSteps.map notingStep) ⟨{}, []⟩ = c ∧
      c.now.dispatched = [9, 5] ∧ c.now.queue.map FeedEvent.window = [6] ∧
      (c.past[5]?.map fun entry => entry.1.dispatched.map FeedEvent.window) = some [5] ∧
      (∃ j depth, j < 4 ∧ (moment {} c.past j).gate.isOpen = true ∧
        Underway source (Inside source (source.Enqueues Feed.queue) depth) (moment {} c.past j)
          ((c.past.take 5).drop j) (moment {} c.past 5)) ∧
      ∃ came, c.now.queue = (moment {} c.past 8).queue ++ came := by
  have unforced : ∀ step ∈ modalSteps, step.Unforced (source.Enqueues Feed.queue) := by
    have pushes (events : List FeedEvent) :
        LoopStep.Unforced (source.Enqueues Feed.queue) (.change (·.push events)) :=
      ⟨nofun, List.forall_mem_singleton.mpr (enqueues_push events)⟩
    refine List.forall_mem_cons.mpr ⟨pushes _, List.forall_mem_cons.mpr ⟨⟨nofun, nofun⟩, ?_⟩⟩
    exact List.forall_mem_cons.mpr ⟨pushes _, List.forall_mem_singleton.mpr ⟨nofun, nofun⟩⟩
  obtain ⟨c, performed⟩ : ∃ c,
      (source.reentrantRecord modal 1).performAll (modalSteps.map notingStep) ⟨{}, []⟩ = c :=
    ⟨_, rfl⟩
  have story :
      let c := (source.reentrantRecord modal 1).performAll (modalSteps.map notingStep) ⟨{}, []⟩
      c.now.dispatched = [9, 5] ∧ c.now.queue.map FeedEvent.window = [6] ∧
      (c.past[5]?.map fun entry => entry.1.dispatched.map FeedEvent.window) = some [5] ∧
      (c.past[5]?.map fun entry => entry.1.consumes) = some true ∧
      (∀ i ∈ [4, 5], (moment {} c.past i).gate.isOpen = false) ∧ c.past.length = 9 ∧
      ∀ entry ∈ (c.past.take 9).drop 8, entry.1.consumes = false := by
    decide +kernel
  rw [performed] at story
  obtain ⟨dispatched, waiting, second, working, closed, length, idle⟩ := story
  obtain ⟨_, leads, behind, accounts⟩ :=
    EventSource.closed_gate_begins_no_drain modal_lawful modal_unforced unforced performed
  refine ⟨c, performed, dispatched, waiting, second, ?_, ?_⟩
  · obtain ⟨entry, made, consumes⟩ := Option.map_eq_some_iff.mp working
    refine behind 4 5 entry (fun i least most => closed i ?_) made consumes
    interval_cases i <;> decide
  · obtain ⟨_, kept⟩ := accounts Feed.queue source_queueing.of_answers 9
    have ended : moment {} c.past 9 = c.now := by
      rw [moment, List.take_of_length_le (Nat.le_of_eq length)]
      exact leads.stateAfter_eq
    exact ⟨_, ended ▸ kept 8 (by decide) idle⟩

/-- The handler of the first event closes the gate. The second event is taken and dealt with all the
same, and the queue is empty. A drain by force takes no notice of the gate either. -/
theorem drain_goes_on_behind_closed_gate :
    let c := (source.reentrantRecord modal 1).performAll
      ([.change (·.push [.mk 9 false [], .mk 5 false []]), .drainIfOpen].map notingStep) ⟨{}, []⟩
    c.past.length = 8 ∧ (∀ k ∈ [4, 5, 6, 7, 8], (moment {} c.past k).gate.isOpen = false) ∧
    (c.past[4]?.map fun entry => entry.1.taken.map FeedEvent.window) = some [5] ∧
    (c.past[5]?.map fun entry => entry.1.dispatched.map FeedEvent.window) = some [5] ∧
    c.now.dispatched = [9, 5] ∧ c.now.queue.map FeedEvent.window = [] ∧
    (source.drain { queue := [.mk 7 false []], gate := ⟨false, []⟩ }).2.dispatched = [7] := by
  decide +kernel

end Feed

end Succession
