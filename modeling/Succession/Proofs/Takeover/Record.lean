import Succession.Proofs.Chronicle
import Succession.Takeover.Rehearsal

/-!
# The record of a takeover

A party is instrumented so that it notes every call of a takeover with its outcome. It acts as the
party does, and what it notes comes in stages: the calls of a stage succeed up to the one that
decides its outcome (`Reports`). `Notes` says both of a stage, and `underGrab_recorded` says it of
all that is done under the grab.
-/

namespace Succession.Takeover

open Chronicle (Leads)

variable {σ ε α β : Type}

/-- What a takeover asks of the display and of the manager, with the outcome. -/
inductive Call (ε : Type)
  | grab (outcome : Except Fault Unit)
  | sync (outcome : Except Fault Unit)
  | poll (outcome : Except Fault (Option ε))
  | query (outcome : Except Fault (List RootChild))
  | claim (w : WindowId) (outcome : Except Fault Unit)
  | honour (e : ε)
  | ungrab (outcome : Except Fault Unit)

namespace Call

/-- The fault of an outcome. -/
def faultOf : Except Fault α → Option Fault
  | .error f => some f
  | .ok _ => none

/-- The fault of a call that failed. -/
def fault? : Call ε → Option Fault
  | grab outcome | sync outcome | claim _ outcome | ungrab outcome => faultOf outcome
  | poll outcome => faultOf outcome
  | query outcome => faultOf outcome
  | honour _ => none

/-- The event that a poll took. -/
def taken : Call ε → List ε
  | poll outcome => takenBy outcome
  | _ => []

/-- What the server is asked for; polls apart, which may find their event in the queue. -/
def request? : Call ε → Option ServerCall
  | grab _ => some .grab
  | sync _ => some .sync
  | query _ => some .query
  | ungrab _ => some .ungrab
  | poll _ | claim _ _ | honour _ => none

/-- Whether the windows are not asked for because of the call. -/
def barsQuery : Call ε → Bool
  | sync outcome => (faultOf outcome).isSome
  | poll outcome => (faultOf outcome).isSome
  | _ => false

/-- The windows that a call made managed, where `window` is the one that an event is about. -/
def settled (window : ε → WindowId) : Call ε → List WindowId
  | claim w (.ok ()) => [w]
  | honour e => [window e]
  | _ => []

end Call

/-- A call leads from one state to another. Only requests to show a window are honoured. -/
def Party.Answers (p : Party σ ε) (s : σ) (call : Call ε) (t : σ) : Prop :=
  match call with
  | .grab outcome => p.grab s = (outcome, t)
  | .sync outcome => p.sync s = (outcome, t)
  | .poll outcome => p.poll s = (outcome, t)
  | .query outcome => p.children s = (outcome, t)
  | .claim w outcome => p.claim w s = (outcome, t)
  | .honour e => p.isMapRequest e = true ∧ p.honour e s = t
  | .ungrab outcome => p.ungrab s = (outcome, t)

/-- The chronicle after a call with an outcome. -/
def noteOutcome (call : Except Fault α → Call ε) (c : Chronicle σ (Call ε))
    (answer : Except Fault α × σ) : Except Fault α × Chronicle σ (Call ε) :=
  (answer.1, c.note (call answer.1) answer.2)

/-- The party that notes every call. -/
def Party.recorded (p : Party σ ε) : Party (Chronicle σ (Call ε)) ε where
  grab c := noteOutcome .grab c (p.grab c.now)
  ungrab c := noteOutcome .ungrab c (p.ungrab c.now)
  sync c := noteOutcome .sync c (p.sync c.now)
  poll c := noteOutcome .poll c (p.poll c.now)
  children c := noteOutcome .query c (p.children c.now)
  isMapRequest := p.isMapRequest
  isManaged w c := p.isManaged w c.now
  claim w c := noteOutcome (.claim w) c (p.claim w c.now)
  honour e c := c.note (.honour e) (p.honour e c.now)
  backlog c := p.backlog c.now

theorem noteOutcome_eq {call : Except Fault α → Call ε} {c : Chronicle σ (Call ε)}
    {answer : Except Fault α × σ} {outcome : Except Fault α} {t : σ}
    (same : answer = (outcome, t)) :
    noteOutcome call c answer = (outcome, c.note (call outcome) t) := by
  rw [same, noteOutcome]

/-! ## Stages -/

/-- The calls of a stage succeed, up to one that fails if the stage does. -/
inductive Reports : Except Fault α → List (Call ε) → Prop
  | ok {a : α} {calls : List (Call ε)} :
      (∀ call ∈ calls, call.fault? = none) → Reports (.ok a) calls
  | error {f : Fault} {calls : List (Call ε)} {last : Call ε} :
      (∀ call ∈ calls, call.fault? = none) → last.fault? = some f →
      Reports (.error f) (calls ++ [last])

theorem Reports.cons {outcome : Except Fault α} {call : Call ε} {calls : List (Call ε)}
    (clean : call.fault? = none) (reports : Reports outcome calls) :
    Reports outcome (call :: calls) := by
  cases reports with
  | ok clean' => exact .ok (List.forall_mem_cons.mpr ⟨clean, clean'⟩)
  | error clean' fault =>
    rw [← List.cons_append]
    exact .error (List.forall_mem_cons.mpr ⟨clean, clean'⟩) fault

theorem Reports.append {outcome : Except Fault α} {front calls : List (Call ε)}
    (reports : Reports outcome calls) (clean : ∀ call ∈ front, call.fault? = none) :
    Reports outcome (front ++ calls) := by
  induction front with
  | nil => exact reports
  | cons call front ih =>
    obtain ⟨first, others⟩ := List.forall_mem_cons.mp clean
    exact (ih others).cons first

/-- A step on chronicles goes on as the step on states does. The calls that it notes did what they
are noted for, report its outcome and are of some shape. -/
def Notes (p : Party σ ε) (shape : List (Call ε) → Prop) (c : Chronicle σ (Call ε))
    (noted : Except Fault α × Chronicle σ (Call ε)) (plain : Except Fault α × σ) : Prop :=
  ∃ stretch, noted = (plain.1, c.extend stretch plain.2) ∧ Leads p.Answers c.now stretch plain.2 ∧
    Reports plain.1 (stretch.map Prod.fst) ∧ shape (stretch.map Prod.fst)

namespace Notes

variable {p : Party σ ε} {shape shape' : List (Call ε) → Prop} {c d : Chronicle σ (Call ε)} {t : σ}
  {noted : Except Fault α × Chronicle σ (Call ε)} {plain : Except Fault α × σ}

theorem nothing (a : α) (empty : shape []) : Notes p shape c (.ok a, c) (.ok a, c.now) := by
  refine ⟨[], ?_, .nil, .ok (List.forall_mem_nil _), empty⟩
  rw [Chronicle.extend_nil]

/-- A call that fails ends the stage. -/
theorem failing {call : Call ε} {f : Fault} (did : p.Answers c.now call t)
    (fault : call.fault? = some f) (is : shape [call]) :
    Notes p shape c ((.error f : Except Fault α), c.note call t) (.error f, t) :=
  ⟨[(call, t)], rfl, .one did, .error (List.forall_mem_nil _) fault, is⟩

/-- After a call that succeeds the stage goes on. -/
theorem after (call : Call ε) (did : p.Answers c.now call t) (clean : call.fault? = none)
    (shapes : ∀ calls, shape calls → shape' (call :: calls))
    (later : Notes p shape (c.note call t) noted plain) : Notes p shape' c noted plain := by
  obtain ⟨stretch, same, leads, reports, is⟩ := later
  refine ⟨(call, t) :: stretch, same.trans ?_, .cons did leads, reports.cons clean, shapes _ is⟩
  rw [Chronicle.note, Chronicle.extend_extend]
  rfl

/-- After a stage that succeeds comes the next one. -/
theorem followed {a : β} {first : List (Call ε) → Prop}
    (before : Notes p first c ((.ok a : Except Fault β), d) (.ok a, t))
    (shapes : ∀ front, first front → (∀ call ∈ front, call.fault? = none) →
      ∀ calls, shape calls → shape' (front ++ calls))
    (later : Notes p shape d noted plain) : Notes p shape' c noted plain := by
  obtain ⟨front, sameFront, leadsFront, reportsFront, isFront⟩ := before
  obtain ⟨back, same, leads, reports, is⟩ := later
  cases sameFront
  cases reportsFront with
  | ok clean =>
    refine ⟨front ++ back, same.trans ?_, leadsFront.append leads, ?_, ?_⟩
    · rw [Chronicle.extend_extend]
    · rw [List.map_append]
      exact reports.append clean
    · rw [List.map_append]
      exact shapes _ isFront clean _ is

/-- The outcomes are the same. -/
theorem agree {outcome outcome' : Except Fault α}
    (notes : Notes p shape c (outcome', d) (outcome, t)) : outcome' = outcome ∧ d.now = t := by
  obtain ⟨_, same, _⟩ := notes
  cases same
  exact ⟨rfl, rfl⟩

/-- What a stage reports says something of the shape of its calls. -/
theorem shaped (notes : Notes p shape c noted plain)
    (shapes : ∀ calls, Reports plain.1 calls → shape calls → shape' calls) :
    Notes p shape' c noted plain := by
  obtain ⟨stretch, same, leads, reports, is⟩ := notes
  exact ⟨stretch, same, leads, reports, shapes _ reports is⟩

end Notes

namespace Party

variable {p : Party σ ε} {c : Chronicle σ (Call ε)}

theorem recorded_backlog : p.recorded.backlog c = p.backlog c.now := rfl

/-- The calls of the drain ask the server for nothing, and one that fails bars the query. -/
def OfDrain (calls : List (Call ε)) : Prop :=
  ∀ call ∈ calls, call.request? = none ∧ call.barsQuery = call.fault?.isSome

/-- The calls of the claims ask the server for nothing and come too late to bar the query. -/
def OfClaims (calls : List (Call ε)) : Prop :=
  ∀ call ∈ calls, call.request? = none ∧ call.barsQuery = false

theorem drainUpTo_recorded (limit : Nat) (report : Report) :
    Notes p OfDrain c (p.recorded.drainUpTo limit report c) (p.drainUpTo limit report c.now) := by
  have more {call : Call ε} (is : call.request? = none ∧ call.barsQuery = call.fault?.isSome) :
      ∀ calls, OfDrain calls → OfDrain (call :: calls) :=
    fun _ others => List.forall_mem_cons.mpr ⟨is, others⟩
  induction limit generalizing report c with
  | zero => exact .nothing report (List.forall_mem_nil _)
  | succ limit ih =>
    rcases polled : p.poll c.now with ⟨outcome, next⟩
    have noted : p.recorded.poll c = (outcome, c.note (.poll outcome) next) := noteOutcome_eq polled
    rw [Party.drainUpTo, Party.drainUpTo, polled, noted]
    cases outcome with
    | error f => exact .failing polled rfl (List.forall_mem_singleton.mpr ⟨rfl, rfl⟩)
    | ok event =>
      refine .after (.poll (.ok event)) polled rfl (more ⟨rfl, rfl⟩) ?_
      cases event with
      | none => exact .nothing report (List.forall_mem_nil _)
      | some e =>
        show Notes p _ _ (if p.isMapRequest e = true then _ else _) (if _ then _ else _)
        by_cases request : p.isMapRequest e = true
        · rw [if_pos request, if_pos request]
          exact .after (.honour e) ⟨request, rfl⟩ rfl (more ⟨rfl, rfl⟩) (ih _)
        · rw [if_neg request, if_neg request]
          exact ih _

theorem claimAll_recorded (windows : List RootChild) (report : Report) :
    Notes p OfClaims c (p.recorded.claimAll windows report c)
      (p.claimAll windows report c.now) := by
  induction windows generalizing report c with
  | nil => exact .nothing report (List.forall_mem_nil _)
  | cons w rest ih =>
    rw [Party.claimAll, Party.claimAll]
    show Notes p _ c (if (!w.isEligible || p.isManaged w.window c.now) = true then _ else _) _
    split
    · exact ih _
    · rcases claimed : p.claim w.window c.now with ⟨outcome, next⟩
      have noted : p.recorded.claim w.window c = (outcome, c.note (.claim w.window outcome) next) :=
        noteOutcome_eq claimed
      rw [noted]
      cases outcome with
      | error f => exact .failing claimed rfl (List.forall_mem_singleton.mpr ⟨rfl, rfl⟩)
      | ok _ =>
        exact .after (.claim w.window (.ok ())) claimed rfl
          (fun _ others => List.forall_mem_cons.mpr ⟨⟨rfl, rfl⟩, others⟩) (ih _)

/-- The query and the claims that follow it. -/
def OfQuery (calls : List (Call ε)) : Prop :=
  ∃ outcome rest, calls = .query outcome :: rest ∧ OfClaims rest

/-- Behind the wait for all events the server is asked for the windows, unless a poll failed. -/
def AsksUnlessBarred (calls : List (Call ε)) : Prop :=
  calls.filterMap Call.request? = if calls.any Call.barsQuery then [] else [.query]

theorem asksUnlessBarred_of_failing {f : Fault} {calls : List (Call ε)}
    (reports : Reports (.error f : Except Fault α) calls) (drain : OfDrain calls) :
    AsksUnlessBarred calls := by
  have barred : calls.any Call.barsQuery = true := by
    cases reports with
    | @error f front last clean fault =>
      have member : last ∈ front ++ [last] := List.mem_append_right _ (List.mem_singleton_self _)
      refine List.any_eq_true.mpr ⟨last, member, ?_⟩
      rw [(drain last member).2, fault, Option.isSome_some]
  rw [AsksUnlessBarred, barred, if_pos rfl, List.filterMap_eq_nil_iff]
  exact fun call member => (drain call member).1

theorem asksUnlessBarred_of_clean {front rest : List (Call ε)}
    {outcome : Except Fault (List RootChild)} (drain : OfDrain front)
    (clean : ∀ call ∈ front, call.fault? = none) (claims : OfClaims rest) :
    AsksUnlessBarred (front ++ .query outcome :: rest) := by
  have open₁ : front.any Call.barsQuery = false := by
    refine List.any_eq_false.mpr fun call member => ?_
    rw [(drain call member).2, clean call member]
    exact Bool.false_ne_true
  have open₂ : rest.any Call.barsQuery = false := by
    refine List.any_eq_false.mpr fun call member => ?_
    rw [(claims call member).2]
    exact Bool.false_ne_true
  have none₁ : front.filterMap Call.request? = [] :=
    List.filterMap_eq_nil_iff.mpr fun call member => (drain call member).1
  have none₂ : rest.filterMap Call.request? = [] :=
    List.filterMap_eq_nil_iff.mpr fun call member => (claims call member).1
  rw [AsksUnlessBarred, List.filterMap_append, List.filterMap_cons, List.any_append, List.any_cons,
    none₁, none₂, open₁, open₂]
  rfl

/-- What is done under the grab. -/
def OfGrab (calls : List (Call ε)) : Prop :=
  calls.filterMap Call.request? = .sync :: if calls.any Call.barsQuery then [] else [.query]

theorem underGrab_recorded :
    Notes p OfGrab c (p.recorded.underGrab c) (p.underGrab c.now) := by
  rcases synced : p.sync c.now with ⟨outcome, next⟩
  have noted : p.recorded.sync c = (outcome, c.note (.sync outcome) next) := noteOutcome_eq synced
  rw [Party.underGrab, Party.underGrab, synced, noted]
  cases outcome with
  | error f => exact .failing synced rfl rfl
  | ok _ =>
    have more : ∀ calls : List (Call ε), AsksUnlessBarred calls →
        OfGrab (.sync (.ok ()) :: calls) := by
      intro calls asks
      rw [OfGrab, List.filterMap_cons, List.any_cons, asks]
      rfl
    refine .after (.sync (.ok ())) synced rfl more ?_
    rcases first : p.recorded.drainUpTo (p.backlog next + 1) {} (c.note (.sync (.ok ())) next)
      with ⟨outcome, d⟩
    rcases plain : p.drainUpTo (p.backlog next + 1) {} next with ⟨outcome', drained⟩
    have drain : Notes p OfDrain (c.note (.sync (.ok ())) next) (outcome, d)
        (outcome', drained) := by
      rw [← first, ← plain]
      exact drainUpTo_recorded _ _
    -- both drains end alike, so that both go on with the same report
    obtain ⟨rfl, rfl⟩ := drain.agree
    simp only [recorded_backlog, Chronicle.note_now, first, plain]
    cases outcome with
    | error f => exact drain.shaped fun _ => asksUnlessBarred_of_failing
    | ok report =>
      refine drain.followed (fun front drains clean calls (query : OfQuery calls) => ?_) ?_
      · obtain ⟨outcome, rest, rfl, claims⟩ := query
        exact asksUnlessBarred_of_clean drains clean claims
      · rcases listed : p.children d.now with ⟨outcome, last⟩
        have noted : p.recorded.children d = (outcome, d.note (.query outcome) last) :=
          noteOutcome_eq listed
        simp only [noted, listed]
        cases outcome with
        | error f => exact .failing listed rfl ⟨_, [], rfl, List.forall_mem_nil _⟩
        | ok windows =>
          exact .after (.query (.ok windows)) listed rfl (fun rest claims => ⟨_, rest, rfl, claims⟩)
            (claimAll_recorded windows report)

end Party

end Succession.Takeover
