import Succession.Fault

/-!
# Records of calls

A `Chronicle` is a state together with the calls that led to it, each with the state that it left.
What is said of every single call holds along the record (`Leads`). If the calls take elements from
the front of a queue and put others behind it, then at every moment what was in the queue at first
and what came is what was taken and what is left (`Leads.accounted`).
-/

namespace Succession

/-- The event that a poll took. -/
def takenBy {ε : Type} : Except Fault (Option ε) → List ε
  | .ok (some e) => [e]
  | _ => []

/-- A state and the calls that led to it, each with the state that it left. -/
structure Chronicle (σ κ : Type) where
  now : σ
  past : List (κ × σ) := []

namespace Chronicle

variable {σ κ ε : Type}

/-- The chronicle after some more calls. -/
def extend (c : Chronicle σ κ) (stretch : List (κ × σ)) (next : σ) : Chronicle σ κ :=
  ⟨next, c.past ++ stretch⟩

/-- The chronicle after one more call. -/
def note (c : Chronicle σ κ) (call : κ) (next : σ) : Chronicle σ κ := c.extend [(call, next)] next

/-- The calls that led to the state. -/
def calls (c : Chronicle σ κ) : List κ := c.past.map Prod.fst

@[simp] theorem note_now (c : Chronicle σ κ) (call : κ) (next : σ) :
    (c.note call next).now = next := rfl

theorem extend_nil (c : Chronicle σ κ) : c.extend [] c.now = c := by
  rw [extend, List.append_nil]

theorem extend_extend (c : Chronicle σ κ) (a b : List (κ × σ)) (s t : σ) :
    (c.extend a s).extend b t = c.extend (a ++ b) t := by
  rw [extend, extend, extend, List.append_assoc]

theorem extend_inj {c : Chronicle σ κ} {a b : List (κ × σ)} {s t : σ}
    (same : c.extend a s = c.extend b t) : a = b ∧ s = t := by
  obtain ⟨now, past⟩ := Chronicle.mk.inj same
  exact ⟨List.append_cancel_left past, now⟩

theorem note_extend (c : Chronicle σ κ) (call : κ) (stretch : List (κ × σ)) (s t : σ) :
    (c.note call s).extend stretch t = c.extend ((call, s) :: stretch) t :=
  c.extend_extend [(call, s)] stretch s t

theorem calls_extend (c : Chronicle σ κ) (stretch : List (κ × σ)) (next : σ) :
    (c.extend stretch next).calls = c.calls ++ stretch.map Prod.fst := List.map_append

/-- The state that a record leads to. -/
def stateAfter (s : σ) : List (κ × σ) → σ
  | [] => s
  | (_, t) :: rest => stateAfter t rest

/-- What the calls of a record yield, one after another. -/
def gathered (yield : κ → List ε) (past : List (κ × σ)) : List ε :=
  past.flatMap fun (call, _) => yield call

@[simp] theorem gathered_nil (yield : κ → List ε) :
    gathered yield ([] : List (κ × σ)) = [] := rfl

@[simp] theorem gathered_cons (yield : κ → List ε) (entry : κ × σ) (past : List (κ × σ)) :
    gathered yield (entry :: past) = yield entry.1 ++ gathered yield past := rfl

@[simp] theorem gathered_append (yield : κ → List ε) (front rest : List (κ × σ)) :
    gathered yield (front ++ rest) = gathered yield front ++ gathered yield rest :=
  List.flatMap_append

/-- What came into a queue during a record: whatever stood, before it was taken, behind the elements
that had been there already. -/
def arrivals (taken : κ → List ε) (queue : σ → List ε) : σ → List (κ × σ) → List ε
  | _, [] => []
  | s, (call, t) :: rest =>
    (taken call ++ queue t).drop (queue s).length ++ arrivals taken queue t rest

/-- A record leads from one state to another, and each call did something of a kind. -/
inductive Leads (does : σ → κ → σ → Prop) : σ → List (κ × σ) → σ → Prop
  | nil {s : σ} : Leads does s [] s
  | cons {s t u : σ} {call : κ} {rest : List (κ × σ)} :
      does s call t → Leads does t rest u → Leads does s ((call, t) :: rest) u

namespace Leads

variable {does : σ → κ → σ → Prop} {s t u : σ} {past front rest : List (κ × σ)}

theorem one {call : κ} (did : does s call t) : Leads does s [(call, t)] t := .cons did .nil

theorem append (first : Leads does s front t) (second : Leads does t rest u) :
    Leads does s (front ++ rest) u := by
  induction first with
  | nil => exact second
  | cons did _ ih => exact .cons did (ih second)

theorem stateAfter_eq (leads : Leads does s past t) : stateAfter s past = t := by
  induction leads with
  | nil => rfl
  | cons _ _ ih => exact ih

/-- A record can be cut anywhere. -/
theorem cut (leads : Leads does s (front ++ rest) t) :
    Leads does s front (stateAfter s front) ∧ Leads does (stateAfter s front) rest t := by
  induction front generalizing s with
  | nil => exact ⟨.nil, leads⟩
  | cons entry front ih =>
    cases leads with
    | cons did leads => exact ⟨.cons did (ih leads).1, (ih leads).2⟩

/-- A call of a record did something of the kind, and the record goes on from there. -/
theorem of_mem (leads : Leads does s past t) {entry : κ × σ} (member : entry ∈ past) :
    ∃ before rest, does before entry.1 entry.2 ∧ Leads does entry.2 rest t := by
  obtain ⟨front, rest, rfl⟩ := List.append_of_mem member
  obtain ⟨_, leads⟩ := leads.cut
  cases leads with
  | cons did leads => exact ⟨_, rest, did, leads⟩

/-- What each call keeps is kept. -/
theorem keeps (holds : σ → Prop) (kept : ∀ {s call t}, does s call t → holds s → holds t)
    (leads : Leads does s past t) (first : holds s) : holds t := by
  induction leads with
  | nil => exact first
  | cons did _ ih => exact ih (kept did first)

/-- What was in the queue and what came is what was taken and what is left. -/
theorem accounted {taken : κ → List ε} {queue : σ → List ε}
    (inOrder : ∀ {s call t}, does s call t → queue s <+: taken call ++ queue t)
    (leads : Leads does s past t) :
    queue s ++ arrivals taken queue s past = gathered taken past ++ queue t := by
  induction leads with
  | nil => rw [arrivals, gathered_nil, List.append_nil, List.nil_append]
  | @cons s t u call rest did _ ih =>
    -- what the first call left is its share of the queue, and the rest goes on from there
    have share : queue s ++ (taken call ++ queue t).drop (queue s).length =
        taken call ++ queue t := by
      obtain ⟨came, split⟩ := inOrder did
      rw [← split, List.drop_left]
    calc queue s ++ arrivals taken queue s ((call, t) :: rest)
        = taken call ++ (queue t ++ arrivals taken queue t rest) := by
          rw [arrivals, ← List.append_assoc, share, List.append_assoc]
      _ = gathered taken ((call, t) :: rest) ++ queue u := by
          rw [ih, gathered_cons, List.append_assoc]

end Leads

end Chronicle

end Succession
