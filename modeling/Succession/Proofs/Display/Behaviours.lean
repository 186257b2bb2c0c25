import Mathlib.Data.List.Nodup
import Succession.Display.Features
import Succession.Lookup

/-!
# What a display answers

A display answers some requests, refuses others and may break off, and there may be no identifier to
be had, for one of several reasons: this is its `Behaviour`, a table of answers.

1. What a behaviour says of each feature, and when the connection breaks in the course of asking.
   The transparent visual is the first one that the screen lists (`findTransparent_eq_some`).
2. A dialogue may answer as it likes, and differently each time. It is instrumented so that it notes
   what it answers (`Dialogue.recorded`). As long as no request is made twice, some behaviour is in
   line with the notes (`exists_agrees`).
-/

namespace Succession

/-! ## 1. Behaviours -/

namespace Screen

/-- The first true-color visual with thirty-two bits, in the order in which visuals are listed. -/
def FirstTransparent (depths : List DepthVisuals) (id : Nat) : Prop :=
  ∃ before d after front v back, depths = before ++ d :: after ∧ d.depth = transparentDepth ∧
    d.visuals = front ++ v :: back ∧ v.kind = trueColor ∧ v.id = id ∧
    (∀ e ∈ before, e.depth = transparentDepth → ∀ w ∈ e.visuals, w.kind ≠ trueColor) ∧
    ∀ w ∈ front, w.kind ≠ trueColor

/-- The first true-color visual of one depth. -/
theorem find_trueColor {visuals : List VisualType} {v : VisualType} :
    visuals.find? (fun v => v.kind = trueColor) = some v ↔
      ∃ front back, visuals = front ++ v :: back ∧ v.kind = trueColor ∧
        ∀ w ∈ front, w.kind ≠ trueColor := by
  rw [List.find?_eq_some_iff_append]
  constructor
  · rintro ⟨kind, front, back, split, none⟩
    exact ⟨front, back, split, of_decide_eq_true kind, fun w member => by simpa using none w member⟩
  · rintro ⟨front, back, split, kind, none⟩
    exact ⟨decide_eq_true kind, front, back, split, fun w member => by simpa using none w member⟩

theorem firstTransparent_cons {d : DepthVisuals} {rest : List DepthVisuals} {id : Nat} :
    FirstTransparent (d :: rest) id ↔
      (d.depth = transparentDepth ∧
        ∃ v, d.visuals.find? (fun v => v.kind = trueColor) = some v ∧ v.id = id) ∨
      (d.depth = transparentDepth → ∀ w ∈ d.visuals, w.kind ≠ trueColor) ∧
        FirstTransparent rest id := by
  constructor
  · rintro ⟨before, e, after, front, v, back, split, depth, visuals, kind, named, none, first⟩
    cases before with
    | nil =>
      cases split
      exact .inl ⟨depth, v, find_trueColor.mpr ⟨front, back, visuals, kind, first⟩, named⟩
    | cons f before =>
      cases split
      obtain ⟨here, later⟩ := List.forall_mem_cons.mp none
      exact .inr ⟨here, before, e, after, front, v, back, rfl, depth, visuals, kind, named, later,
        first⟩
  · rintro (⟨depth, v, found, named⟩ | ⟨here, before, e, after, front, v, back, rfl, depth, visuals,
      kind, named, later, first⟩)
    · obtain ⟨front, back, visuals, kind, first⟩ := find_trueColor.mp found
      exact ⟨[], d, rest, front, v, back, rfl, depth, visuals, kind, named, nofun, first⟩
    · exact ⟨d :: before, e, after, front, v, back, rfl, depth, visuals, kind, named,
        List.forall_mem_cons.mpr ⟨here, later⟩, first⟩

theorem findTransparent_cons (d : DepthVisuals) (rest : List DepthVisuals) :
    findTransparent (d :: rest) =
      if d.depth = transparentDepth then
        match d.visuals.find? fun v => v.kind = trueColor with
        | some v => some (d.depth, v.id)
        | none => findTransparent rest
      else findTransparent rest := by
  unfold findTransparent
  by_cases depth : d.depth = transparentDepth
  · simp only [List.filter_cons, decide_eq_true depth, if_true, if_pos depth, List.findSome?_cons]
    cases d.visuals.find? fun v => v.kind = trueColor <;> rfl
  · simp only [List.filter_cons, decide_eq_false depth, if_neg depth, Bool.false_eq_true, if_false]

theorem findTransparent_eq_some {depths : List DepthVisuals} {depth id : Nat} :
    findTransparent depths = some (depth, id) ↔
      depth = transparentDepth ∧ FirstTransparent depths id := by
  induction depths with
  | nil =>
    refine iff_of_false nofun ?_
    rintro ⟨_, before, d, after, _, _, _, split, _⟩
    cases before <;> cases split
  | cons d rest ih =>
    rw [findTransparent_cons, firstTransparent_cons]
    by_cases deep : d.depth = transparentDepth
    · rw [if_pos deep]
      cases found : d.visuals.find? fun v => v.kind = trueColor with
      | some v =>
        have member := List.mem_of_find?_eq_some found
        obtain ⟨_, _, _, kind, _⟩ := find_trueColor.mp found
        rw [or_iff_left fun h => h.1 deep v member kind, Option.some.injEq, Prod.mk.injEq, deep]
        simp [eq_comm]
      | none =>
        have none : ∀ w ∈ d.visuals, w.kind ≠ trueColor := fun w member =>
          of_decide_eq_false (Bool.eq_false_iff.mpr (List.find?_eq_none.mp found w member))
        simp only [ih, deep, true_and, reduceCtorEq, false_and, exists_false, false_or,
          forall_const]
        exact and_congr_right fun _ => (and_iff_right none).symm
    · rw [if_neg deep, ih]
      simp [deep]

theorem FirstTransparent.unique {depths : List DepthVisuals} {id id' : Nat}
    (first : FirstTransparent depths id) (first' : FirstTransparent depths id') : id' = id := by
  have found := findTransparent_eq_some.mpr ⟨rfl, first⟩
  cases found.symm.trans (findTransparent_eq_some.mpr ⟨rfl, first'⟩)
  rfl

theorem findTransparent_eq_none {depths : List DepthVisuals} :
    findTransparent depths = none ↔ ∀ id, ¬FirstTransparent depths id := by
  constructor
  · intro none id first
    cases none.symm.trans (findTransparent_eq_some.mpr ⟨rfl, first⟩)
  · intro none
    refine Option.eq_none_iff_forall_ne_some.mpr fun ⟨depth, id⟩ found => ?_
    exact none id (findTransparent_eq_some.mp found).2

end Screen

/-- What a display answers to each request, and the identifier that is to be had, or why there is
none. -/
structure Behaviour where
  answers : DisplayRequest → Answer
  fresh : Except ReplyCause Nat

namespace Behaviour

variable (b : Behaviour) (screen : Screen)

/-- The extension is there. -/
def Present (name : String) : Prop := b.answers (.queryExtension name) = .reply (.extension true)

/-- It is not answered whether the extension is there. A refusal of this question is taken for a
broken connection as well. -/
def Silent (name : String) : Prop :=
  ∀ present, b.answers (.queryExtension name) ≠ .reply (.extension present)

/-- The keyboard extension is there and supports the version, and its events can be selected. -/
def KeyboardWorks : Prop :=
  b.Present "XKEYBOARD" ∧ b.answers .useKeyboardExtension = .reply (.keyboard true) ∧
    ∃ reply, b.answers .selectKeyboardEvents = .reply reply

/-- The connection breaks while it is asked for the keyboard extension. -/
def KeyboardBreaks : Prop :=
  b.Silent "XKEYBOARD" ∨ b.Present "XKEYBOARD" ∧
    (b.answers .useKeyboardExtension = .disconnected ∨
      b.answers .useKeyboardExtension = .reply (.keyboard true) ∧
        b.answers .selectKeyboardEvents = .disconnected)

/-- The shape extension is there and has version 1.1 or a later one. -/
def ShapeWorks : Prop :=
  b.Present "SHAPE" ∧ ∃ major minor, b.answers .queryShapeVersion = .reply (.version major minor) ∧
    (1 < major ∨ major = 1 ∧ 1 ≤ minor)

/-- The connection breaks while it is asked for the shape extension. -/
def ShapeBreaks : Prop :=
  b.Silent "SHAPE" ∨ b.Present "SHAPE" ∧ b.answers .queryShapeVersion = .disconnected

/-- The first transparent visual gets a colormap of its own. -/
def VisualWorks (visual id : Nat) : Prop :=
  Screen.FirstTransparent screen.depths visual ∧ b.fresh = .ok id ∧
    ∃ reply, b.answers (.createColormap id screen.root visual) = .reply reply

/-- The connection breaks while the colormap is created. -/
def VisualBreaks : Prop :=
  ∃ visual id, Screen.FirstTransparent screen.depths visual ∧ b.fresh = .ok id ∧
    b.answers (.createColormap id screen.root visual) = .disconnected

/-- There is a transparent visual, but no identifier for its colormap, for some cause. -/
def Unidentified (cause : ReplyCause) : Prop :=
  (∃ visual, Screen.FirstTransparent screen.depths visual) ∧ b.fresh = .error cause

end Behaviour

/-! ## 2. What a dialogue answers -/

/-- A state of a dialogue, with what was said until then. -/
structure Minutes (σ : Type) where
  now : σ
  /-- The requests whose answers were not waited for yet, with their numbers. -/
  waiting : List (DisplayRequest × Nat) := []
  /-- The requests that were answered, with the answers. -/
  answered : List (DisplayRequest × Answer) := []
  /-- The identifiers that were given out, or why there was none. -/
  given : List (Except ReplyCause Nat) := []

namespace Minutes

variable {σ : Type}

/-- A request was answered. -/
def hear (c : Minutes σ) (r : DisplayRequest) (answer : Answer) (s : σ) : Minutes σ :=
  { c with now := s, answered := c.answered ++ [(r, answer)] }

/-- The answer to the request with a number was waited for: the first one with this number that
waits. -/
def hearNumber (c : Minutes σ) (number : Nat) (answer : Answer) (s : σ) : Minutes σ :=
  match c.waiting.find? fun entry => entry.2 = number with
  | some (r, _) =>
    { c.hear r answer s with waiting := c.waiting.eraseP fun entry => entry.2 = number }
  | none => { c with now := s }

theorem hearNumber_cons {c : Minutes σ} {r : DisplayRequest} {n : Nat}
    {rest : List (DisplayRequest × Nat)} (waits : c.waiting = (r, n) :: rest) (answer : Answer)
    (s : σ) : c.hearNumber n answer s = { c.hear r answer s with waiting := rest } := by
  have first : ((r, n) :: rest).find? (fun entry => entry.2 = n) = some (r, n) :=
    List.find?_cons_of_pos (decide_eq_true rfl)
  have others : ((r, n) :: rest).eraseP (fun entry => entry.2 = n) = rest :=
    List.eraseP_cons_of_pos (decide_eq_true rfl)
  rw [hearNumber, waits, first, others]

/-- More was said: some of the questions were answered, each once at most, and at most so many
identifiers were asked for. -/
def Follows (c c' : Minutes σ) (questions : List DisplayRequest) (draws : Nat) : Prop :=
  (∃ more, c'.answered = c.answered ++ more ∧ (more.map Prod.fst).Sublist questions) ∧
    ∃ more, c'.given = c.given ++ more ∧ more.length ≤ draws

namespace Follows

variable {c c' c'' : Minutes σ} {questions questions' : List DisplayRequest} {draws draws' : Nat}

theorem refl (c : Minutes σ) : c.Follows c [] 0 :=
  ⟨⟨[], (List.append_nil _).symm, .slnil⟩, [], (List.append_nil _).symm, Nat.le_refl 0⟩

theorem trans (first : c.Follows c' questions draws) (second : c'.Follows c'' questions' draws') :
    c.Follows c'' (questions ++ questions') (draws + draws') := by
  obtain ⟨⟨more, answered, asked⟩, ids, given, few⟩ := first
  obtain ⟨⟨more', answered', asked'⟩, ids', given', few'⟩ := second
  refine ⟨⟨more ++ more', ?_, ?_⟩, ids ++ ids', ?_, ?_⟩
  · rw [answered', answered, List.append_assoc]
  · rw [List.map_append]
    exact asked.append asked'
  · rw [given', given, List.append_assoc]
  · rw [List.length_append]
    exact Nat.add_le_add few few'

theorem mono (follows : c.Follows c' questions draws) (more : questions.Sublist questions')
    (least : draws ≤ draws') : c.Follows c' questions' draws' := by
  obtain ⟨⟨told, answered, asked⟩, ids, given, few⟩ := follows
  exact ⟨⟨told, answered, asked.trans more⟩, ids, given, Nat.le_trans few least⟩

end Follows

end Minutes

/-- The dialogue that notes what it answers. -/
def Dialogue.recorded {σ : Type} (d : Dialogue σ) : Dialogue (Minutes σ) where
  send r c :=
    let (n, s) := d.send r c.now
    (n, { c with now := s, waiting := c.waiting ++ [(r, n)] })
  await n c :=
    let (answer, s) := d.await n c.now
    (answer, c.hearNumber n answer s)
  ask r c :=
    let (answer, s) := d.ask r c.now
    (answer, c.hear r answer s)
  fresh c :=
    let (id, s) := d.fresh c.now
    (id, { c with now := s, given := c.given ++ [id] })

namespace Behaviour

variable {σ : Type} {b : Behaviour} {c c' : Minutes σ} {questions : List DisplayRequest}
  {draws : Nat}

/-- The behaviour is in line with what was said. -/
def Agrees (b : Behaviour) (c : Minutes σ) : Prop :=
  (∀ entry ∈ c.answered, b.answers entry.1 = entry.2) ∧ ∀ id ∈ c.given, b.fresh = id

theorem Agrees.of_follows (agrees : b.Agrees c') (follows : c.Follows c' questions draws) :
    b.Agrees c := by
  obtain ⟨⟨more, answered, _⟩, ids, given, _⟩ := follows
  refine ⟨fun entry member => agrees.1 entry ?_, fun id member => agrees.2 id ?_⟩
  · rw [answered]
    exact List.mem_append_left _ member
  · rw [given]
    exact List.mem_append_left _ member

/-- Where each question is asked once and one identifier at most, some behaviour is in line with
what is said. -/
theorem exists_agrees {s : σ} (follows : ({ now := s } : Minutes σ).Follows c questions 1)
    (once : questions.Nodup) : ∃ b : Behaviour, b.Agrees c := by
  obtain ⟨⟨more, answered, asked⟩, ids, given, few⟩ := follows
  rw [List.nil_append] at answered given
  refine ⟨⟨fun r => (c.answered.lookup r).getD .disconnected,
    ids.head?.getD (.error .disconnected)⟩, ?_, ?_⟩
  · intro entry member
    have distinct : (c.answered.map Prod.fst).Nodup := answered ▸ once.sublist asked
    have found := (lookup_eq_some_iff_mem distinct).mpr member
    exact congrArg (Option.getD · .disconnected) found
  · intro id member
    rw [given] at member
    match ids, few, member with
    | [only], _, member => rw [List.mem_singleton.mp member]; rfl

end Behaviour

/-- A request was answered, and this was noted. -/
structure Minutes.Heard {σ : Type} (c : Minutes σ) (r : DisplayRequest) (a : Answer)
    (c' : Minutes σ) : Prop where
  follows : c.Follows c' [r] 0
  told : ∀ b : Behaviour, b.Agrees c' → b.answers r = a

theorem Minutes.heard_hear {σ : Type} (c : Minutes σ) (r : DisplayRequest) (a : Answer) (s : σ)
    (waiting : List (DisplayRequest × Nat)) :
    c.Heard r a { c.hear r a s with waiting := waiting } where
  follows := ⟨⟨[(r, a)], rfl, .refl _⟩, [], (List.append_nil _).symm, Nat.le_refl 0⟩
  told _ agrees := agrees.1 (r, a) (List.mem_append_right _ List.mem_cons_self)

namespace Dialogue

variable {σ : Type} (d : Dialogue σ) {c : Minutes σ}

/-- The answer that is waited for is noted with its request. -/
theorem recorded_await {r : DisplayRequest} {n : Nat} {rest : List (DisplayRequest × Nat)}
    (waits : c.waiting = (r, n) :: rest) :
    ∃ a c', d.recorded.await n c = (a, c') ∧ d.await n c.now = (a, c'.now) ∧ c.Heard r a c' ∧
      c'.waiting = rest := by
  refine ⟨_, _, rfl, ?_, ?_, ?_⟩
  all_goals rw [Minutes.hearNumber_cons waits]
  · rfl
  · exact c.heard_hear r _ _ rest

theorem recorded_ask (r : DisplayRequest) (c : Minutes σ) :
    ∃ a c', d.recorded.ask r c = (a, c') ∧ d.ask r c.now = (a, c'.now) ∧ c.Heard r a c' ∧
      c'.waiting = c.waiting :=
  ⟨_, _, rfl, rfl, c.heard_hear r _ _ c.waiting, rfl⟩

theorem recorded_fresh (c : Minutes σ) :
    ∃ id c', d.recorded.fresh c = (id, c') ∧ d.fresh c.now = (id, c'.now) ∧ c.Follows c' [] 1 ∧
      (∀ b : Behaviour, b.Agrees c' → b.fresh = id) ∧ c'.waiting = c.waiting := by
  refine ⟨_, _, rfl, rfl, ⟨⟨[], (List.append_nil _).symm, .slnil⟩, [_], rfl, Nat.le_refl 1⟩,
    fun b agrees => ?_, rfl⟩
  exact agrees.2 _ (List.mem_append_right _ List.mem_cons_self)

end Dialogue

end Succession
