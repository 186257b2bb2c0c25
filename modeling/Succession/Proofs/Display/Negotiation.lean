import Succession.Proofs.Display.Behaviours

/-!
# What the negotiation finds out

1. Each of the three probes tells what every behaviour says that is in line with what was answered
   (`keyboard_probe`, `shape_probe`, `visual_probe`), and it goes on as if nothing was noted.
2. So does the whole negotiation (`negotiation_follows_answers`): it fails where the connection
   breaks, and otherwise it finds out each feature by itself. But where there is no identifier for
   the colormap of a visual that the screen lists, it fails for that cause, even if the connection
   stands (`exhaustion_is_fatal`).
-/

namespace Succession

/-- The outcome of a negotiation is what the behaviour says: which faults end it, and otherwise each
feature by itself and the visual. -/
structure Negotiated (b : Behaviour) (screen : Screen) (outcome : Except Fault DisplayFeatures) :
    Prop where
  fault : ∀ f, outcome = .error f ↔
    f = .connection ∧ (b.KeyboardBreaks ∨ b.ShapeBreaks ∨ b.VisualBreaks screen) ∨
    ∃ cause, f = .replyOrId cause ∧ ¬b.KeyboardBreaks ∧ ¬b.ShapeBreaks ∧
      b.Unidentified screen cause
  features : ∀ c, outcome = .ok c →
    (c.keyboard = true ↔ b.KeyboardWorks) ∧ (c.shape = true ↔ b.ShapeWorks) ∧
      (c.transparent = true ↔ ∃ visual id, b.VisualWorks screen visual id) ∧
      (∀ visual id, b.VisualWorks screen visual id →
        c.visual = ⟨Screen.transparentDepth, visual, id⟩) ∧
      ((∀ visual id, ¬b.VisualWorks screen visual id) → c.visual = screen.rootChoice)

namespace DisplayFeatures

variable {σ : Type} {d : Dialogue σ} {screen : Screen} {n : Nat} {c : Minutes σ}

/-! ## 1. The probes -/

/-- A step with notes goes on as the step without them, and its outcome is what every behaviour says
that is in line with the notes. -/
structure Probe {α : Type} (c : Minutes σ) (questions : List DisplayRequest) (draws : Nat)
    (tells : Behaviour → Except Fault α → Prop) (noted : Except Fault α × Minutes σ)
    (plain : Except Fault α × σ) : Prop where
  same : plain = (noted.1, noted.2.now)
  follows : c.Follows noted.2 questions draws
  tells : ∀ b : Behaviour, b.Agrees noted.2 → tells b noted.1

theorem extensionPresent_cases (a : Answer) :
    (∃ present, a = .reply (.extension present) ∧ extensionPresent a = .ok present) ∨
      (∀ present, a ≠ .reply (.extension present)) ∧ extensionPresent a = .error .connection := by
  unfold extensionPresent
  split
  · next present => exact .inl ⟨present, rfl, rfl⟩
  · next other => exact .inr ⟨fun present same => other present same, rfl⟩

/-- What is found out about an extension: the connection breaks, or it is told whether it works. -/
def Settles (breaks works : Prop) : Except Fault Bool → Prop
  | .error f => f = .connection ∧ breaks
  | .ok found => ¬breaks ∧ (found = true ↔ works)

section Keyboard

variable {b : Behaviour}

theorem keyboard_silent (silent : b.Silent "XKEYBOARD") :
    Settles b.KeyboardBreaks b.KeyboardWorks (.error .connection) := ⟨rfl, .inl silent⟩

theorem keyboard_absent
    (absent : b.answers (.queryExtension "XKEYBOARD") = .reply (.extension false)) :
    Settles b.KeyboardBreaks b.KeyboardWorks (.ok false) := by
  simp [Settles, Behaviour.KeyboardBreaks, Behaviour.KeyboardWorks, Behaviour.Present,
    Behaviour.Silent, absent]

/-- The extension does not support the version, or the server refuses to say. -/
theorem keyboard_unusable (present : b.Present "XKEYBOARD")
    (other : b.answers .useKeyboardExtension ≠ .reply (.keyboard true))
    (stands : b.answers .useKeyboardExtension ≠ .disconnected) :
    Settles b.KeyboardBreaks b.KeyboardWorks (.ok false) := by
  rw [Behaviour.Present] at present
  simp [Settles, Behaviour.KeyboardBreaks, Behaviour.KeyboardWorks, Behaviour.Present,
    Behaviour.Silent, present, other, stands]

theorem keyboard_usable (present : b.Present "XKEYBOARD")
    (used : b.answers .useKeyboardExtension = .reply (.keyboard true)) :
    Settles b.KeyboardBreaks b.KeyboardWorks
      ((optional (b.answers .selectKeyboardEvents)).map Option.isSome) := by
  rw [Behaviour.Present] at present
  cases selected : b.answers .selectKeyboardEvents <;>
    simp [optional, Except.map, Settles, Behaviour.KeyboardBreaks, Behaviour.KeyboardWorks,
      Behaviour.Present, Behaviour.Silent, present, used, selected]

end Keyboard

theorem keyboard_probe {rest : List (DisplayRequest × Nat)}
    (waits : c.waiting = (.queryExtension "XKEYBOARD", n) :: rest) :
    Probe c [.queryExtension "XKEYBOARD", .useKeyboardExtension, .selectKeyboardEvents] 0
        (fun b => Settles b.KeyboardBreaks b.KeyboardWorks) (exploreKeyboard d.recorded n c)
        (exploreKeyboard d n c.now) ∧
      (exploreKeyboard d.recorded n c).2.waiting = rest := by
  obtain ⟨a, c₁, noted, plain, first, waiting⟩ := d.recorded_await waits
  rcases extensionPresent_cases a with ⟨present, rfl, known⟩ | ⟨silent, known⟩
  · cases present with
    | false =>
      simp only [exploreKeyboard, noted, plain, known]
      refine ⟨⟨rfl, first.follows.mono (by simp) (Nat.le_refl 0), fun b agrees => ?_⟩, waiting⟩
      exact keyboard_absent (first.told b agrees)
    | true =>
      obtain ⟨a', c₂, noted', plain', second, waiting'⟩ := d.recorded_ask .useKeyboardExtension c₁
      have both := first.follows.trans second.follows
      have there (b : Behaviour) (agrees : b.Agrees c₂) : b.Present "XKEYBOARD" :=
        first.told b (agrees.of_follows second.follows)
      have unusable (other : a' ≠ .reply (.keyboard true)) (stands : a' ≠ .disconnected) :
          Probe c [.queryExtension "XKEYBOARD", .useKeyboardExtension, .selectKeyboardEvents] 0
              (fun b => Settles b.KeyboardBreaks b.KeyboardWorks) (.ok false, c₂)
              (.ok false, c₂.now) ∧ c₂.waiting = rest := by
        refine ⟨⟨rfl, both.mono (by simp) (Nat.le_refl 0), fun b agrees => ?_⟩,
          waiting'.trans waiting⟩
        have used := second.told b agrees
        exact keyboard_unusable (there b agrees) (used ▸ other) (used ▸ stands)
      simp only [exploreKeyboard, noted, plain, known, noted', plain']
      cases a' with
      | refused => exact unusable nofun nofun
      | disconnected =>
        refine ⟨⟨rfl, both.mono (by simp) (Nat.le_refl 0), fun b agrees => ?_⟩,
          waiting'.trans waiting⟩
        exact ⟨rfl, .inr ⟨there b agrees, .inl (second.told b agrees)⟩⟩
      | reply r =>
        cases r with
        | keyboard supported =>
          cases supported with
          | false => exact unusable nofun nofun
          | true =>
            obtain ⟨a'', c₃, noted'', plain'', third, waiting''⟩ :=
              d.recorded_ask .selectKeyboardEvents c₂
            simp only [optional, noted'', plain'']
            refine ⟨⟨rfl, (both.trans third.follows).mono (by simp) (Nat.le_refl 0),
              fun b agrees => ?_⟩, waiting''.trans (waiting'.trans waiting)⟩
            have before := agrees.of_follows third.follows
            have selected := third.told b agrees
            rw [← selected]
            exact keyboard_usable (there b before) (second.told b before)
        | _ => exact unusable nofun nofun
  · simp only [exploreKeyboard, noted, plain, known]
    refine ⟨⟨rfl, first.follows.mono (by simp) (Nat.le_refl 0), fun b agrees => ?_⟩, waiting⟩
    exact keyboard_silent fun present same =>
      silent present ((first.told b agrees).symm.trans same)

section Shape

variable {b : Behaviour}

theorem shapeHasInput_iff (major minor : Nat) :
    shapeHasInput major minor = true ↔ 1 < major ∨ major = 1 ∧ 1 ≤ minor := by
  simp [shapeHasInput]

theorem shape_absent (absent : b.answers (.queryExtension "SHAPE") = .reply (.extension false)) :
    Settles b.ShapeBreaks b.ShapeWorks (.ok false) := by
  simp [Settles, Behaviour.ShapeBreaks, Behaviour.ShapeWorks, Behaviour.Present, Behaviour.Silent,
    absent]

/-- The server refuses to say which version it has. -/
theorem shape_unusable (present : b.Present "SHAPE")
    (other : ∀ major minor, b.answers .queryShapeVersion ≠ .reply (.version major minor))
    (stands : b.answers .queryShapeVersion ≠ .disconnected) :
    Settles b.ShapeBreaks b.ShapeWorks (.ok false) := by
  rw [Behaviour.Present] at present
  simp [Settles, Behaviour.ShapeBreaks, Behaviour.ShapeWorks, Behaviour.Present, Behaviour.Silent,
    present, other, stands]

theorem shape_usable {major minor : Nat} (present : b.Present "SHAPE")
    (has : b.answers .queryShapeVersion = .reply (.version major minor)) :
    Settles b.ShapeBreaks b.ShapeWorks (.ok (shapeHasInput major minor)) := by
  rw [Behaviour.Present] at present
  simp [Settles, Behaviour.ShapeBreaks, Behaviour.ShapeWorks, Behaviour.Present, Behaviour.Silent,
    present, has, shapeHasInput_iff]

end Shape

theorem shape_probe {rest : List (DisplayRequest × Nat)}
    (waits : c.waiting = (.queryExtension "SHAPE", n) :: rest) :
    Probe c [.queryExtension "SHAPE", .queryShapeVersion] 0
      (fun b => Settles b.ShapeBreaks b.ShapeWorks) (exploreShape d.recorded n c)
      (exploreShape d n c.now) := by
  obtain ⟨a, c₁, noted, plain, first, _⟩ := d.recorded_await waits
  rcases extensionPresent_cases a with ⟨present, rfl, known⟩ | ⟨silent, known⟩
  · cases present with
    | false =>
      simp only [exploreShape, noted, plain, known]
      refine ⟨rfl, first.follows.mono (by simp) (Nat.le_refl 0), fun b agrees => ?_⟩
      exact shape_absent (first.told b agrees)
    | true =>
      obtain ⟨a', c₂, noted', plain', second, _⟩ := d.recorded_ask .queryShapeVersion c₁
      have both := first.follows.trans second.follows
      have there (b : Behaviour) (agrees : b.Agrees c₂) : b.Present "SHAPE" :=
        first.told b (agrees.of_follows second.follows)
      have unusable (other : ∀ major minor, a' ≠ .reply (.version major minor))
          (stands : a' ≠ .disconnected) :
          Probe c [.queryExtension "SHAPE", .queryShapeVersion] 0
            (fun b => Settles b.ShapeBreaks b.ShapeWorks) (.ok false, c₂) (.ok false, c₂.now) := by
        refine ⟨rfl, both, fun b agrees => ?_⟩
        have told := second.told b agrees
        exact shape_unusable (there b agrees) (told ▸ other) (told ▸ stands)
      simp only [exploreShape, noted, plain, known, noted', plain']
      cases a' with
      | refused => exact unusable nofun nofun
      | disconnected =>
        refine ⟨rfl, both, fun b agrees => ?_⟩
        exact ⟨rfl, .inr ⟨there b agrees, second.told b agrees⟩⟩
      | reply r =>
        cases r with
        | version major minor =>
          refine ⟨rfl, both, fun b agrees => ?_⟩
          exact shape_usable (there b agrees) (second.told b agrees)
        | _ => exact unusable nofun nofun
  · simp only [exploreShape, noted, plain, known]
    refine ⟨rfl, first.follows.mono (by simp) (Nat.le_refl 0), fun b agrees => ?_⟩
    exact ⟨rfl, .inl fun present same => silent present ((first.told b agrees).symm.trans same)⟩

/-- What is found out about the visual: there is no identifier for its colormap, or the connection
breaks, or it is told whether it can be used. -/
def SettlesVisual (b : Behaviour) (screen : Screen) : Except Fault (Option VisualChoice) → Prop
  | .error f => (∃ cause, f = .replyOrId cause ∧ b.Unidentified screen cause) ∨
      f = .connection ∧ b.VisualBreaks screen
  | .ok (some choice) => ∃ visual id, b.VisualWorks screen visual id ∧
      choice = ⟨Screen.transparentDepth, visual, id⟩
  | .ok none => (∀ cause, ¬b.Unidentified screen cause) ∧ ¬b.VisualBreaks screen ∧
      ∀ visual id, ¬b.VisualWorks screen visual id

theorem visual_answered {b : Behaviour} {visual id : Nat}
    (transparent : Screen.FirstTransparent screen.depths visual) (fresh : b.fresh = .ok id) :
    SettlesVisual b screen ((optional (b.answers (.createColormap id screen.root visual))).map
      fun reply => reply.map fun _ => ⟨Screen.transparentDepth, visual, id⟩) := by
  have only {visual' id' : Nat} (first : Screen.FirstTransparent screen.depths visual')
      (drawn : b.fresh = .ok id') : visual' = visual ∧ id' = id :=
    ⟨transparent.unique first, Except.ok.inj (drawn.symm.trans fresh)⟩
  cases answer : b.answers (.createColormap id screen.root visual) with
  | reply r => exact ⟨visual, id, ⟨transparent, fresh, r, answer⟩, rfl⟩
  | disconnected => exact .inr ⟨rfl, visual, id, transparent, fresh, answer⟩
  | refused =>
    refine ⟨fun cause unidentified => ?_, ?_, ?_⟩
    · cases unidentified.2.symm.trans fresh
    · rintro ⟨visual', id', first, drawn, broken⟩
      obtain ⟨rfl, rfl⟩ := only first drawn
      cases broken.symm.trans answer
    · rintro visual' id' ⟨first, drawn, r, replied⟩
      obtain ⟨rfl, rfl⟩ := only first drawn
      cases replied.symm.trans answer

theorem visual_probe (d : Dialogue σ) (screen : Screen) (c : Minutes σ) :
    ∃ id visual, Probe c [.createColormap id screen.root visual] 1
      (fun b => SettlesVisual b screen) (exploreVisual d.recorded screen c)
      (exploreVisual d screen c.now) := by
  cases found : Screen.findTransparent screen.depths with
  | none =>
    have none := Screen.findTransparent_eq_none.mp found
    simp only [exploreVisual, found]
    refine ⟨0, 0, rfl, (Minutes.Follows.refl c).mono (List.nil_sublist _) (Nat.zero_le _), ?_⟩
    intro b _
    exact ⟨fun _ ⟨⟨visual, first⟩, _⟩ => none visual first, fun ⟨visual, _, first, _⟩ =>
      none visual first, fun visual _ works => none visual works.1⟩
  | some choice =>
    obtain ⟨depth, visual⟩ := choice
    obtain ⟨rfl, transparent⟩ := Screen.findTransparent_eq_some.mp found
    obtain ⟨id, c₁, noted, plain, drawn, left, _⟩ := d.recorded_fresh c
    cases id with
    | error cause =>
      simp only [exploreVisual, found, noted, plain]
      refine ⟨0, 0, rfl, drawn.mono (List.nil_sublist _) (Nat.le_refl 1), fun b agrees => ?_⟩
      exact .inl ⟨cause, rfl, ⟨visual, transparent⟩, left b agrees⟩
    | ok id =>
      obtain ⟨a, c₂, noted', plain', asked, _⟩ :=
        d.recorded_ask (.createColormap id screen.root visual) c₁
      simp only [exploreVisual, found, noted, plain, noted', plain']
      refine ⟨id, visual, rfl, drawn.trans asked.follows, fun b agrees => ?_⟩
      have fresh := left b (agrees.of_follows asked.follows)
      rw [← asked.told b agrees]
      exact visual_answered transparent fresh

/-! ## 2. The outcome -/

section Outcome

variable {b : Behaviour}

theorem negotiated_broken
    (broken : b.KeyboardBreaks ∨ b.ShapeBreaks ∨ b.VisualBreaks screen) :
    Negotiated b screen (.error .connection) := by
  refine ⟨fun f => ⟨?_, ?_⟩, nofun⟩
  · rintro same
    cases same
    exact .inl ⟨rfl, broken⟩
  · rintro (⟨rfl, _⟩ | ⟨_, rfl, keyboard, shape, unidentified⟩)
    · rfl
    · rcases broken with breaks | breaks | ⟨_, _, _, fresh, _⟩
      · exact absurd breaks keyboard
      · exact absurd breaks shape
      · cases unidentified.2.symm.trans fresh

theorem negotiated_unidentified {cause : ReplyCause} (keyboard : ¬b.KeyboardBreaks)
    (shape : ¬b.ShapeBreaks) (unidentified : b.Unidentified screen cause) :
    Negotiated b screen (.error (.replyOrId cause)) := by
  refine ⟨fun f => ⟨?_, ?_⟩, nofun⟩
  · rintro same
    cases same
    exact .inr ⟨cause, rfl, keyboard, shape, unidentified⟩
  · rintro (⟨rfl, breaks | breaks | ⟨_, _, _, fresh, _⟩⟩ | ⟨_, rfl, _, _, same⟩)
    · exact absurd breaks keyboard
    · exact absurd breaks shape
    · cases unidentified.2.symm.trans fresh
    · cases same.2.symm.trans unidentified.2
      rfl

/-- Nothing breaks, and each feature is told. -/
theorem negotiated_ok {hasKeyboard hasShape : Bool} {choice : Option VisualChoice}
    (keyboard : Settles b.KeyboardBreaks b.KeyboardWorks (.ok hasKeyboard))
    (shape : Settles b.ShapeBreaks b.ShapeWorks (.ok hasShape))
    (visual : SettlesVisual b screen (.ok choice)) :
    Negotiated b screen
      (.ok ⟨hasKeyboard, hasShape, choice.isSome, choice.getD screen.rootChoice⟩) := by
  have stands : (∀ cause, ¬b.Unidentified screen cause) ∧ ¬b.VisualBreaks screen := by
    cases choice with
    | none => exact ⟨visual.1, visual.2.1⟩
    | some choice =>
      obtain ⟨visual, id, ⟨first, fresh, reply, created⟩, -⟩ := visual
      refine ⟨fun cause unidentified => ?_, ?_⟩
      · cases unidentified.2.symm.trans fresh
      · rintro ⟨visual', id', first', drawn, broken⟩
        cases first.unique first'
        cases drawn.symm.trans fresh
        cases broken.symm.trans created
  refine ⟨fun f => iff_of_false nofun ?_, fun c same => ?_⟩
  · rintro (⟨-, breaks | breaks | breaks⟩ | ⟨cause, -, -, -, unidentified⟩)
    · exact keyboard.1 breaks
    · exact shape.1 breaks
    · exact stands.2 breaks
    · exact stands.1 cause unidentified
  · cases same
    refine ⟨keyboard.2, shape.2, ?_⟩
    cases choice with
    | none =>
      obtain ⟨-, -, none⟩ := visual
      exact ⟨iff_of_false nofun fun ⟨visual, id, works⟩ => none visual id works,
        fun visual id works => absurd works (none visual id), fun _ => rfl⟩
    | some choice =>
      obtain ⟨visual, id, works, rfl⟩ := visual
      refine ⟨iff_of_true rfl ⟨visual, id, works⟩, fun visual' id' works' => ?_, fun none =>
        absurd works (none visual id)⟩
      cases works.1.unique works'.1
      cases works'.2.1.symm.trans works.2.1
      rfl

end Outcome

/-- The requests of a negotiation. -/
def questions (screen : Screen) (id visual : Nat) : List DisplayRequest :=
  [.queryExtension "XKEYBOARD", .useKeyboardExtension, .selectKeyboardEvents,
    .queryExtension "SHAPE", .queryShapeVersion, .createColormap id screen.root visual]

theorem nodup_questions (screen : Screen) (id visual : Nat) :
    (questions screen id visual).Nodup := by
  simp [questions]

theorem explore_probe (d : Dialogue σ) (screen : Screen) (s : σ) :
    ∃ id visual, Probe { now := s } (questions screen id visual) 1 (fun b => Negotiated b screen)
      (explore d.recorded screen { now := s }) (explore d screen s) := by
  rcases sent : d.send (.queryExtension "XKEYBOARD") s with ⟨n, s₁⟩
  rcases sent' : d.send (.queryExtension "SHAPE") s₁ with ⟨n', s₂⟩
  let begun : Minutes σ :=
    { now := s₂, waiting := [(.queryExtension "XKEYBOARD", n), (.queryExtension "SHAPE", n')] }
  have noted : d.recorded.send (.queryExtension "XKEYBOARD") { now := s } =
      (n, { now := s₁, waiting := [(.queryExtension "XKEYBOARD", n)] }) := by
    simp only [Dialogue.recorded, sent, List.nil_append]
  have noted' : d.recorded.send (.queryExtension "SHAPE")
      { now := s₁, waiting := [(.queryExtension "XKEYBOARD", n)] } = (n', begun) := by
    simp only [Dialogue.recorded, sent']
    rfl
  have started : ({ now := s } : Minutes σ).Follows begun [] 0 := .refl _
  obtain ⟨keyboard, waits⟩ := keyboard_probe (d := d) (c := begun) rfl
  rcases ran : exploreKeyboard d.recorded n begun with ⟨outcome, c₁⟩
  rw [ran] at keyboard waits
  have plain : exploreKeyboard d n s₂ = (outcome, c₁.now) := keyboard.same
  have first := started.trans keyboard.follows
  cases outcome with
  | error f =>
    simp only [explore, noted, noted', ran, sent, sent', plain]
    refine ⟨0, 0, rfl, first.mono (by simp [questions]) (by decide), fun b agrees => ?_⟩
    obtain ⟨rfl, breaks⟩ := keyboard.tells b agrees
    exact negotiated_broken (.inl breaks)
  | ok hasKeyboard =>
    have shape := shape_probe (d := d) waits
    rcases ran' : exploreShape d.recorded n' c₁ with ⟨outcome, c₂⟩
    rw [ran'] at shape
    have plain' : exploreShape d n' c₁.now = (outcome, c₂.now) := shape.same
    have second := first.trans shape.follows
    cases outcome with
    | error f =>
      simp only [explore, noted, noted', ran, ran', sent, sent', plain, plain']
      refine ⟨0, 0, rfl, second.mono (by simp [questions]) (by decide), fun b agrees => ?_⟩
      obtain ⟨rfl, breaks⟩ := shape.tells b agrees
      exact negotiated_broken (.inr (.inl breaks))
    | ok hasShape =>
      obtain ⟨id, visual, third⟩ := visual_probe d screen c₂
      rcases ran'' : exploreVisual d.recorded screen c₂ with ⟨outcome, c₃⟩
      rw [ran''] at third
      have plain'' : exploreVisual d screen c₂.now = (outcome, c₃.now) := third.same
      have all := second.trans third.follows
      have told (b : Behaviour) (agrees : b.Agrees c₃) :
          Settles b.KeyboardBreaks b.KeyboardWorks (.ok hasKeyboard) ∧
            Settles b.ShapeBreaks b.ShapeWorks (.ok hasShape) :=
        have before := agrees.of_follows third.follows
        ⟨keyboard.tells b (before.of_follows shape.follows), shape.tells b before⟩
      cases outcome with
      | error f =>
        simp only [explore, noted, noted', ran, ran', ran'', sent, sent', plain, plain', plain'']
        refine ⟨id, visual, rfl, all.mono (by simp [questions]) (by decide), fun b agrees => ?_⟩
        obtain ⟨keyboard, shape⟩ := told b agrees
        rcases third.tells b agrees with ⟨cause, rfl, unidentified⟩ | ⟨rfl, breaks⟩
        · exact negotiated_unidentified keyboard.1 shape.1 unidentified
        · exact negotiated_broken (.inr (.inr breaks))
      | ok choice =>
        simp only [explore, noted, noted', ran, ran', ran'', sent, sent', plain, plain', plain'']
        refine ⟨id, visual, rfl, all.mono (by simp [questions]) (by decide), fun b agrees => ?_⟩
        obtain ⟨keyboard, shape⟩ := told b agrees
        exact negotiated_ok keyboard shape (third.tells b agrees)

/-- **The negotiation finds out what the display answers.** Whatever a dialogue answers, and however
its answers depend on what went before, noting them changes nothing, and they are those of some
behaviour. Every such behaviour tells the outcome: the negotiation fails exactly where the
connection breaks, or where there is no identifier for the colormap of a transparent visual, and
then for the cause of that; otherwise each feature is told by its own answers. Its fault means that
the connection is gone, unless the identifiers are used up or the display refuses to give more. -/
theorem negotiation_follows_answers (d : Dialogue σ) (screen : Screen) (s : σ) :
    let run := explore d.recorded screen { now := s }
    explore d screen s = (run.1, run.2.now) ∧ (∃ b : Behaviour, b.Agrees run.2) ∧
      ∀ b : Behaviour, b.Agrees run.2 → Negotiated b screen run.1 ∧
        ∀ f, run.1 = .error f → (f.isDisconnection = true ↔
          b.KeyboardBreaks ∨ b.ShapeBreaks ∨
            ∀ cause, b.Unidentified screen cause → cause = .disconnected) := by
  intro run
  obtain ⟨id, visual, probe⟩ := explore_probe d screen s
  refine ⟨probe.same, Behaviour.exists_agrees probe.follows (nodup_questions screen id visual),
    fun b agrees => ⟨probe.tells b agrees, fun f failed => ?_⟩⟩
  rcases ((probe.tells b agrees).fault f).mp failed with
    ⟨rfl, breaks | breaks | ⟨_, _, _, fresh, _⟩⟩ | ⟨cause, rfl, keyboard, shape, unidentified⟩
  · exact iff_of_true rfl (.inl breaks)
  · exact iff_of_true rfl (.inr (.inl breaks))
  · refine iff_of_true rfl (.inr (.inr fun cause unidentified => ?_))
    cases unidentified.2.symm.trans fresh
  · have gone : (Fault.replyOrId cause).isDisconnection = true ↔ cause = .disconnected :=
      decide_eq_true_iff
    rw [gone]
    constructor
    · rintro rfl
      refine .inr (.inr fun other same => ?_)
      cases same.2.symm.trans unidentified.2
      rfl
    · rintro (breaks | breaks | stands)
      · exact absurd breaks keyboard
      · exact absurd breaks shape
      · exact stands cause unidentified

/-- The dialogue that answers as a behaviour says. Requests are numbered in the order in which they
are sent. -/
def scripted (b : Behaviour) : Dialogue (List DisplayRequest) where
  send r sent := (sent.length, sent ++ [r])
  await n sent := ((sent[n]?).elim .disconnected b.answers, sent)
  ask r sent := (b.answers r, sent)
  fresh sent := (b.fresh, sent)

/-- A display that has every feature, and answers every request. -/
def obliging (fresh : Except ReplyCause Nat) : Behaviour where
  answers
    | .queryExtension _ => .reply (.extension true)
    | .useKeyboardExtension => .reply (.keyboard true)
    | .queryShapeVersion => .reply (.version 1 1)
    | _ => .reply .done
  fresh := fresh

/-- A screen with one transparent visual. -/
def deepScreen : Screen := { depths := [⟨32, [⟨65, 4⟩]⟩] }

/-- What was answered says that every feature works. -/
theorem negotiation_follows_answers_of_obliging :
    let run := explore (scripted (obliging (.ok 7))).recorded deepScreen { now := [] }
    run.1 = .ok ⟨true, true, true, ⟨32, 65, 7⟩⟩ ∧
      ∃ b : Behaviour, b.Agrees run.2 ∧ b.KeyboardWorks ∧ b.ShapeWorks ∧
        ∃ visual id, b.VisualWorks deepScreen visual id := by
  intro run
  obtain ⟨_, ⟨b, agrees⟩, tells⟩ :=
    negotiation_follows_answers (scripted (obliging (.ok 7))) deepScreen []
  have done : run.1 = .ok ⟨true, true, true, ⟨32, 65, 7⟩⟩ := rfl
  obtain ⟨keyboard, shape, visual, _⟩ := (tells b agrees).1.features _ done
  exact ⟨done, b, agrees, keyboard.mp rfl, shape.mp rfl, visual.mp rfl⟩

/-- Every request would be answered, but the identifiers are used up: the negotiation fails, and its
fault does not mean that the connection is gone. The same goes for a display that refuses to give
more of them. -/
theorem exhaustion_is_fatal :
    (explore (scripted (obliging (.error .exhausted))) deepScreen []).1 =
        .error (.replyOrId .exhausted) ∧
      (Fault.replyOrId .exhausted).isDisconnection = false ∧
      (∀ r, (obliging (.error .exhausted)).answers r ≠ .disconnected) ∧
      (explore (scripted (obliging (.error .refused))) deepScreen []).1 =
        .error (.replyOrId .refused) ∧
      (Fault.replyOrId .refused).isDisconnection = false := by
  refine ⟨rfl, rfl, fun r => ?_, rfl, rfl⟩
  cases r <;> nofun

end DisplayFeatures

end Succession
