import Succession.Proofs.Process.Wiring
import Succession.Proofs.Request.Framing
import Succession.Proofs.WindowManager.DisplayFrame
import Succession.WindowManager.Round

/-!
# Which lines are dealt with

Lines are dealt with one after another, and the first that asks for a restart is the last
(`Request.upToRestart`). Those before it change nothing that bears on requests (`Quiet`): they only
send replies.
-/

namespace Succession

namespace Request

/-- Whether a line asks for a restart. -/
def isRestart (line : String) : Bool :=
  match parse line with
  | .ok .restart => true
  | _ => false

/-- The lines up to the first one that asks for a restart. -/
def upToRestart : List String → List String
  | [] => []
  | line :: rest => if isRestart line then [line] else line :: upToRestart rest

theorem upToRestart_append {front : List String} (calm : ∀ line ∈ front, isRestart line = false)
    (back : List String) : upToRestart (front ++ back) = front ++ upToRestart back := by
  induction front with
  | nil => rfl
  | cons line rest ih =>
    have first := calm line List.mem_cons_self
    rw [List.cons_append, upToRestart, first, if_neg Bool.false_ne_true,
      ih fun other member => calm other (List.mem_cons_of_mem _ member)]
    rfl

theorem upToRestart_of_calm {lines : List String} (calm : ∀ line ∈ lines, isRestart line = false) :
    upToRestart lines = lines := by
  have whole := upToRestart_append calm []
  rwa [List.append_nil, upToRestart, List.append_nil] at whole

theorem upToRestart_eq_self {lines : List String}
    (calm : ∀ line ∈ upToRestart lines, isRestart line = false) : upToRestart lines = lines := by
  induction lines with
  | nil => rfl
  | cons line rest ih =>
    rw [upToRestart] at calm ⊢
    split at calm
    · next restart =>
      rw [calm line List.mem_cons_self] at restart
      cases restart
    · next ordinary =>
      rw [if_neg ordinary, ih fun other member => calm other (List.mem_cons_of_mem _ member)]

theorem exists_behind (lines : List String) : ∃ behind, lines = upToRestart lines ++ behind := by
  induction lines with
  | nil => exact ⟨[], rfl⟩
  | cons line rest ih =>
    rw [upToRestart]
    split
    · exact ⟨rest, rfl⟩
    · obtain ⟨behind, same⟩ := ih
      exact ⟨behind, congrArg (line :: ·) same⟩

end Request

open Request

namespace Stream

theorem inbox_write? {s s' : Stream} {bytes : Bytes} (written : s.write? bytes = some s') :
    s'.inbox = s.inbox := by
  unfold write? at written
  split at written
  · cases written
  · split at written
    · cases written
    · cases written
      rfl

theorem inbox_writeLine (s : Stream) (text : String) : (s.writeLine text).inbox = s.inbox := by
  unfold writeLine
  split
  · rfl
  · next s' first =>
    cases second : s'.write? [Bytes.newline] with
    | none => exact inbox_write? first
    | some s'' => exact (inbox_write? second).trans (inbox_write? first)

end Stream

namespace WindowManager

/-- Nothing has happened that bears on requests: the channels are the same, and so is what there is
to be read. -/
structure Quiet (m m' : WindowManager) : Prop where
  holding : m'.holding = m.holding
  host : m.host.Alike m'.host

namespace Quiet

variable {m m' m'' : WindowManager}

theorem refl (m : WindowManager) : Quiet m m := ⟨rfl, .refl _⟩

theorem trans (first : Quiet m m') (second : Quiet m' m'') : Quiet m m'' :=
  ⟨second.holding.trans first.holding, first.host.trans second.host⟩

theorem of_clientSide (same : m'.clientSide = m.clientSide) : Quiet m m' := by
  obtain ⟨host, holding⟩ := Prod.mk.inj same
  exact ⟨holding, host ▸ .refl _⟩

theorem reply (m : WindowManager) (fd : Int) (text : String) : Quiet m (m.reply fd text) := by
  rw [WindowManager.reply]
  split
  · split
    · exact ⟨rfl, .modify _ _ fun s => s.inbox_writeLine text⟩
    · exact refl m
  · exact refl m

end Quiet

/-- A line that does not ask for a restart. -/
theorem handleLine_ok {m m' : WindowManager} {fd : Int} {line : String}
    (handled : m.handleLine fd line = .ok m') : isRestart line = false ∧ Quiet m m' := by
  unfold handleLine at handled
  rw [isRestart]
  cases asked : parse line with
  | error fault =>
    rw [asked] at handled
    cases handled
    exact ⟨rfl, .reply _ _ _⟩
  | ok request =>
    rw [asked] at handled
    cases request with
    | restart => cases handled
    | exit =>
      cases handled
      exact ⟨rfl, (Quiet.reply m fd Reply.exiting).trans ⟨rfl, .refl _⟩⟩
    | version | ping =>
      cases handled
      exact ⟨rfl, .reply _ _ _⟩

/-- A line that asks for one. -/
theorem handleLine_error {m : WindowManager} {fd : Int} {line : String} {departure : Departure}
    (handled : m.handleLine fd line = .error departure) :
    isRestart line = true ∧ departure = m.replaceImage (some fd) := by
  unfold handleLine at handled
  rw [isRestart]
  cases asked : parse line with
  | error fault =>
    rw [asked] at handled
    cases handled
  | ok request =>
    rw [asked] at handled
    cases request with
    | restart =>
      cases handled
      exact ⟨rfl, rfl⟩
    | exit | version | ping => cases handled

theorem handleLines_ok {m m' : WindowManager} {fd : Int} {lines : List String}
    (handled : m.handleLines fd lines = .ok m') :
    (∀ line ∈ lines, isRestart line = false) ∧ Quiet m m' := by
  induction lines generalizing m with
  | nil =>
    cases handled
    exact ⟨nofun, .refl _⟩
  | cons line rest ih =>
    rw [handleLines] at handled
    split at handled
    · cases handled
    · next middle first =>
      obtain ⟨calm, quiet⟩ := handleLine_ok first
      obtain ⟨others, quiet'⟩ := ih handled
      exact ⟨List.forall_mem_cons.mpr ⟨calm, others⟩, quiet.trans quiet'⟩

/-- If the image goes, then at the first line that asks for it. -/
theorem handleLines_error {m : WindowManager} {fd : Int} {lines : List String}
    {departure : Departure} (handled : m.handleLines fd lines = .error departure) :
    ∃ front line m', upToRestart lines = front ++ [line] ∧ m.handleLines fd front = .ok m' ∧
      m'.handleLine fd line = .error departure := by
  induction lines generalizing m with
  | nil => cases handled
  | cons line rest ih =>
    rw [handleLines] at handled
    split at handled
    · next first =>
      cases handled
      refine ⟨[], line, m, ?_, rfl, first⟩
      rw [upToRestart, if_pos (handleLine_error first).1]
      rfl
    · next middle first =>
      obtain ⟨front, last, m', cut, others, gone⟩ := ih handled
      refine ⟨line :: front, last, m', ?_, ?_, gone⟩
      · rw [upToRestart, (handleLine_ok first).1, if_neg Bool.false_ne_true, cut]
        rfl
      · rw [handleLines, first]
        exact others

/-! ## What an image is told -/

/-- The lines that are dealt with when the manager attends to something, each with the number of
the connection that it came from. -/
def heard (m : WindowManager) : Ready → List (Nat × String)
  | .client fd =>
    match m.holding.set.clients.get? fd, m.connectionAt? fd with
    | some client, some id =>
      (upToRestart (Intake.read client.lines (m.host.connections.get id)).lines).map fun line =>
        (id, line)
    | _, _ => []
  | _ => []

/-- What was heard from a connection. -/
def saidBy (id : Nat) (log : List (Nat × String)) : List String :=
  (log.filter fun (n, _) => n = id).map (·.2)

end WindowManager

end Succession
