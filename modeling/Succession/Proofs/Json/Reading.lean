import Succession.Json.Reader
import Succession.Proofs.Json.Lexing

/-!
# The tokens of a value are put together to that value

`Value.tokens` writes a value as tokens. Read where a value is expected, they deliver that value to
whatever is open and leave the later tokens to be read (`reads`); alone they are the value
(`valueOfTokens?_tokens`). With the law of the lexer, a text laid out from them spells it
(`parse?_render`).
-/

namespace Succession.Json

/-- Parts with commas between them. -/
def separated : List (List Token) → List Token
  | [] => []
  | [part] => part
  | part :: next :: rest => part ++ .comma :: separated (next :: rest)

mutual

/-- The tokens of a value. -/
def Value.tokens : Value → List Token
  | .null => [.null]
  | .boolean b => [.boolean b]
  | .integer n => [.integer n]
  | .fractional => [.fractional]
  | .string text => [.string text]
  | .array items => .openBracket :: separated (itemTokens items) ++ [.closeBracket]
  | .object members => .openBrace :: separated (memberTokens members) ++ [.closeBrace]

/-- The tokens of each element of an array. -/
def itemTokens : List Value → List (List Token)
  | [] => []
  | v :: rest => v.tokens :: itemTokens rest

/-- The tokens of each member of an object. -/
def memberTokens : List (Option (List Char) × Value) → List (List Token)
  | [] => []
  | (key, v) :: rest => (.string key :: .colon :: v.tokens) :: memberTokens rest

end

namespace ReaderState

/-- Reading on from a state. -/
def run (s : ReaderState) (tokens : List Token) : Option ReaderState := tokens.foldlM step s

theorem run_cons (s : ReaderState) (t : Token) (tokens : List Token) :
    s.run (t :: tokens) = (s.step t).bind fun s' => s'.run tokens := by
  simp only [run, List.foldlM_cons, Option.bind_eq_bind]

end ReaderState

theorem tokens_begin (v : Value) : ∃ first others, v.tokens = first :: others ∧
    first ≠ .closeBracket := by
  cases v <;> rw [Value.tokens] <;> exact ⟨_, _, rfl, by simp⟩

namespace ReaderState

/-- Where a value or the end of an array may stand, a value is read as one. -/
theorem run_valueOrClose (v : Value) (frames : List Frame) (later : List Token) :
    run ⟨.valueOrClose, frames⟩ (v.tokens ++ later) = run ⟨.value, frames⟩ (v.tokens ++ later) := by
  obtain ⟨first, others, spelled, opens⟩ := tokens_begin v
  rw [spelled, List.cons_append, run_cons, run_cons]
  have same : step ⟨.valueOrClose, frames⟩ first = step ⟨.value, frames⟩ first := by
    simp only [step, if_neg opens]
  rw [same]

/-- Whether the tokens of a value deliver it, whatever is open and whatever follows. -/
def Reads (v : Value) : Prop :=
  ∀ frames later, run ⟨.value, frames⟩ (v.tokens ++ later) = run (deliver v frames) later

theorem run_items (items before : List Value) (v : Value) (all : ∀ w ∈ v :: items, Reads w)
    (frames : List Frame) (later : List Token) :
    run ⟨.value, .array before :: frames⟩
        (separated (itemTokens (v :: items)) ++ .closeBracket :: later) =
      run (deliver (.array (before.reverse ++ v :: items)) frames) later := by
  have first := all v (by simp) (.array before :: frames)
  induction items generalizing before v with
  | nil =>
    rw [itemTokens, itemTokens, separated, first, deliver, run_cons]
    simp [step, close]
  | cons next rest ih =>
    have closed := ih (v :: before) next (fun w member => all w (List.mem_cons_of_mem _ member))
      (all next (by simp) _)
    rw [itemTokens] at closed
    rw [itemTokens, itemTokens, separated, List.append_assoc, first, List.cons_append, deliver,
      run_cons]
    refine closed.trans ?_
    simp

theorem run_members (members before : List (Option (List Char) × Value))
    (m : Option (List Char) × Value) (old : Option (List Char))
    (all : ∀ n ∈ m :: members, Reads n.2) (frames : List Frame) (later : List Token) :
    run ⟨.key, .object before old :: frames⟩
        (separated (memberTokens (m :: members)) ++ .closeBrace :: later) =
      run (deliver (.object (before.reverse ++ m :: members)) frames) later := by
  obtain ⟨key, v⟩ := m
  have first := all (key, v) (by simp) (.object before key :: frames)
  induction members generalizing before key v old with
  | nil =>
    rw [memberTokens, memberTokens, separated, List.cons_append, List.cons_append, run_cons]
    refine (run_cons _ _ _).trans ?_
    refine (first _).trans ?_
    rw [deliver, run_cons]
    simp [step, close]
  | cons next rest ih =>
    have closed := ih ((key, v) :: before) none next.1 next.2
      (fun n member => all n (List.mem_cons_of_mem _ member)) (all next (by simp) _)
    rw [memberTokens] at closed
    rw [memberTokens, memberTokens, separated, List.append_assoc, List.cons_append,
      List.cons_append, run_cons]
    refine (run_cons _ _ _).trans ?_
    refine (first _).trans ?_
    rw [List.cons_append, deliver, run_cons]
    refine closed.trans ?_
    simp

/-- A key or the end of an object: a key is read as one. -/
theorem run_keyOrClose (m : Option (List Char) × Value)
    (members : List (Option (List Char) × Value)) (frames : List Frame) (later : List Token) :
    run ⟨.keyOrClose, frames⟩ (separated (memberTokens (m :: members)) ++ later) =
      run ⟨.key, frames⟩ (separated (memberTokens (m :: members)) ++ later) := by
  cases members <;> rw [memberTokens, memberTokens] <;> rfl

theorem run_valueOrClose_items (v : Value) (items : List Value) (frames : List Frame)
    (later : List Token) :
    run ⟨.valueOrClose, frames⟩ (separated (itemTokens (v :: items)) ++ later) =
      run ⟨.value, frames⟩ (separated (itemTokens (v :: items)) ++ later) := by
  cases items with
  | nil => exact run_valueOrClose v frames later
  | cons next rest =>
    rw [itemTokens, itemTokens, separated, List.append_assoc]
    exact run_valueOrClose v frames _

theorem reads (v : Value) : Reads v := by
  intro frames later
  match v with
  | .array [] => rfl
  | .array (v :: items) =>
    rw [Value.tokens, List.cons_append, List.cons_append, run_cons, List.append_assoc]
    refine (run_valueOrClose_items v items _ _).trans ?_
    exact run_items items [] v (fun w _ => reads w) frames later
  | .object [] => rfl
  | .object (m :: members) =>
    rw [Value.tokens, List.cons_append, List.cons_append, run_cons, List.append_assoc]
    refine (run_keyOrClose m members _ _).trans ?_
    exact run_members members [] m none (fun n _ => reads n.2) frames later
  | .null | .boolean _ | .integer _ | .fractional | .string _ => rfl
termination_by sizeOf v
decreasing_by
  · have small := List.sizeOf_lt_of_mem ‹w ∈ _›
    simp at small ⊢
    omega
  · have small := List.sizeOf_lt_of_mem ‹n ∈ _›
    obtain ⟨key, value⟩ := n
    simp at small ⊢
    omega

end ReaderState

/-- The tokens of a value are put together to that value. -/
theorem valueOfTokens?_tokens (v : Value) : valueOfTokens? v.tokens = some v := by
  have whole := ReaderState.reads v [] []
  rw [List.append_nil] at whole
  rw [valueOfTokens?]
  simp only [ReaderState.run] at whole
  rw [whole]
  rfl

/-- A text laid out from the tokens of a value spells that value. -/
theorem parse?_render {pieces : List Piece} {v : Value} (readable : Readable pieces)
    (spelled : pieces.filterMap Piece.token? = v.tokens) :
    parse? (Utf8.encodeChars (render pieces)) = some v := by
  rw [parse?, tokens?_render readable, spelled]
  exact valueOfTokens?_tokens v

end Succession.Json
