import Succession.Proofs.Json.Lexemes

/-!
# A laid-out JSON text is cut into its tokens

A text is written from tokens, blanks and line breaks. As long as no two numbers run together
(`Readable`), cutting it gives the tokens it was written from (`tokens?_render`).
-/

namespace Succession.Json

open Utf8 (encodeChar encodeChars)

/-- The token of a part. -/
def Piece.token? : Piece → Option Token
  | token t => some t
  | _ => none

/-- Whether two parts may stand side by side: two numbers would run together. -/
def Piece.Apart (p q : Piece) : Prop := ¬(p.isInteger = true ∧ q.isInteger = true)

/-- Whether some parts are read as the tokens they are written from: each keeps its value, and no
two numbers run together. -/
def Readable (pieces : List Piece) : Prop :=
  (∀ p ∈ pieces, ∀ t ∈ p.token?, t.isExact = true) ∧ pieces.IsChain Piece.Apart

/-- Whether a part is read back whatever stands beside it. -/
def Piece.standsAlone : Piece → Bool
  | token (.integer _) => false
  | token t => t.isExact
  | _ => true

theorem Piece.not_isInteger {p : Piece} (alone : p.standsAlone = true) : p.isInteger = false := by
  cases p with
  | token t => cases t <;> first | rfl | cases alone
  | _ => rfl

theorem Piece.isExact_of_standsAlone {p : Piece} (alone : p.standsAlone = true) :
    ∀ t ∈ p.token?, t.isExact = true := by
  intro t found
  cases p with
  | token t' =>
    cases found
    cases t <;> first | rfl | exact alone
  | _ => cases found

namespace Readable

theorem nil : Readable [] := ⟨nofun, .nil⟩

theorem tail {p : Piece} {pieces : List Piece} (h : Readable (p :: pieces)) : Readable pieces :=
  ⟨fun q member => h.1 q (List.mem_cons_of_mem _ member), List.IsChain.of_cons h.2⟩

theorem cons {p : Piece} (alone : p.standsAlone = true) {pieces : List Piece}
    (h : Readable pieces) : Readable (p :: pieces) := by
  refine ⟨fun q member => ?_, ?_⟩
  · rcases List.mem_cons.mp member with rfl | member
    · exact Piece.isExact_of_standsAlone alone
    · exact h.1 q member
  · cases pieces with
    | nil => exact .singleton _
    | cons q pieces =>
      refine List.isChain_cons_cons.mpr ⟨?_, h.2⟩
      simp [Piece.Apart, Piece.not_isInteger alone]

theorem append (front : List Piece) (alone : front.all Piece.standsAlone = true)
    {pieces : List Piece} (h : Readable pieces) : Readable (front ++ pieces) := by
  induction front with
  | nil => exact h
  | cons p front ih =>
    rw [List.all_cons, Bool.and_eq_true] at alone
    exact (ih alone.2).cons alone.1

/-- A number is read back before a part that stands alone. -/
theorem integer (n : Int) {p : Piece} (alone : p.standsAlone = true) {pieces : List Piece}
    (h : Readable (p :: pieces)) : Readable (.token (.integer n) :: p :: pieces) := by
  refine ⟨fun q member => ?_, List.isChain_cons_cons.mpr ⟨?_, h.2⟩⟩
  · rcases List.mem_cons.mp member with rfl | member
    · intro t found
      cases found
      rfl
    · exact h.1 q member
  · simp [Piece.Apart, Piece.not_isInteger alone]

/-- A part that stands alone may stand between any others. -/
theorem append_cons {before after : List Piece} {p : Piece} (alone : p.standsAlone = true)
    (h : Readable before) (h' : Readable after) : Readable (before ++ p :: after) := by
  induction before with
  | nil => exact h'.cons alone
  | cons q before ih =>
    refine ⟨fun r member => ?_, ?_⟩
    · rcases List.mem_cons.mp member with rfl | member
      · exact h.1 _ List.mem_cons_self
      · exact (ih h.tail).1 r member
    · cases before with
      | nil =>
        refine List.isChain_cons_cons.mpr ⟨?_, (h'.cons alone).2⟩
        simp [Piece.Apart, Piece.not_isInteger alone]
      | cons r before =>
        exact List.isChain_cons_cons.mpr ⟨(List.isChain_cons_cons.mp h.2).1, (ih h.tail).2⟩

end Readable

/-- The bytes are cut into these tokens. -/
def Lexes (bytes : Bytes) (tokens : List Token) : Prop :=
  ∀ limit, bytes.length ≤ limit → tokensUpTo limit bytes = some tokens

theorem lexes_nil : Lexes [] [] := by
  intro limit _
  cases limit <;> rfl

theorem Lexes.space {bytes : Bytes} {tokens : List Token} (h : Lexes bytes tokens) {b : UInt8}
    (space : isSpace b = true) : Lexes (b :: bytes) tokens := by
  intro limit enough
  cases limit with
  | zero => cases enough
  | succ limit =>
    rw [tokensUpTo, if_pos space]
    exact h limit (by simpa using enough)

theorem Lexes.spaces {bytes : Bytes} {tokens : List Token} (h : Lexes bytes tokens) {spaces : Bytes}
    (all : ∀ b ∈ spaces, isSpace b = true) : Lexes (spaces ++ bytes) tokens := by
  induction spaces with
  | nil => exact h
  | cons b spaces ih =>
    exact (ih fun d member => all d (List.mem_cons_of_mem _ member)).space (all b (by simp))

theorem readToken_space {b : UInt8} (space : isSpace b = true) (rest : Bytes) :
    readToken (b :: rest) = none := by
  simp only [isSpace, Bool.or_eq_true, decide_eq_true_eq] at space
  rcases space with ((rfl | rfl) | rfl) | rfl <;>
    simp [readToken, mark?, quote, isDigit, words_eq, List.isPrefixOf?]

theorem Lexes.token {bytes after : Bytes} {tokens : List Token} (h : Lexes after tokens)
    {t : Token} (read : readToken bytes = some (t, after)) (shorter : after.length < bytes.length) :
    Lexes bytes (t :: tokens) := by
  intro limit enough
  cases bytes with
  | nil => cases read
  | cons b rest =>
    cases limit with
    | zero => cases enough
    | succ limit =>
      have noSpace : ¬isSpace b = true := fun space => by
        rw [readToken_space space] at read
        cases read
      rw [tokensUpTo, if_neg noSpace, read]
      simp only [List.length_cons] at shorter enough
      simp only [h limit (by omega), Option.map_some]

theorem render_ne_nil (t : Token) : t.render ≠ [] := by
  cases t with
  | integer n =>
    rw [Token.render, Numeral.intDigits]
    split_ifs
    · simp
    · exact Numeral.natDigits_ne_nil _
  | string text => cases text <;> simp [Token.render, quoted]
  | boolean b => cases b <;> simp [Token.render]
  | _ => simp [Token.render]

theorem Lexes.cons {bytes : Bytes} {tokens : List Token} (h : Lexes bytes tokens) {t : Token}
    (read : readToken (encodeChars t.render ++ bytes) = some (t, bytes)) :
    Lexes (encodeChars t.render ++ bytes) (t :: tokens) := by
  have long := Utf8.encodeChars_length t.render
  have nonempty := List.length_pos_of_ne_nil (render_ne_nil t)
  exact h.token read (by rw [List.length_append]; omega)

theorem render_cons (p : Piece) (pieces : List Piece) :
    encodeChars (render (p :: pieces)) = encodeChars p.render ++ encodeChars (render pieces) := by
  rw [Json.render, List.flatMap_cons, Utf8.encodeChars_append]
  rfl

/-- What a part other than an integer begins with ends a number. -/
theorem endsNumber_render {p : Piece} (noInteger : p.isInteger = false)
    (exact : ∀ t ∈ p.token?, t.isExact = true) (rest : Bytes) :
    EndsNumber (encodeChars p.render ++ rest) := by
  cases p with
  | token t =>
    have exact := exact t rfl
    cases t with
    | integer n => cases noInteger
    | fractional => cases exact
    | string text =>
      cases text with
      | none => cases exact
      | some text =>
        simp [EndsNumber, Piece.render, Token.render, quoted, encodeChars, encodeChar, isDigit]
    | boolean b =>
      cases b <;> simp [EndsNumber, Piece.render, Token.render, encodeChars, encodeChar, isDigit]
    | _ => simp [EndsNumber, Piece.render, Token.render, encodeChars, encodeChar, isDigit]
  | line indent => simp [EndsNumber, Piece.render, encodeChars, encodeChar, isDigit]
  | blank => simp [EndsNumber, Piece.render, encodeChars, encodeChar, isDigit]

theorem Readable.endsNumber {p : Piece} {pieces : List Piece} (h : Readable (p :: pieces))
    (integer : p.isInteger = true) : EndsNumber (encodeChars (render pieces)) := by
  cases pieces with
  | nil => exact nofun
  | cons q pieces =>
    have apart := (List.isChain_cons_cons.mp h.2).1
    rw [render_cons]
    refine endsNumber_render ?_ (h.1 q (by simp)) _
    simpa [Piece.Apart, integer] using apart

theorem isSpace_of_mem_line {indent : Nat} : ∀ b ∈ encodeChars (Piece.line indent).render,
    isSpace b = true := by
  have ascii : ∀ c ∈ (Piece.line indent).render, c = '\n' ∨ c = ' ' := by
    intro c member
    rcases List.mem_cons.mp member with rfl | member
    · exact .inl rfl
    · exact .inr (List.eq_of_mem_replicate member)
  intro b member
  obtain ⟨c, found, written⟩ := List.mem_flatMap.mp member
  rcases ascii c found with rfl | rfl
  · rw [List.mem_singleton.mp written]
    decide
  · rw [List.mem_singleton.mp written]
    decide

theorem isSpace_of_mem_blank : ∀ b ∈ encodeChars Piece.blank.render, isSpace b = true := by
  intro b member
  obtain ⟨c, found, written⟩ := List.mem_flatMap.mp member
  rw [List.mem_singleton.mp found] at written
  rw [List.mem_singleton.mp written]
  decide

/-- Laid-out tokens are read back. -/
theorem lexes_render {pieces : List Piece} (readable : Readable pieces) :
    Lexes (encodeChars (render pieces)) (pieces.filterMap Piece.token?) := by
  induction pieces with
  | nil => exact lexes_nil
  | cons p pieces ih =>
    have rest := ih readable.tail
    rw [render_cons]
    cases p with
    | line indent => exact rest.spaces isSpace_of_mem_line
    | blank => exact rest.spaces isSpace_of_mem_blank
    | token t =>
      have exact := readable.1 (.token t) (by simp) t rfl
      cases integer : (Piece.token t).isInteger with
      | true =>
        cases t with
        | integer n =>
          exact rest.cons (t := .integer n) (readToken_integer n (readable.endsNumber integer))
        | _ => cases integer
      | false => exact rest.cons (readToken_render exact integer _)

/-- Laid-out tokens are read back from the bytes of their text. -/
theorem tokens?_render {pieces : List Piece} (readable : Readable pieces) :
    tokens? (encodeChars (render pieces)) = some (pieces.filterMap Piece.token?) :=
  lexes_render readable _ (Nat.le_refl _)

end Succession.Json
