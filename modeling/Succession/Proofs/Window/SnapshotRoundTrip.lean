import Succession.Proofs.Json.Reading
import Succession.Window.Snapshot

/-!
# A snapshot is read back as it was written

The text of a snapshot spells an object with the version and the windows (`parse?_encode`), and
reading it gives the windows in their order (`decode_encode`).
-/

namespace Succession.Snapshot

open Json

/-- The JSON value that a snapshot is written as. -/
def value (s : Snapshot) : Value :=
  .object [(some "version".toList, .integer s.version),
    (some "windows".toList, .array (s.windows.map fun w => .integer w.toNat))]

/-! ## Writing -/

theorem tokens_windowPieces (windows : List WindowId) :
    (windowPieces windows).filterMap Piece.token? =
      separated (itemTokens (windows.map fun w => .integer w.toNat)) := by
  induction windows with
  | nil => rfl
  | cons w rest ih =>
    cases rest with
    | nil => rfl
    | cons v rest =>
      rw [windowPieces, List.filterMap_append, ih]
      · rfl
      · exact nofun

theorem tokens_pieces (s : Snapshot) : s.pieces.filterMap Piece.token? = s.value.tokens := by
  obtain ⟨version, windows⟩ := s
  cases windows with
  | nil => rfl
  | cons w rest =>
    have body := tokens_windowPieces (w :: rest)
    simp only [pieces, value, Value.tokens, memberTokens, separated, List.filterMap_append]
    simp only [List.isEmpty_cons, Bool.false_eq_true, if_false, List.filterMap_append, body]
    simp [Piece.token?, Token.word, List.filterMap_cons]

/-- A number is followed by a comma or by what stands after the last window. -/
theorem readable_windowPieces (windows : List WindowId) {p : Piece} (alone : p.standsAlone = true)
    {later : List Piece} (readable : Readable (p :: later)) :
    Readable (windowPieces windows ++ p :: later) := by
  induction windows with
  | nil => exact readable
  | cons w rest ih =>
    cases rest with
    | nil => exact (readable.integer _ alone).cons rfl
    | cons v rest =>
      rw [windowPieces]
      · exact ((ih.cons rfl).integer _ rfl).cons rfl
      · exact nofun

theorem readable_pieces (s : Snapshot) : Readable s.pieces := by
  obtain ⟨version, windows⟩ := s
  have tail : Readable [.token .closeBracket, .line 0, .token .closeBrace] :=
    .append [_, _, _] rfl .nil
  have body : Readable ((if windows.isEmpty then [] else windowPieces windows ++ [Piece.line 2]) ++
      [.token .closeBracket, .line 0, .token .closeBrace]) := by
    split
    · exact tail
    · rw [List.append_assoc]
      exact readable_windowPieces windows rfl (tail.cons rfl)
  rw [pieces, List.append_assoc]
  exact .append [_, _, _, _, _] rfl (.integer version rfl (.append [_, _, _, _, _, _] rfl body))

theorem parse?_encode (s : Snapshot) : parse? s.encode = some s.value :=
  parse?_render s.readable_pieces s.tokens_pieces

/-! ## Reading -/

theorem mapM_windowOfJson? (windows : List WindowId) :
    (windows.map fun w => Value.integer w.toNat).mapM windowOfJson? = some windows := by
  induction windows with
  | nil => rfl
  | cons w rest ih =>
    have bound := w.toNat_lt
    have inRange : NumeralRange.word32.contains (w.toNat : Int) = true := by
      rw [NumeralRange.contains_iff]
      simp only [NumeralRange.word32]
      omega
    have read : windowOfJson? (.integer w.toNat) = some w := by
      simp [windowOfJson?, Value.integer?, inRange]
    rw [List.map_cons, List.mapM_cons, ih, read]
    rfl

theorem ofJson?_value {s : Snapshot}
    (inRange : NumeralRange.word32.contains (s.version : Int) = true) :
    ofJson? s.value = some s := by
  obtain ⟨version, windows⟩ := s
  have fields : (value ⟨version, windows⟩).fields? ["version", "windows"] =
      some [some (.integer version), some (.array (windows.map fun w => .integer w.toNat))] := rfl
  rw [ofJson?, fields]
  simp only [Value.integer?, inRange, Value.items?, Option.bind_eq_bind, Option.bind_some, if_true,
    mapM_windowOfJson?]
  rfl

/-- The windows of an order come back from its snapshot. -/
theorem decode_encode (order : WindowOrder) :
    decode (encode (ofOrder order)) = .ok order.managed := by
  have versioned : ofJson? (ofOrder order).value = some (ofOrder order) :=
    ofJson?_value (show NumeralRange.word32.contains 1 = true by decide)
  rw [decode, parse?_encode, Option.bind_some, versioned]
  rfl

end Succession.Snapshot
