import Succession.Proofs.Channel.ManifestRoundTrip

/-!
# The text of a manifest

A manifest is written only if its paths are text (`writable_of_encode`), and no byte of what is
written is below the space (`le_of_mem_encode`), so it may stand in an environment variable. A
manifest that was read from some text has numbers and paths that can be written, so that it is
written and read again as the same (`encode_of_decode`).
-/

namespace Succession

namespace Json

/-! ## What is written is visible -/

/-- Whether no character is a control character of ASCII's first columns. -/
def IsVisible (text : List Char) : Prop := ∀ c ∈ text, 0x20 ≤ c.toNat

theorem hexChar_visible {n : Nat} (small : n < 16) : 0x20 ≤ (hexChar n).toNat := by
  have all : ∀ n < 16, 0x20 ≤ (hexChar n).toNat := by decide
  exact all n small

theorem isVisible_escape (c : Char) : IsVisible (escape c) := by
  unfold escape
  split
  case h_8 =>
    split
    · next control =>
      have first := hexChar_visible (n := c.toNat / 16) (by omega)
      have second := hexChar_visible (n := c.toNat % 16) (by omega)
      simp [IsVisible, first, second]
    · next visible => simpa [IsVisible] using visible
  all_goals simp [IsVisible]

theorem isVisible_intDigits (n : Int) : IsVisible (Numeral.intDigits n) := by
  have digits : IsVisible (Numeral.natDigits n.natAbs) := fun c member =>
    Nat.le_trans (by omega) (Numeral.digit_of_mem_natDigits n.natAbs c member).1
  rw [Numeral.intDigits]
  split
  · exact List.forall_mem_cons.mpr ⟨by decide, digits⟩
  · exact digits

theorem isVisible_quoted (text : List Char) : IsVisible (quoted text) := by
  intro c member
  rcases List.mem_append.mp member with member | member
  · rcases List.mem_cons.mp member with rfl | member
    · decide
    · obtain ⟨d, _, written⟩ := List.mem_flatMap.mp member
      exact isVisible_escape d c written
  · rw [List.mem_singleton.mp member]
    decide

theorem isVisible_render (t : Token) : IsVisible t.render := by
  cases t with
  | integer n => exact isVisible_intDigits n
  | string text =>
    cases text with
    | none => simp [Token.render, IsVisible]
    | some text => exact isVisible_quoted text
  | boolean b => cases b <;> simp [Token.render, IsVisible]
  | _ => simp [Token.render, IsVisible]

/-- No byte of a visible text is below the space. -/
theorem le_of_mem_encodeChars {text : List Char} (visible : IsVisible text) {b : UInt8}
    (member : b ∈ Utf8.encodeChars text) : 0x20 ≤ b.toNat := by
  obtain ⟨c, found, written⟩ := List.mem_flatMap.mp member
  by_cases ascii : c.toNat < 0x80
  · rw [Utf8.encodeChar_ascii ascii, List.mem_singleton] at written
    rw [written, Utf8.toNat_ofNat_of_lt (by omega)]
    exact visible c found
  · exact Nat.le_trans (by decide) (Utf8.le_of_mem_encodeChar (by omega) written)

end Json

namespace Manifest

open Json

/-! ## Writing -/

/-- What is written of a manifest are tokens and nothing between them. -/
theorem encode_eq_ok {m : Manifest} {text : String} (written : m.encode = .ok text) :
    (∃ tokens, entriesTokens? m.channels = some tokens) ∧
    ∃ all : List Token, text = String.ofList (render (all.map .token)) := by
  unfold encode at written
  split at written
  · cases written
  · next tokens wrote =>
    cases written
    exact ⟨⟨tokens, wrote⟩, _, rfl⟩

/-- The text of a manifest has no byte below the space. -/
theorem le_of_mem_encode {m : Manifest} {text : String} (written : m.encode = .ok text) {b : UInt8}
    (member : b ∈ Bytes.ofString text) : 0x20 ≤ b.toNat := by
  obtain ⟨_, all, rfl⟩ := encode_eq_ok written
  rw [Bytes.ofString, Utf8.encode, String.toList_ofList] at member
  refine le_of_mem_encodeChars (fun c found => ?_) member
  obtain ⟨piece, listed, rendered⟩ := List.mem_flatMap.mp found
  obtain ⟨token, _, rfl⟩ := List.mem_map.mp listed
  exact isVisible_render token c rendered

theorem writable_of_entryTokens? {e : ManifestEntry} {tokens : List Token}
    (written : entryTokens? e = some tokens) : e.IsWritable := by
  intro p path
  obtain ⟨fd, role, origin, path'⟩ := e
  obtain rfl : path' = some p := path
  cases text : Utf8.decode? p.bytes with
  | none => simp [entryTokens?, text] at written
  | some _ => rw [Utf8.isText, text, Option.isSome_some]

theorem writable_of_entriesTokens? {entries : List ManifestEntry} {tokens : List Token}
    (written : entriesTokens? entries = some tokens) : ∀ e ∈ entries, e.IsWritable := by
  induction entries generalizing tokens with
  | nil => exact List.forall_mem_nil _
  | cons e rest ih =>
    -- the last entry is a case apart, as no comma follows it
    cases rest with
    | nil => exact List.forall_mem_singleton.mpr (writable_of_entryTokens? written)
    | cons next rest =>
      rw [entriesTokens?] at written
      · obtain ⟨first, wroteFirst, written⟩ := Option.bind_eq_some_iff.mp written
        obtain ⟨others, wroteOthers, _⟩ := Option.bind_eq_some_iff.mp written
        exact List.forall_mem_cons.mpr ⟨writable_of_entryTokens? wroteFirst, ih wroteOthers⟩
      · exact List.cons_ne_nil next rest

/-- A manifest that was written has only paths that are text. -/
theorem writable_of_encode {m : Manifest} {text : String} (written : m.encode = .ok text) :
    ∀ e ∈ m.channels, e.IsWritable := by
  obtain ⟨⟨tokens, wrote⟩, _⟩ := encode_eq_ok written
  exact writable_of_entriesTokens? wrote

/-! ## Reading -/

theorem contains_of_integer? {range : NumeralRange} {v : Value} {n : Int}
    (read : v.integer? range = some n) : range.contains n = true := by
  cases v with
  | integer k =>
    simp only [Value.integer?] at read
    split at read
    · next inside =>
      cases read
      exact inside
    · cases read
  | _ => cases read

/-- A path that was read is text. -/
theorem isText_of_pathOfJson? {v : Option Value} {path : Option Path}
    (read : pathOfJson? v = some path) : ∀ p ∈ path, Utf8.isText p.bytes = true := by
  unfold pathOfJson? at read
  split at read
  · cases read
    exact nofun
  · cases read
    exact nofun
  · obtain ⟨text, _, rfl⟩ := Option.map_eq_some_iff.mp read
    rintro p ⟨⟩
    rw [Utf8.isText, Utf8.decode?_encodeChars, Option.isSome_some]

/-- An entry that was read can be written. -/
theorem of_entryOfJson? {v : Value} {e : ManifestEntry} (read : entryOfJson? v = some e) :
    e.IsWritable ∧ e.InRange := by
  obtain ⟨fields, _, read⟩ := Option.bind_eq_some_iff.mp read
  split at read
  · obtain ⟨fd, number, read⟩ := Option.bind_eq_some_iff.mp read
    obtain ⟨_, _, read⟩ := Option.bind_eq_some_iff.mp read
    obtain ⟨_, _, read⟩ := Option.bind_eq_some_iff.mp read
    obtain ⟨_, _, read⟩ := Option.bind_eq_some_iff.mp read
    obtain ⟨_, _, read⟩ := Option.bind_eq_some_iff.mp read
    obtain ⟨path, place, read⟩ := Option.bind_eq_some_iff.mp read
    cases read
    exact ⟨isText_of_pathOfJson? place, contains_of_integer? number⟩
  · cases read

theorem of_mapM_entryOfJson? {values : List Value} {entries : List ManifestEntry}
    (read : values.mapM entryOfJson? = some entries) :
    ∀ e ∈ entries, e.IsWritable ∧ e.InRange := by
  induction values generalizing entries with
  | nil =>
    cases read
    exact nofun
  | cons v rest ih =>
    rw [List.mapM_cons] at read
    obtain ⟨first, readFirst, read⟩ := Option.bind_eq_some_iff.mp read
    obtain ⟨others, readOthers, read⟩ := Option.bind_eq_some_iff.mp read
    cases read
    exact List.forall_mem_cons.mpr ⟨of_entryOfJson? readFirst, ih readOthers⟩

/-- The entries of a manifest that was read can be written. -/
theorem of_decode {raw : String} {m : Manifest} (read : decode raw = .ok m) :
    ∀ e ∈ m.channels, e.IsWritable ∧ e.InRange := by
  unfold decode at read
  split at read
  · next found =>
    cases read
    obtain ⟨v, _, found⟩ := Option.bind_eq_some_iff.mp found
    obtain ⟨fields, _, found⟩ := Option.bind_eq_some_iff.mp found
    split at found
    · obtain ⟨items, _, found⟩ := Option.bind_eq_some_iff.mp found
      obtain ⟨entries, mapped, found⟩ := Option.bind_eq_some_iff.mp found
      cases found
      exact of_mapM_entryOfJson? mapped
    · cases found
  · cases read

/-- A manifest that was read is written, and read again as the same, whatever text it came from. -/
theorem encode_of_decode {raw : String} {m : Manifest} (read : decode raw = .ok m) :
    ∃ text, m.encode = .ok text ∧ decode text = .ok m := by
  have sound := of_decode read
  obtain ⟨text, written⟩ := encode_ok fun e member => (sound e member).1
  exact ⟨text, written,
    decode_encode (fun e member => (sound e member).1) (fun e member => (sound e member).2) written⟩

end Manifest

end Succession
