import Succession.Channel.Manifest
import Succession.Proofs.Json.Reading

/-!
# A manifest is read back as it was written

A manifest can be written if every path in it is text (`encode_ok`). What was written is read back
entry by entry, in the same order (`decode_encode`), as long as the descriptors are numbers that a
descriptor can have.
-/

namespace Succession

theorem Role.ofWord?_word (role : Role) : Role.ofWord? role.word.toList = some role := by
  cases role <;> decide

theorem Provenance.ofWord?_word (origin : Provenance) :
    Provenance.ofWord? origin.word.toList = some origin := by
  cases origin <;> decide

/-- Whether an entry's descriptor is a number that a descriptor can have. -/
def ManifestEntry.InRange (e : ManifestEntry) : Prop := NumeralRange.int32.contains e.fd = true

/-- Whether an entry can be written: its path, if it has one, is text. -/
def ManifestEntry.IsWritable (e : ManifestEntry) : Prop :=
  ∀ p ∈ e.path, Utf8.isText p.bytes = true

instance (e : ManifestEntry) : Decidable e.InRange := inferInstanceAs (Decidable (_ = true))

instance (e : ManifestEntry) : Decidable e.IsWritable :=
  inferInstanceAs (Decidable (∀ p ∈ e.path, _))

namespace Manifest

open Json

/-! ## Writing -/

/-- The JSON value that an entry is written as. -/
def entryValue (e : ManifestEntry) : Value :=
  .object ([(some "fd".toList, .integer e.fd), (some "role".toList, .string e.role.word.toList),
    (some "origin".toList, .string e.origin.word.toList)] ++
    match e.path with
    | none => []
    | some p => [(some "path".toList, .string ((Utf8.decode? p.bytes).map String.toList))])

/-- What is written for an entry are the tokens of its value. -/
theorem entryTokens?_some {e : ManifestEntry} {tokens : List Token}
    (written : entryTokens? e = some tokens) :
    tokens = (entryValue e).tokens ∧ Readable (tokens.map .token) := by
  obtain ⟨fd, role, origin, path⟩ := e
  cases path with
  | none =>
    cases written
    refine ⟨rfl, ?_⟩
    exact .append [_, _, _] rfl (.integer fd rfl (.append [_, _, _, _, _, _, _, _, _] rfl .nil))
  | some p =>
    cases text : Utf8.decode? p.bytes with
    | none => simp [entryTokens?, text] at written
    | some text' =>
      simp only [entryTokens?, text, Option.map_some, Option.bind_eq_bind, Option.bind_some,
        Option.pure_def, Option.some.injEq] at written
      subst written
      refine ⟨?_, ?_⟩
      · simp only [entryValue, text]
        rfl
      · exact .append [_, _, _] rfl (.integer fd rfl
          (.append [_, _, _, _, _, _, _, _, _, _, _, _, _] rfl .nil))

theorem entryTokens?_isSome {e : ManifestEntry} (writable : e.IsWritable) :
    ∃ tokens, entryTokens? e = some tokens := by
  obtain ⟨fd, role, origin, path⟩ := e
  cases path with
  | none => exact ⟨_, rfl⟩
  | some p =>
    obtain ⟨text, read⟩ := Option.isSome_iff_exists.mp (writable p rfl)
    exact ⟨_, by simp only [entryTokens?, read]; rfl⟩

theorem entriesTokens?_some {entries : List ManifestEntry} {tokens : List Token}
    (written : entriesTokens? entries = some tokens) :
    tokens = separated (itemTokens (entries.map entryValue)) ∧ Readable (tokens.map .token) := by
  induction entries generalizing tokens with
  | nil =>
    cases written
    exact ⟨rfl, .nil⟩
  | cons e rest ih =>
    cases rest with
    | nil => exact entryTokens?_some written
    | cons next rest =>
      rw [entriesTokens?] at written
      · obtain ⟨first, wroteFirst, written⟩ := Option.bind_eq_some_iff.mp written
        obtain ⟨others, wroteOthers, written⟩ := Option.bind_eq_some_iff.mp written
        cases written
        obtain ⟨sameFirst, readableFirst⟩ := entryTokens?_some wroteFirst
        obtain ⟨sameOthers, readableOthers⟩ := ih wroteOthers
        rw [List.append_assoc, List.map_append]
        refine ⟨?_, readableFirst.append_cons rfl readableOthers⟩
        rw [sameFirst, sameOthers]
        rfl
      · exact nofun

theorem entriesTokens?_isSome {entries : List ManifestEntry}
    (writable : ∀ e ∈ entries, e.IsWritable) : ∃ tokens, entriesTokens? entries = some tokens := by
  induction entries with
  | nil => exact ⟨[], rfl⟩
  | cons e rest ih =>
    obtain ⟨first, wroteFirst⟩ := entryTokens?_isSome (writable e List.mem_cons_self)
    obtain ⟨others, wroteOthers⟩ := ih fun d member => writable d (List.mem_cons_of_mem _ member)
    cases rest with
    | nil => exact ⟨first, wroteFirst⟩
    | cons next rest =>
      rw [entriesTokens?]
      · exact ⟨_, by simp only [wroteFirst, wroteOthers]; rfl⟩
      · exact nofun

/-- A manifest can be written if the paths in it are text. -/
theorem encode_ok {m : Manifest} (writable : ∀ e ∈ m.channels, e.IsWritable) :
    ∃ text, m.encode = .ok text := by
  obtain ⟨tokens, written⟩ := entriesTokens?_isSome writable
  rw [encode, written]
  exact ⟨_, rfl⟩

/-! ## Reading -/

/-- A value that is an entry's is read as the entry. -/
theorem entryOfJson?_entryValue {e : ManifestEntry} (writable : e.IsWritable)
    (inRange : e.InRange) : entryOfJson? (entryValue e) = some e := by
  obtain ⟨fd, role, origin, path⟩ := e
  have number : (Value.integer fd).integer? .int32 = some fd := if_pos inRange
  cases path with
  | none =>
    have fields : (entryValue ⟨fd, role, origin, none⟩).fields? ["fd", "role", "origin", "path"] =
        some [some (.integer fd), some (.string role.word.toList),
          some (.string origin.word.toList), none] := rfl
    rw [entryOfJson?, fields]
    simp [number, Value.word?, Role.ofWord?_word, Provenance.ofWord?_word, pathOfJson?]
  | some p =>
    obtain ⟨text, read⟩ := Option.isSome_iff_exists.mp (writable p rfl)
    have bytes : Utf8.encodeChars text.toList = p.bytes := Utf8.encode_of_decode? read
    have fields : (entryValue ⟨fd, role, origin, some p⟩).fields?
        ["fd", "role", "origin", "path"] =
        some [some (.integer fd), some (.string role.word.toList),
          some (.string origin.word.toList), some (.string text.toList)] := by
      simp only [entryValue, read]
      rfl
    rw [entryOfJson?, fields]
    simp [number, Value.word?, Role.ofWord?_word, Provenance.ofWord?_word, pathOfJson?,
      Value.text?, bytes]

theorem mapM_entryOfJson? {entries : List ManifestEntry}
    (writable : ∀ e ∈ entries, e.IsWritable) (inRange : ∀ e ∈ entries, e.InRange) :
    (entries.map entryValue).mapM entryOfJson? = some entries := by
  induction entries with
  | nil => rfl
  | cons e rest ih =>
    have others := ih (fun d member => writable d (List.mem_cons_of_mem _ member))
      fun d member => inRange d (List.mem_cons_of_mem _ member)
    rw [List.map_cons, List.mapM_cons, entryOfJson?_entryValue (writable e List.mem_cons_self)
      (inRange e List.mem_cons_self), others]
    rfl

/-- What was written as a manifest is read back as that manifest. -/
theorem decode_encode {m : Manifest} (writable : ∀ e ∈ m.channels, e.IsWritable)
    (inRange : ∀ e ∈ m.channels, e.InRange) {text : String} (written : m.encode = .ok text) :
    decode text = .ok m := by
  obtain ⟨tokens, wrote⟩ := entriesTokens?_isSome writable
  obtain ⟨same, readable⟩ := entriesTokens?_some wrote
  simp only [encode, wrote, Except.ok.injEq] at written
  let entries := m.channels.map entryValue
  let v : Value := .object [(some "channels".toList, .array entries)]
  have spelled : ([.openBrace, .word "channels", .colon, .openBracket] ++ tokens ++
      [.closeBracket, .closeBrace]) = v.tokens := by
    rw [same, List.append_assoc]
    simp [v, entries, Value.tokens, memberTokens, separated, Token.word]
  have whole : Readable (v.tokens.map .token) := by
    rw [← spelled, List.append_assoc, List.map_append, List.map_append]
    exact .append _ rfl (readable.append_cons rfl (.append [_] rfl .nil))
  have parsed : parse? (Bytes.ofString text) = some v := by
    rw [← written, Bytes.ofString, Utf8.encode, String.toList_ofList, spelled]
    refine parse?_render whole ?_
    rw [List.filterMap_map]
    exact List.filterMap_some
  have fields : v.fields? ["channels"] = some [some (.array entries)] := rfl
  have read : ofJson? v = some m := by
    rw [ofJson?, fields]
    simp only [Option.bind_eq_bind, Option.bind_some, Value.items?, entries,
      mapM_entryOfJson? writable inRange]
    rfl
  simp only [decode, parsed, Option.bind_some, read]

end Manifest

end Succession
