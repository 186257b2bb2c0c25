import Mathlib.Tactic.SplitIfs
import Succession.Text.Utf8

/-!
# What is written as UTF-8 is read back

`decode?_encode`: text is read back from its bytes. `encode_of_decode?`: bytes that are text are
the bytes of that text, so no two byte sequences spell the same one. Both rest on the number of a
lead byte (`sequenceLength_eq`) and on which numbers may follow it (`follows_iff`).
-/

namespace Succession.Utf8

/-! ## Single bytes -/

theorem toNat_ofNat_of_lt {n : Nat} (small : n < 256) : (UInt8.ofNat n).toNat = n := by
  simp [Nat.mod_eq_of_lt small]

theorem toNat_continuation (n : Nat) : (continuation n).toNat = 0x80 + n % 0x40 :=
  toNat_ofNat_of_lt (by omega)

theorem isContinuation_iff (b : UInt8) :
    isContinuation b = true ↔ 0x80 ≤ b.toNat ∧ b.toNat < 0xC0 := by
  simp [isContinuation, UInt8.le_iff_toNat_le, UInt8.lt_iff_toNat_lt]

theorem isContinuation_continuation (n : Nat) : isContinuation (continuation n) = true := by
  rw [isContinuation_iff, toNat_continuation]
  omega

theorem payload_continuation (n : Nat) : payload (continuation n) = n % 0x40 := by
  rw [payload, toNat_continuation]
  omega

/-- What a byte begins, by its number. -/
theorem sequenceLength_eq (lead : UInt8) : sequenceLength lead =
    if lead.toNat < 0x80 then 1 else if lead.toNat < 0xC2 then 0 else if lead.toNat < 0xE0 then 2
    else if lead.toNat < 0xF0 then 3 else if lead.toNat < 0xF5 then 4 else 0 := rfl

/-- Which bytes may stand second, by their numbers. -/
theorem follows_iff (lead b : UInt8) : follows lead b = true ↔
    0x80 ≤ b.toNat ∧ b.toNat < 0xC0 ∧ (lead.toNat = 0xE0 → 0xA0 ≤ b.toNat) ∧
      (lead.toNat = 0xED → b.toNat < 0xA0) ∧ (lead.toNat = 0xF0 → 0x90 ≤ b.toNat) ∧
      (lead.toNat = 0xF4 → b.toNat < 0x90) := by
  have named (k : UInt8) : lead = k ↔ lead.toNat = k.toNat := UInt8.toNat_inj.symm
  simp only [follows, isContinuation, named, UInt8.le_iff_toNat_le, UInt8.lt_iff_toNat_lt,
    UInt8.reduceToNat]
  split_ifs <;> simp <;> omega

/-! ## From text to bytes and back -/

theorem char_bounds (c : Char) : c.toNat < 0xD800 ∨ (0xE000 ≤ c.toNat ∧ c.toNat < 0x110000) := by
  have valid := c.valid
  simp only [UInt32.isValidChar, Nat.isValidChar] at valid
  have same : c.toNat = c.val.toNat := rfl
  omega

/-- A character is the first part of what begins with its bytes. -/
theorem pieces_encodeChar_append (c : Char) (rest : Bytes) :
    pieces (encodeChar c ++ rest) = some c :: pieces rest := by
  have bounds := char_bounds c
  have back {n : Nat} (h : n = c.toNat) : Char.ofNat n = c := h ▸ Char.ofNat_toNat c
  unfold encodeChar
  simp only
  split_ifs with one two three
  · have lead := toNat_ofNat_of_lt (n := c.toNat) (by omega)
    have length : sequenceLength (UInt8.ofNat c.toNat) = 1 := by
      rw [sequenceLength_eq, lead, if_pos one]
    simp only [List.cons_append, List.nil_append]
    rw [pieces.eq_def]
    simp only [length, back lead]
  · have lead := toNat_ofNat_of_lt (n := 0xC0 + c.toNat / 0x40) (by omega)
    have length : sequenceLength (UInt8.ofNat (0xC0 + c.toNat / 0x40)) = 2 := by
      rw [sequenceLength_eq, lead]
      split_ifs <;> omega
    have second : follows (UInt8.ofNat (0xC0 + c.toNat / 0x40)) (continuation c.toNat) = true := by
      rw [follows_iff, lead, toNat_continuation]
      omega
    simp only [List.cons_append, List.nil_append]
    rw [pieces.eq_def]
    simp only [length, second, if_true, lead, payload_continuation]
    rw [back (by omega)]
  · have lead := toNat_ofNat_of_lt (n := 0xE0 + c.toNat / 0x1000) (by omega)
    have length : sequenceLength (UInt8.ofNat (0xE0 + c.toNat / 0x1000)) = 3 := by
      rw [sequenceLength_eq, lead]
      split_ifs <;> omega
    have second :
        follows (UInt8.ofNat (0xE0 + c.toNat / 0x1000)) (continuation (c.toNat / 0x40)) = true := by
      rw [follows_iff, lead, toNat_continuation]
      omega
    simp only [List.cons_append, List.nil_append]
    rw [pieces.eq_def]
    simp only [length, second, if_true, lead, isContinuation_continuation, payload_continuation]
    rw [back (by omega)]
  · have lead := toNat_ofNat_of_lt (n := 0xF0 + c.toNat / 0x40000) (by omega)
    have length : sequenceLength (UInt8.ofNat (0xF0 + c.toNat / 0x40000)) = 4 := by
      rw [sequenceLength_eq, lead]
      split_ifs <;> omega
    have second :
        follows (UInt8.ofNat (0xF0 + c.toNat / 0x40000)) (continuation (c.toNat / 0x1000)) =
          true := by
      rw [follows_iff, lead, toNat_continuation]
      omega
    simp only [List.cons_append, List.nil_append]
    rw [pieces.eq_def]
    simp only [length, second, if_true, lead, isContinuation_continuation, payload_continuation]
    rw [back (by omega)]

theorem encodeChars_cons (c : Char) (text : List Char) :
    encodeChars (c :: text) = encodeChar c ++ encodeChars text := List.flatMap_cons

theorem pieces_encodeChars_append (text : List Char) (rest : Bytes) :
    pieces (encodeChars text ++ rest) = text.map some ++ pieces rest := by
  induction text with
  | nil => rfl
  | cons c text ih =>
    rw [encodeChars, List.flatMap_cons, List.append_assoc, pieces_encodeChar_append]
    exact congrArg (some c :: ·) ih

theorem mapM_id_map_some {α : Type} (l : List α) : (l.map some).mapM id = some l := by
  induction l with
  | nil => rfl
  | cons a l ih =>
    rw [List.map_cons, List.mapM_cons, ih]
    rfl

theorem pieces_encodeChars (text : List Char) : pieces (encodeChars text) = text.map some := by
  have whole := pieces_encodeChars_append text []
  rwa [List.append_nil, pieces, List.append_nil] at whole

theorem decode?_encodeChars (text : List Char) :
    decode? (encodeChars text) = some (String.ofList text) := by
  rw [decode?, pieces_encodeChars, mapM_id_map_some]
  rfl

/-- Text is read back from its bytes. -/
theorem decode?_encode (text : String) : decode? (encode text) = some text := by
  rw [encode, decode?_encodeChars, String.ofList_toList]

theorem lossy_encode (text : String) : lossy (encode text) = text := by
  rw [lossy, encode, pieces_encodeChars, List.map_map]
  simp [Function.comp_def]

/-! ## From bytes to text and back -/

theorem toNat_ofNat_of_valid {n : Nat} (valid : n < 0xD800 ∨ (0xE000 ≤ n ∧ n < 0x110000)) :
    (Char.ofNat n).toNat = n := by
  unfold Char.ofNat
  rw [dif_pos]
  · rfl
  · simp only [Nat.isValidChar]
    omega

theorem ofNat_eq (b : UInt8) {n : Nat} (h : b.toNat = n) : UInt8.ofNat n = b := by
  rw [← h, UInt8.ofNat_toNat]

theorem continuation_eq (b : UInt8) {n : Nat} (h : b.toNat = 0x80 + n % 0x40) :
    continuation n = b := ofNat_eq b h

theorem encodeChar_single {a : UInt8} (lead : sequenceLength a = 1) :
    encodeChar (Char.ofNat a.toNat) = [a] := by
  rw [sequenceLength_eq] at lead
  have small : a.toNat < 0x80 := by split_ifs at lead <;> omega
  have code := toNat_ofNat_of_valid (n := a.toNat) (by omega)
  simp only [encodeChar, code, if_pos small, UInt8.ofNat_toNat]

theorem encodeChar_pair {a b : UInt8} (lead : sequenceLength a = 2) (second : follows a b = true) :
    encodeChar (Char.ofNat (a.toNat % 0x20 * 0x40 + payload b)) = [a, b] := by
  rw [sequenceLength_eq] at lead
  have range : 0xC2 ≤ a.toNat ∧ a.toNat < 0xE0 := by split_ifs at lead <;> omega
  have low := (follows_iff a b).mp second
  simp only [payload]
  have code := toNat_ofNat_of_valid (n := a.toNat % 0x20 * 0x40 + b.toNat % 0x40) (by omega)
  simp only [encodeChar, code]
  rw [if_neg (by omega), if_pos (by omega), ofNat_eq a (by omega), continuation_eq b (by omega)]

theorem encodeChar_triple {a b c : UInt8} (lead : sequenceLength a = 3)
    (second : follows a b = true) (third : isContinuation c = true) :
    encodeChar (Char.ofNat (a.toNat % 0x10 * 0x1000 + payload b * 0x40 + payload c)) =
      [a, b, c] := by
  rw [sequenceLength_eq] at lead
  have range : 0xE0 ≤ a.toNat ∧ a.toNat < 0xF0 := by split_ifs at lead <;> omega
  have low := (follows_iff a b).mp second
  have last := (isContinuation_iff c).mp third
  simp only [payload]
  have code := toNat_ofNat_of_valid
    (n := a.toNat % 0x10 * 0x1000 + b.toNat % 0x40 * 0x40 + c.toNat % 0x40) (by omega)
  simp only [encodeChar, code]
  rw [if_neg (by omega), if_neg (by omega), if_pos (by omega), ofNat_eq a (by omega),
    continuation_eq b (by omega), continuation_eq c (by omega)]

theorem encodeChar_quadruple {a b c d : UInt8} (lead : sequenceLength a = 4)
    (second : follows a b = true) (third : isContinuation c = true)
    (fourth : isContinuation d = true) :
    encodeChar (Char.ofNat (a.toNat % 8 * 0x40000 + payload b * 0x1000 + payload c * 0x40
      + payload d)) = [a, b, c, d] := by
  rw [sequenceLength_eq] at lead
  have range : 0xF0 ≤ a.toNat ∧ a.toNat < 0xF5 := by split_ifs at lead <;> omega
  have low := (follows_iff a b).mp second
  have next := (isContinuation_iff c).mp third
  have last := (isContinuation_iff d).mp fourth
  simp only [payload]
  have code := toNat_ofNat_of_valid (n := a.toNat % 8 * 0x40000 + b.toNat % 0x40 * 0x1000
    + c.toNat % 0x40 * 0x40 + d.toNat % 0x40) (by omega)
  simp only [encodeChar, code]
  rw [if_neg (by omega), if_neg (by omega), if_neg (by omega), ofNat_eq a (by omega),
    continuation_eq b (by omega), continuation_eq c (by omega), continuation_eq d (by omega)]

theorem of_cons_eq_map_some {α : Type} {x : Option α} {xs : List (Option α)} {l : List α}
    (h : x :: xs = l.map some) : ∃ a l', x = some a ∧ l = a :: l' ∧ xs = l'.map some := by
  cases l with
  | nil => cases h
  | cons a l' =>
    rw [List.map_cons, List.cons.injEq] at h
    exact ⟨a, l', h.1, rfl, h.2⟩

/-- Bytes without an ill-formed part are those of their characters. -/
theorem encodeChars_of_pieces {bytes : Bytes} {text : List Char}
    (whole : pieces bytes = text.map some) : encodeChars text = bytes := by
  fun_induction pieces bytes generalizing text with
  | case1 =>
    rw [List.map_eq_nil_iff.mp whole.symm]
    rfl
  | case2 a rest lead ih =>
    obtain ⟨c, text, found, rfl, others⟩ := of_cons_eq_map_some whole
    cases found
    rw [encodeChars_cons, encodeChar_single lead, ih others, List.singleton_append]
  | case3 a lead b rest second ih =>
    obtain ⟨c, text, found, rfl, others⟩ := of_cons_eq_map_some whole
    cases found
    rw [encodeChars_cons, encodeChar_pair lead second, ih others]
    rfl
  | case6 a lead b c rest second third ih =>
    obtain ⟨code, text, found, rfl, others⟩ := of_cons_eq_map_some whole
    cases found
    rw [encodeChars_cons, encodeChar_triple lead second third, ih others]
    rfl
  | case12 a lead b c d rest second third fourth ih =>
    obtain ⟨code, text, found, rfl, others⟩ := of_cons_eq_map_some whole
    cases found
    rw [encodeChars_cons, encodeChar_quadruple lead second third fourth, ih others]
    rfl
  | _ =>
    obtain ⟨_, _, impossible, _⟩ := of_cons_eq_map_some whole
    cases impossible

theorem eq_map_some_of_mapM_id {α : Type} {l : List (Option α)} {l' : List α}
    (h : l.mapM id = some l') : l = l'.map some := by
  induction l generalizing l' with
  | nil =>
    cases h
    rfl
  | cons x l ih =>
    simp only [List.mapM_cons, id, Option.bind_eq_bind, Option.bind_eq_some_iff] at h
    obtain ⟨a, rfl, others, rest, same⟩ := h
    cases same
    rw [List.map_cons, ih rest]

/-- Text that was read strictly is written as the bytes it was read from. -/
theorem encode_of_decode? {bytes : Bytes} {text : String} (h : decode? bytes = some text) :
    encode text = bytes := by
  obtain ⟨chars, found, same⟩ := Option.map_eq_some_iff.mp h
  rw [encode, ← same, String.toList_ofList]
  exact encodeChars_of_pieces (eq_map_some_of_mapM_id found)

theorem isText_iff (bytes : Bytes) : isText bytes = true ↔ ∃ text, bytes = encode text := by
  rw [isText, Option.isSome_iff_exists]
  constructor
  · rintro ⟨text, read⟩
    exact ⟨text, (encode_of_decode? read).symm⟩
  · rintro ⟨text, rfl⟩
    exact ⟨text, decode?_encode text⟩

/-! ## Bytes of characters -/

theorem encodeChars_append (a b : List Char) :
    encodeChars (a ++ b) = encodeChars a ++ encodeChars b := List.flatMap_append

theorem encodeChar_ascii {c : Char} (small : c.toNat < 0x80) :
    encodeChar c = [UInt8.ofNat c.toNat] := by
  simp only [encodeChar, if_pos small]

theorem encodeChars_ascii {text : List Char} (small : ∀ c ∈ text, c.toNat < 0x80) :
    encodeChars text = text.map fun c => UInt8.ofNat c.toNat := by
  induction text with
  | nil => rfl
  | cons c text ih =>
    rw [encodeChars_cons, encodeChar_ascii (small c (by simp)),
      ih fun d member => small d (List.mem_cons_of_mem _ member)]
    rfl

/-- A byte of a character beyond ASCII is none of ASCII's. -/
theorem le_of_mem_encodeChar {c : Char} {b : UInt8} (large : 0x80 ≤ c.toNat)
    (member : b ∈ encodeChar c) : 0x80 ≤ b.toNat := by
  have bounds := char_bounds c
  have lead (n m : Nat) (fits : n + m < 256) : (UInt8.ofNat (n + m)).toNat = n + m :=
    toNat_ofNat_of_lt fits
  have continued (n : Nat) : 0x80 ≤ (continuation n).toNat := by
    rw [toNat_continuation]
    omega
  simp only [encodeChar, if_neg (Nat.not_lt.mpr large)] at member
  split_ifs at member with two three
  · simp only [List.mem_cons, List.not_mem_nil, or_false] at member
    rcases member with rfl | rfl
    · rw [lead _ _ (by omega)]
      omega
    · exact continued _
  · simp only [List.mem_cons, List.not_mem_nil, or_false] at member
    rcases member with rfl | rfl | rfl
    · rw [lead _ _ (by omega)]
      omega
    · exact continued _
    · exact continued _
  · simp only [List.mem_cons, List.not_mem_nil, or_false] at member
    rcases member with rfl | rfl | rfl | rfl
    · rw [lead _ _ (by omega)]
      omega
    · exact continued _
    · exact continued _
    · exact continued _

theorem encodeChars_length (text : List Char) : text.length ≤ (encodeChars text).length := by
  induction text with
  | nil => simp
  | cons c text ih =>
    have first : 0 < (encodeChar c).length := by
      unfold encodeChar
      simp only
      split_ifs <;> simp
    rw [encodeChars_cons, List.length_append, List.length_cons]
    omega

/-- The bytes of a character that was read are among those that it was read from. -/
theorem encodeChar_subset_of_mem_pieces {bytes : Bytes} {c : Char}
    (member : some c ∈ pieces bytes) : encodeChar c ⊆ bytes := by
  fun_induction pieces bytes with
  | case1 => cases member
  | case2 a rest lead ih =>
    rcases List.mem_cons.mp member with here | later
    · cases here
      rw [encodeChar_single lead]
      exact List.cons_subset_cons a (List.nil_subset rest)
    · exact List.Subset.trans (ih later) (List.subset_cons_self a rest)
  | case3 a lead b rest second ih =>
    rcases List.mem_cons.mp member with here | later
    · cases here
      rw [encodeChar_pair lead second]
      exact (List.prefix_append [a, b] rest).subset
    · exact List.Subset.trans (ih later) (List.suffix_append [a, b] rest).subset
  | case6 a lead b c rest second third ih =>
    rcases List.mem_cons.mp member with here | later
    · cases here
      rw [encodeChar_triple lead second third]
      exact (List.prefix_append [a, b, c] rest).subset
    · exact List.Subset.trans (ih later) (List.suffix_append [a, b, c] rest).subset
  | case12 a lead b c d rest second third fourth ih =>
    rcases List.mem_cons.mp member with here | later
    · cases here
      rw [encodeChar_quadruple lead second third fourth]
      exact (List.prefix_append [a, b, c, d] rest).subset
    · exact List.Subset.trans (ih later) (List.suffix_append [a, b, c, d] rest).subset
  | _ =>
    -- An ill-formed part gives no character.
    grind

end Succession.Utf8
