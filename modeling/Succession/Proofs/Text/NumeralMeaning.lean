import Succession.Proofs.Text.NumeralReading

/-!
# What a numeral denotes

Without a sign or behind a plus, digits denote the number that they stand for (`Denotes`). In a
range from zero on these are all numerals there are: a text is read as a number exactly if it
denotes that number and the number is in the range (`read_eq_ok`).
-/

namespace Succession.Numeral

variable {range : NumeralRange} {text digits : List Char}

/-- A text is digits, at least one, with or without a plus in front, and they stand for a number. -/
def Denotes (text : List Char) (n : Int) : Prop :=
  ∃ digits, (text = digits ∨ text = '+' :: digits) ∧ digits ≠ [] ∧ (∀ c ∈ digits, IsDigit c) ∧
    n = valueOnto 0 digits

theorem isDigit_of_digit? {c : Char} {d : Nat} (digit : digit? c = some d) :
    IsDigit c ∧ d = c.toNat - 48 := by
  rw [digit?] at digit
  split at digit
  · next bounds =>
    simp only [Char.le_def, UInt32.le_iff_toNat_le] at bounds
    exact ⟨⟨bounds.1, Nat.lt_succ_of_le bounds.2⟩, (Option.some.inj digit).symm⟩
  · cases digit

/-- What is read as a number is digits that stand for it, and it is in the range. -/
theorem of_readDigits {n : Nat} {v : Int} (done : readDigits range false n digits = .ok v) :
    (∀ c ∈ digits, IsDigit c) ∧ v = valueOnto n digits ∧ (digits ≠ [] → v ≤ range.high) := by
  induction digits generalizing n with
  | nil =>
    cases done
    exact ⟨nofun, rfl, fun some => absurd rfl some⟩
  | cons c rest ih =>
    rw [readDigits] at done
    split at done
    · cases done
    next d digit =>
    obtain ⟨isDigit, rfl⟩ := isDigit_of_digit? digit
    have next : (n : Int) * 10 + ((c.toNat - 48 : Nat) : Int) =
        ((n * 10 + (c.toNat - 48) : Nat) : Int) := by push_cast; rfl
    simp only [Bool.false_eq_true, if_false, next] at done
    split at done
    · next within =>
      obtain ⟨all, value, bounded⟩ := ih done
      refine ⟨List.forall_mem_cons.mpr ⟨isDigit, all⟩, value, fun _ => ?_⟩
      cases rest with
      | nil =>
        cases done
        exact within
      | cons d rest => exact bounded (List.cons_ne_nil d rest)
    · cases done

/-- In a range from zero on, a text is read as the number that it denotes, if that is in the
range. -/
theorem read_eq_ok (unsigned : range.low = 0) {n : Int} :
    read range text = .ok n ↔ Denotes text n ∧ n ≤ range.high := by
  constructor
  · intro done
    unfold read at done
    split at done
    · cases done
    · cases done
    · cases done
    · next digits notAlone =>
      have some : digits ≠ [] := fun none => notAlone none
      obtain ⟨all, value, bounded⟩ := of_readDigits done
      exact ⟨⟨digits, .inr rfl, some, all, value⟩, bounded some⟩
    · simp [unsigned] at done
    · next some _ _ _ _ =>
      have nonempty : text ≠ [] := fun none => some none
      obtain ⟨all, value, bounded⟩ := of_readDigits done
      exact ⟨⟨text, .inl rfl, nonempty, all, value⟩, bounded nonempty⟩
  · rintro ⟨⟨digits, spelled, some, all, rfl⟩, bounded⟩
    have done : readDigits range false 0 digits = .ok (valueOnto 0 digits) :=
      readDigits_eq_ok all bounded
    rcases spelled with rfl | rfl
    · rw [read_of_digits some all, done]
    · obtain ⟨c, rest, rfl⟩ := List.exists_cons_of_ne_nil some
      exact done

end Succession.Numeral
