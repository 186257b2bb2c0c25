import Succession.Text.Numeral

/-!
# The digits of a number

`natDigits` writes digits only (`digit_of_mem_natDigits`), no needless zero
(`natDigits_eq_zero_cons`), and the number they stand for is the one that was written
(`value_natDigits`).
-/

namespace Succession

theorem NumeralRange.contains_iff (range : NumeralRange) (n : Int) :
    range.contains n = true ↔ range.low ≤ n ∧ n ≤ range.high := by
  simp [NumeralRange.contains]

namespace Numeral

theorem toNat_digitChar {d : Nat} (small : d < 10) : (Char.ofNat (48 + d)).toNat = 48 + d := by
  have all : ∀ d < 10, (Char.ofNat (48 + d)).toNat = 48 + d := by decide
  exact all d small

theorem natDigits_of_lt {n : Nat} (small : n < 10) : natDigits n = [Char.ofNat (48 + n)] := by
  rw [natDigits, if_pos small]

theorem natDigits_of_le {n : Nat} (large : 10 ≤ n) :
    natDigits n = natDigits (n / 10) ++ [Char.ofNat (48 + n % 10)] := by
  rw [natDigits, if_neg (by omega)]

theorem natDigits_ne_nil (n : Nat) : natDigits n ≠ [] := by
  rw [natDigits]
  split <;> simp

theorem digit_of_mem_natDigits (n : Nat) :
    ∀ c ∈ natDigits n, 48 ≤ c.toNat ∧ c.toNat < 58 := by
  induction n using Nat.strongRecOn with
  | ind n ih =>
    intro c member
    by_cases small : n < 10
    · rw [natDigits_of_lt small, List.mem_singleton] at member
      rw [member, toNat_digitChar small]
      omega
    · rw [natDigits_of_le (by omega), List.mem_append, List.mem_singleton] at member
      rcases member with member | rfl
      · exact ih (n / 10) (by omega) c member
      · rw [toNat_digitChar (by omega)]
        omega

/-- The number that digits stand for, read onto `n`. -/
def valueOnto (n : Nat) (digits : List Char) : Nat :=
  digits.foldl (fun n c => n * 10 + (c.toNat - 48)) n

theorem value_natDigits (n : Nat) : valueOnto 0 (natDigits n) = n := by
  induction n using Nat.strongRecOn with
  | ind n ih =>
    by_cases small : n < 10
    · rw [natDigits_of_lt small]
      simp [valueOnto, toNat_digitChar small]
    · have shorter := ih (n / 10) (by omega)
      rw [natDigits_of_le (by omega), valueOnto, List.foldl_append]
      rw [valueOnto] at shorter
      rw [shorter, List.foldl_cons, List.foldl_nil, toNat_digitChar (by omega)]
      omega

/-- A zero in front is the only digit. -/
theorem natDigits_eq_zero_cons {n : Nat} {digits : List Char}
    (h : natDigits n = '0' :: digits) : digits = [] := by
  induction n using Nat.strongRecOn generalizing digits with
  | ind n ih =>
    by_cases small : n < 10
    · rw [natDigits_of_lt small] at h
      exact (List.cons.inj h).2.symm
    · rw [natDigits_of_le (by omega)] at h
      cases front : natDigits (n / 10) with
      | nil => exact absurd front (natDigits_ne_nil _)
      | cons c before =>
        rw [front, List.cons_append, List.cons.injEq] at h
        rw [h.1] at front
        have alone := ih (n / 10) (by omega) front
        have value := value_natDigits (n / 10)
        rw [front, alone] at value
        simp [valueOnto] at value
        omega

end Numeral

end Succession
