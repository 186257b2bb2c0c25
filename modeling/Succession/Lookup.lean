/-!
# Looking a key up in a list of pairs

Where the pairs with one key are left out, that key is not found, and every other is found as
before. Where each key occurs once, what is found is what stands in the list.
-/

namespace Succession

variable {κ ν : Type} [DecidableEq κ] [BEq κ] [LawfulBEq κ]

theorem lookup_filter_ne (pairs : List (κ × ν)) {key other : κ} (h : other ≠ key) :
    (pairs.filter fun p => p.1 ≠ key).lookup other = pairs.lookup other := by
  induction pairs with
  | nil => rfl
  | cons p rest ih =>
    obtain ⟨k, value⟩ := p
    by_cases hk : k = key
    · have differs : (other == k) = false := by simpa [hk] using h
      simpa [hk, List.lookup_cons, hk ▸ differs] using ih
    · by_cases ho : other == k
      · simp [hk, List.lookup_cons, ho]
      · simpa [hk, List.lookup_cons, ho] using ih

theorem lookup_filter_self (pairs : List (κ × ν)) (key : κ) :
    (pairs.filter fun p => p.1 ≠ key).lookup key = none := by
  induction pairs with
  | nil => rfl
  | cons p rest ih =>
    obtain ⟨k, value⟩ := p
    by_cases hk : k = key
    · simpa [hk] using ih
    · have differs : (key == k) = false := by simpa using fun e => hk e.symm
      simpa [hk, List.lookup_cons, differs] using ih

/-- Where each key occurs once, a key is looked up as what stands with it. -/
theorem lookup_eq_some_iff_mem {pairs : List (κ × ν)} (once : (pairs.map Prod.fst).Nodup)
    {key : κ} {value : ν} : pairs.lookup key = some value ↔ (key, value) ∈ pairs := by
  induction pairs with
  | nil => exact iff_of_false nofun List.not_mem_nil
  | cons pair rest ih =>
    obtain ⟨given, content⟩ := pair
    obtain ⟨absent, once⟩ := List.nodup_cons.mp once
    rw [List.mem_cons, Prod.mk.injEq]
    by_cases same : key = given
    · subst same
      have elsewhere : (key, value) ∉ rest := fun member =>
        absent (List.mem_map.mpr ⟨_, member, rfl⟩)
      rw [List.lookup_cons_self, Option.some.injEq, or_iff_left elsewhere]
      exact ⟨fun h => ⟨rfl, h.symm⟩, fun h => h.2.symm⟩
    · have differs : (key == given) = false := beq_eq_false_iff_ne.mpr same
      simp only [List.lookup_cons, differs, same, false_and, false_or]
      exact ih once

end Succession
