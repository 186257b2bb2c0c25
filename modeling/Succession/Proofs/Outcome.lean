/-!
# Outcomes that succeed

What a sequence of steps that may fail says about each of its steps when it succeeds.
-/

namespace Succession

variable {ε α β : Type}

theorem bind_eq_ok {x : Except ε α} {f : α → Except ε β} {b : β} :
    (x >>= f) = .ok b ↔ ∃ a, x = .ok a ∧ f a = .ok b := by
  cases x with
  | error e => exact ⟨nofun, fun ⟨_, impossible, _⟩ => nomatch impossible⟩
  | ok a => exact ⟨fun h => ⟨a, rfl, h⟩, fun ⟨_, same, h⟩ => Except.ok.inj same ▸ h⟩

theorem map_eq_ok {x : Except ε α} {f : α → β} {b : β} :
    x.map f = .ok b ↔ ∃ a, x = .ok a ∧ f a = b := by
  cases x with
  | error e => exact ⟨nofun, fun ⟨_, impossible, _⟩ => nomatch impossible⟩
  | ok a =>
    refine ⟨fun h => ⟨a, rfl, Except.ok.inj h⟩, fun ⟨_, same, h⟩ => ?_⟩
    rw [← h, ← Except.ok.inj same]
    rfl

theorem toOption_eq_some {x : Except ε α} {a : α} : x.toOption = some a ↔ x = .ok a := by
  cases x with
  | error e => exact ⟨nofun, nofun⟩
  | ok b => exact ⟨fun h => congrArg _ (Option.some.inj h), fun h => by cases h; rfl⟩

theorem foldlM_cons_ok {f : β → α → Except ε β} {a : α} {rest : List α} {b c : β} :
    (a :: rest).foldlM f b = .ok c ↔ ∃ d, f b a = .ok d ∧ rest.foldlM f d = .ok c := by
  rw [List.foldlM_cons, bind_eq_ok]

theorem foldlM_append_ok {f : β → α → Except ε β} {front back : List α} {b c : β} :
    (front ++ back).foldlM f b = .ok c ↔
      ∃ d, front.foldlM f b = .ok d ∧ back.foldlM f d = .ok c := by
  rw [List.foldlM_append, bind_eq_ok]

end Succession
