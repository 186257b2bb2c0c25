import Succession.Takeover.Basic

/-!
# What a takeover leaves alone

Whatever is left alone by the single steps of taking windows over is left alone by the whole.
-/

namespace Succession

variable {σ ε τ : Type}

namespace Takeover.Party

/-- The steps of a takeover leave a view of the state alone. -/
structure Preserves (p : Party σ ε) (view : σ → τ) : Prop where
  grab : ∀ s, view (p.grab s).2 = view s
  ungrab : ∀ s, view (p.ungrab s).2 = view s
  sync : ∀ s, view (p.sync s).2 = view s
  poll : ∀ s, view (p.poll s).2 = view s
  children : ∀ s, view (p.children s).2 = view s
  claim : ∀ w s, view (p.claim w s).2 = view s
  honour : ∀ e s, view (p.honour e s) = view s

namespace Preserves

variable {p : Party σ ε} {view : σ → τ}

theorem drainUpTo (kept : Preserves p view) (limit : Nat) (report : Report) (s : σ) :
    view (p.drainUpTo limit report s).2 = view s := by
  induction limit generalizing report s with
  | zero => rfl
  | succ limit ih =>
    have first := kept.poll s
    rw [Party.drainUpTo]
    rcases polled : p.poll s with ⟨outcome, next⟩
    rw [polled] at first
    simp only at first
    cases outcome with
    | error f => exact first
    | ok event =>
      cases event with
      | none => exact first
      | some e =>
        simp only
        split
        · exact ((ih _ _).trans (kept.honour e next)).trans first
        · exact (ih _ next).trans first

theorem claimAll (kept : Preserves p view) (windows : List RootChild) (report : Report) (s : σ) :
    view (p.claimAll windows report s).2 = view s := by
  induction windows generalizing report s with
  | nil => rfl
  | cons w rest ih =>
    rw [Party.claimAll]
    split
    · exact ih _ s
    · have first := kept.claim w.window s
      rcases claimed : p.claim w.window s with ⟨outcome, next⟩
      rw [claimed] at first
      cases outcome with
      | error f => exact first
      | ok _ => exact (ih _ next).trans first

theorem underGrab (kept : Preserves p view) (s : σ) : view (p.underGrab s).2 = view s := by
  have synced := kept.sync s
  rw [Party.underGrab]
  split
  · next same =>
    rw [same] at synced
    exact synced
  · next next same =>
    rw [same] at synced
    have drained := kept.drainUpTo (p.backlog next + 1) {} next
    split
    · next same =>
      rw [same] at drained
      exact drained.trans synced
    · next report later same =>
      rw [same] at drained
      have listed := kept.children later
      split
      · next same =>
        rw [same] at listed
        exact (listed.trans drained).trans synced
      · next windows last same =>
        rw [same] at listed
        exact ((kept.claimAll windows report last).trans listed).trans (drained.trans synced)

theorem run (kept : Preserves p view) (s : σ) : view (p.run s).2 = view s := by
  have grabbed := kept.grab s
  rw [Party.run]
  split
  · next same =>
    rw [same] at grabbed
    exact grabbed
  · next next same =>
    rw [same] at grabbed
    have done := (kept.underGrab next).trans grabbed
    rcases under : p.underGrab next with ⟨outcome, after⟩
    rw [under] at done
    have released := (kept.ungrab after).trans done
    rcases release : p.ungrab after with ⟨sent, last⟩
    rw [release] at released
    simp only [release]
    cases outcome with
    | error f => exact released
    | ok report => cases sent <;> exact released

end Preserves

end Takeover.Party

end Succession
