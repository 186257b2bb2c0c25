import Succession.EventLoop.Source

/-!
# What draining leaves alone

Whatever is left alone by the single steps of draining a source of events is left alone by the drain
and by everything that the loop does with it.
-/

namespace Succession

variable {σ ε τ : Type}

/-- What a callback does to the state if it is not that of the connection. -/
def Callback.change? : Callback σ → Option (σ → σ)
  | connection => none
  | other change => some change

namespace EventSource

/-- The steps of draining leave a view of the state alone. -/
structure Preserves (p : EventSource σ ε) (view : σ → τ) : Prop where
  poll : ∀ s, view (p.poll s).2 = view s
  flush : ∀ s, view (p.flush s).2 = view s
  dispatch : ∀ e s, view (p.dispatch e s) = view s
  failed : ∀ f s, view (p.failed f s) = view s

namespace Preserves

variable {p : EventSource σ ε} {view : σ → τ}

theorem of_poll (kept : Preserves p view) {s t : σ} {outcome : Except Fault (Option ε)}
    (polled : p.poll s = (outcome, t)) : view t = view s := by
  rw [← kept.poll s, polled]

theorem drainUpTo (kept : Preserves p view) (limit : Nat) (s : σ) :
    view (p.drainUpTo limit s).2 = view s := by
  induction limit generalizing s with
  | zero => rfl
  | succ limit ih =>
    have first := kept.poll s
    rw [EventSource.drainUpTo]
    rcases polled : p.poll s with ⟨outcome, next⟩
    rw [polled] at first
    simp only at first
    cases outcome with
    | error f => exact first
    | ok event =>
      cases event with
      | none =>
        have second := kept.flush next
        simp only
        rcases flushed : p.flush next with ⟨sent, last⟩
        rw [flushed] at second
        cases sent <;> exact second.trans first
      | some e =>
        simp only
        split
        · exact (ih next).trans first
        · exact ((ih _).trans (kept.dispatch e next)).trans first

theorem drainIfOpen (kept : Preserves p view) (s : σ) : view (p.drainIfOpen s).2 = view s := by
  rw [EventSource.drainIfOpen]
  split
  · have drained := kept.drainUpTo (p.backlog s + 1) s
    rw [EventSource.drain]
    split
    · next same =>
      rw [same] at drained
      exact drained
    · next f _ same =>
      rw [same] at drained
      exact (kept.failed f _).trans drained
  · rfl

theorem beforeWait (kept : Preserves p view) (s : σ) : view (p.beforeWait s) = view s :=
  kept.drainIfOpen s

/-- Callbacks leave alone what the changes among them leave alone. -/
theorem attend (kept : Preserves p view) {callbacks : List (Callback σ)}
    (others : ∀ change ∈ callbacks.filterMap Callback.change?, ∀ s, view (change s) = view s)
    (s : σ) : view (p.attend callbacks s) = view s := by
  induction callbacks generalizing s with
  | nil => rfl
  | cons callback rest ih =>
    cases callback with
    | connection => exact (ih others _).trans (kept.drainIfOpen s)
    | other change =>
      obtain ⟨first, others⟩ := List.forall_mem_cons.mp others
      exact (ih others _).trans (first s)

theorem wakeUp (kept : Preserves p view) (n : Nat) (s : σ) : view (p.wakeUp n s) = view s := by
  refine kept.attend (fun change member => ?_) s
  obtain ⟨callback, among, found⟩ := List.mem_filterMap.mp member
  rw [List.eq_of_mem_replicate among] at found
  cases found

end Preserves

end EventSource

end Succession
