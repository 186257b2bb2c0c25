import Succession.Takeover.Basic

/-!
# The stages of a takeover that succeeds

A takeover that succeeds went through all of its stages: `run_ok` for the grab and what happens
under it, `underGrab_ok` for the stages under it.
-/

namespace Succession.Takeover.Party

variable {σ ε : Type} {p : Party σ ε} {s final : σ} {report : Report}

theorem run_ok (taken : p.run s = (.ok report, final)) :
    ∃ grabbed done, p.grab s = (.ok (), grabbed) ∧ p.underGrab grabbed = (.ok report, done) ∧
      p.ungrab done = (.ok (), final) := by
  rw [run] at taken
  split at taken
  · cases taken
  · next grabbed grab =>
    rcases under : p.underGrab grabbed with ⟨outcome, done⟩
    rw [under] at taken
    rcases release : p.ungrab done with ⟨released, last⟩
    simp only [release] at taken
    cases outcome with
    | error f => cases taken
    | ok report =>
      cases released with
      | error f => cases taken
      | ok _ =>
        cases taken
        exact ⟨grabbed, done, grab, under, release⟩

theorem underGrab_ok (done : p.underGrab s = (.ok report, final)) :
    ∃ synced drained listed before windows, p.sync s = (.ok (), synced) ∧
      p.drainUpTo (p.backlog synced + 1) {} synced = (.ok before, drained) ∧
      p.children drained = (.ok windows, listed) ∧
      p.claimAll windows before listed = (.ok report, final) := by
  rw [underGrab] at done
  split at done
  · cases done
  · next synced sync =>
    split at done
    · cases done
    · next before drained drain =>
      split at done
      · cases done
      · next windows listed children =>
        exact ⟨synced, drained, listed, before, windows, sync, drain, children, done⟩

end Succession.Takeover.Party
