import Succession.Proofs.FileSystem.WriteRead
import Succession.Proofs.Window.SlotOrder
import Succession.Proofs.Window.SnapshotRoundTrip
import Succession.Proofs.WindowManager.TakeoverOrder
import Succession.Window.Persistence

/-!
# The window order survives a restart

One image writes its window order to a snapshot and the next restores it (`restore_persist`). The
windows then come back in whatever order the display brings them. What the takeover makes of that
is the old order again, with the windows that did not come back left out and the new ones at the
end (`order_survives_restart`).
-/

namespace Succession

/-- An order that was written and read again remembers the managed windows as they stood. -/
theorem Snapshot.restore_persist {fs fs' : FileSystem} {p : Path} {order restored : WindowOrder}
    (written : persist fs p order = .ok fs') (read : restore fs' p = .ok restored) :
    restored = .ofSnapshot order.managed := by
  unfold persist at written
  split at written
  · next after wrote =>
    cases written
    unfold restore at read
    split at read
    · cases read
    · next content found =>
      have same : content = encode (ofOrder order) := FileSystem.contentAt_writeFile wrote found
      rw [same, decode_encode] at read
      exact (Except.ok.inj read).symm
  · cases written

namespace WindowOrder

theorem length_slots {windows calls : List WindowId} {order : WindowOrder}
    (h : Returned windows calls order) : order.waiting = (windows.filter (· ∉ calls)).length := by
  have names : windows.zipIdx.map Prod.fst = windows := List.zipIdx_map_fst 0 windows
  rw [waiting, h.slots]
  conv_rhs => rw [← names, List.filter_map, List.length_map]
  rfl

/-- The windows of a snapshot may come back in any order. -/
theorem managed_foldl_manage_congr {windows calls others : List WindowId}
    (distinct : windows.Nodup) (same : ∀ w, w ∈ calls ↔ w ∈ others)
    (known : ∀ w ∈ calls, w ∈ windows) :
    (calls.foldl manage (ofSnapshot windows)).managed =
      (others.foldl manage (ofSnapshot windows)).managed := by
  have none {list : List WindowId} (all : ∀ w ∈ list, w ∈ windows) :
      list.filter (· ∉ windows) = [] := List.filter_eq_nil_iff.mpr (by simpa using all)
  have returned := returned_foldl_manage distinct calls
  have returned' := returned_foldl_manage distinct others
  rw [returned.managed, returned'.managed, none known,
    none fun w member => known w ((same w).mpr member)]
  simp only [same]

end WindowOrder

open WindowOrder in
/-- However the old order came about, and whichever windows are managed after the restore, one
after the other: those of the old order stand first, as they stood before, and then the others in
the order they came. The slots that are left belong to the windows that did not come back, and
clearing them changes nothing else. Which windows of the old order come first makes no difference.
The takeover of the existing windows is such a sequence: the honoured requests, then the claims. -/
theorem order_survives_restart (changes : List Change) {fs fs' : FileSystem} {p : Path}
    {restored : WindowOrder}
    (written : Snapshot.persist fs p (changes.foldl apply {}) = .ok fs')
    (read : Snapshot.restore fs' p = .ok restored) :
    let old := (changes.foldl apply {}).managed
    (∀ calls : List WindowId,
      let order := calls.foldl manage restored
      order.managed = old.filter (· ∈ calls) ++ (calls.filter (· ∉ old)).eraseDups ∧
      order.waiting = (old.filter (· ∉ calls)).length ∧
      order.clearSlots.managed = order.managed ∧ order.clearSlots.waiting = 0) ∧
    (∀ calls others : List WindowId, (∀ w, w ∈ calls ↔ w ∈ others) → (∀ w ∈ calls, w ∈ old) →
      (calls.foldl manage restored).managed = (others.foldl manage restored).managed) ∧
    (∀ (m m' : WindowManager) (report : Takeover.Report), m.order = restored →
      WindowManager.takeover.run m = (.ok report, m') →
      ∃ requested : List WindowId, report.mapRequests = requested.length ∧
        m'.order = (requested ++ report.claimed).foldl manage restored) := by
  have distinct := nodup_run changes
  rw [Snapshot.restore_persist written read]
  refine ⟨fun calls => ?_, fun calls others same known => ?_, fun m m' report start taken => ?_⟩
  · have returned := returned_foldl_manage distinct calls
    exact ⟨returned.managed, length_slots returned, rfl, rfl⟩
  · exact managed_foldl_manage_congr distinct same known
  · obtain ⟨requested, count, order⟩ := WindowManager.run_order taken
    exact ⟨requested, count, start ▸ order⟩

open WindowOrder in
/-- Windows 3, 1 and 2 were managed in this order. After the restart 2 comes back, then a new window
9 and then 3; window 1 does not come back. -/
theorem order_survives_restart_of_three :
    ∃ fs' restored,
      Snapshot.persist {} (Path.ofString "/s")
        ([.manage 3, .manage 1, .manage 2].foldl apply {}) = .ok fs' ∧
      Snapshot.restore fs' (Path.ofString "/s") = .ok restored ∧
      ([2, 9, 3].foldl manage restored).managed = [3, 2, 9] := by
  let order : WindowOrder := [.manage 3, .manage 1, .manage 2].foldl apply {}
  let files := ({} : FileSystem).put [[0x73]] (.file (Snapshot.encode (.ofOrder order)))
  have written : Snapshot.persist {} (Path.ofString "/s") order = .ok files := by decide +kernel
  have read : Snapshot.restore files (Path.ofString "/s") = .ok (ofSnapshot [3, 1, 2]) := by
    decide +kernel
  refine ⟨_, _, written, read, ?_⟩
  rw [((order_survives_restart _ written read).1 [2, 9, 3]).1]
  decide

end Succession
