import Mathlib.Data.List.Basic
import Mathlib.Data.List.Induction
import Succession.Window.Order

/-!
# Windows return to their slots

After a restore the order is the part of the snapshot that was managed again, in the snapshot's
order, followed by the other windows in the order they came (`returned_foldl_manage`).

The invariant is `Returned`: it tells the whole state after a sequence of windows was managed, and
each further window keeps it (`Returned.manage`).
-/

namespace Succession.WindowOrder

/-! ## 1. No window twice -/

theorem mem_insertBefore {later : WindowId → Bool} {v w : WindowId} {windows : List WindowId} :
    v ∈ insertBefore later w windows ↔ v = w ∨ v ∈ windows := by
  induction windows with
  | nil => simp [insertBefore]
  | cons u rest ih =>
    rw [insertBefore]
    split
    · rw [List.mem_cons]
    · rw [List.mem_cons, ih, List.mem_cons]
      exact or_left_comm

theorem mem_manage {order : WindowOrder} {v w : WindowId} :
    v ∈ (order.manage w).managed ↔ v = w ∨ v ∈ order.managed := by
  unfold manage
  split
  · next managed =>
    have member : w ∈ order.managed := of_decide_eq_true managed
    exact ⟨.inr, fun | .inl same => same ▸ member | .inr member => member⟩
  · split
    · exact mem_insertBefore
    · rw [List.mem_append, List.mem_singleton, or_comm]

theorem nodup_insertBefore {later : WindowId → Bool} {w : WindowId} {windows : List WindowId}
    (distinct : windows.Nodup) (fresh : w ∉ windows) : (insertBefore later w windows).Nodup := by
  induction windows with
  | nil => simp [insertBefore]
  | cons u rest ih =>
    rw [List.nodup_cons] at distinct
    rw [List.mem_cons, not_or] at fresh
    rw [insertBefore]
    split
    · simp [fresh, distinct]
    · rw [List.nodup_cons, mem_insertBefore, not_or]
      exact ⟨⟨Ne.symm fresh.1, distinct.1⟩, ih distinct.2 fresh.2⟩

theorem nodup_manage {order : WindowOrder} (distinct : order.managed.Nodup) (w : WindowId) :
    (order.manage w).managed.Nodup := by
  unfold manage
  split
  · exact distinct
  · next absent =>
    have fresh : w ∉ order.managed := by simpa [isManaged] using absent
    split
    · exact nodup_insertBefore distinct fresh
    · exact List.nodup_append.mpr ⟨distinct, by simp, by
        intro v member u same
        rw [List.mem_singleton.mp same]
        rintro rfl
        exact fresh member⟩

theorem nodup_apply {order : WindowOrder} (distinct : order.managed.Nodup) (change : Change) :
    (order.apply change).managed.Nodup := by
  cases change with
  | restore windows => exact List.nodup_nil
  | clear => exact List.nodup_nil
  | manage w => exact nodup_manage distinct w
  | release w => exact distinct.filter _
  | clearSlots => exact distinct

/-- However an order came about, it holds no window twice. -/
theorem nodup_run (changes : List Change) : (changes.foldl apply {}).managed.Nodup := by
  induction changes using List.reverseRecOn with
  | nil => exact List.nodup_nil
  | append_singleton changes change ih =>
    rw [List.foldl_append]
    exact nodup_apply ih change

/-! ## 2. Positions -/

theorem positionsFrom_eq_zipIdx {windows : List WindowId} (distinct : windows.Nodup) (start : Nat) :
    positionsFrom start windows = windows.zipIdx start := by
  induction windows generalizing start with
  | nil => rfl
  | cons w rest ih =>
    rw [List.nodup_cons] at distinct
    rw [positionsFrom, if_neg distinct.1, ih distinct.2, List.zipIdx_cons]

theorem lookup_zipIdx (windows : List WindowId) (start : Nat) (w : WindowId) :
    (windows.zipIdx start).lookup w =
      if w ∈ windows then some (start + windows.idxOf w) else none := by
  induction windows generalizing start with
  | nil => rfl
  | cons v rest ih =>
    rw [List.zipIdx_cons, List.lookup_cons, ih]
    by_cases here : w = v
    · simp [here]
    · have differs : (w == v) = false := by simpa using here
      have after : start + 1 + rest.idxOf w = start + (rest.idxOf w + 1) := by omega
      simp only [differs, List.mem_cons, here, false_or, List.idxOf_cons_ne _ (Ne.symm here), after]

theorem isSome_lookup_filter (slots : List (WindowId × Nat)) (kept : WindowId → Bool)
    (w : WindowId) :
    ((slots.filter fun e => kept e.1).lookup w).isSome = (kept w && (slots.lookup w).isSome) := by
  induction slots with
  | nil => simp
  | cons e rest ih =>
    obtain ⟨v, n⟩ := e
    by_cases here : w = v
    · subst here
      cases keep : kept w <;> simp [keep, ih]
    · have differs : (w == v) = false := by simpa using here
      cases keep : kept v <;> simp [keep, ih, List.lookup_cons, differs]

theorem eraseDups_concat (windows : List WindowId) (w : WindowId) :
    (windows ++ [w]).eraseDups =
      if w ∈ windows then windows.eraseDups else windows.eraseDups ++ [w] := by
  rw [List.eraseDups_append]
  by_cases member : w ∈ windows <;> simp [member, List.removeAll, List.eraseDups_cons]

/-! ## 3. The order after a restore -/

/-- The state after the windows `calls` were managed one after the other, starting from a snapshot
of `windows`. -/
structure Returned (windows calls : List WindowId) (order : WindowOrder) : Prop where
  managed : order.managed =
    windows.filter (· ∈ calls) ++ (calls.filter (· ∉ windows)).eraseDups
  slots : order.slots = windows.zipIdx.filter fun e => e.1 ∉ calls
  positions : order.positions = windows.zipIdx

theorem returned_ofSnapshot {windows : List WindowId} (distinct : windows.Nodup) :
    Returned windows [] (ofSnapshot windows) where
  managed := by simp [ofSnapshot]
  slots := by
    rw [ofSnapshot, positionsFrom_eq_zipIdx distinct, List.filter_eq_self.mpr (by simp)]
  positions := by simp [ofSnapshot, positionsFrom_eq_zipIdx distinct]

theorem insertBefore_append {later : WindowId → Bool} (w : WindowId) {front back : List WindowId}
    (early : ∀ v ∈ front, later v = false) (late : ∀ v ∈ back, later v = true) :
    insertBefore later w (front ++ back) = front ++ w :: back := by
  induction front with
  | nil =>
    cases back with
    | nil => rfl
    | cons v back => rw [List.nil_append, insertBefore, if_pos (late v (by simp))]; rfl
  | cons v front ih =>
    rw [List.cons_append, insertBefore, early v (by simp), if_neg Bool.false_ne_true,
      ih fun u member => early u (List.mem_cons_of_mem _ member)]
    rfl

namespace Returned

variable {windows calls : List WindowId} {order : WindowOrder}

theorem isManaged_iff (h : Returned windows calls order) (w : WindowId) :
    order.isManaged w = true ↔ w ∈ calls := by
  rw [isManaged, decide_eq_true_iff, h.managed, List.mem_append, List.mem_filter,
    List.mem_eraseDups, List.mem_filter]
  by_cases known : w ∈ windows <;> simp [known]

theorem mem_concat_of_ne {v w : WindowId} (differs : v ≠ w) : v ∈ calls ++ [w] ↔ v ∈ calls := by
  simp [differs]

theorem filter_concat_of_notMem {w : WindowId} (absent : w ∉ windows) :
    windows.filter (· ∈ calls ++ [w]) = windows.filter (· ∈ calls) := by
  refine List.filter_congr fun v member => ?_
  have differs : v ≠ w := by
    rintro rfl
    exact absent member
  simp only [mem_concat_of_ne differs]

/-- A window that is managed already changes nothing. -/
theorem repeated (h : Returned windows calls order) {w : WindowId} (member : w ∈ calls) :
    Returned windows (calls ++ [w]) (order.manage w) := by
  have same (v : WindowId) : v ∈ calls ++ [w] ↔ v ∈ calls := by
    rw [List.mem_append, List.mem_singleton]
    exact ⟨fun h => h.elim id fun e => e ▸ member, .inl⟩
  rw [manage, if_pos ((h.isManaged_iff w).mpr member)]
  constructor
  · rw [h.managed, List.filter_append]
    simp only [same]
    by_cases known : w ∈ windows
    · simp [known]
    · have old : w ∈ calls.filter (· ∉ windows) := by simp [member, known]
      have kept : [w].filter (· ∉ windows) = [w] := by simp [known]
      rw [kept, eraseDups_concat, if_pos old]
  · rw [h.slots]
    simp only [same]
  · exact h.positions

/-- A window that was not in the snapshot goes to the end. -/
theorem appended (h : Returned windows calls order) {w : WindowId} (absent : w ∉ calls)
    (unknown : w ∉ windows) : Returned windows (calls ++ [w]) (order.manage w) := by
  have noSlot : (order.slots.lookup w).isSome = false := by
    rw [h.slots, isSome_lookup_filter _ fun v => decide (v ∉ calls), lookup_zipIdx, if_neg unknown]
    simp
  have others {v : WindowId} (member : v ∈ windows) : v ∈ calls ++ [w] ↔ v ∈ calls :=
    mem_concat_of_ne fun e => unknown (e ▸ member)
  have fresh : ¬order.isManaged w = true := fun managed => absent ((h.isManaged_iff w).mp managed)
  rw [manage, if_neg fresh, if_neg (by simp [noSlot])]
  constructor
  · have kept : [w].filter (· ∉ windows) = [w] := by simp [unknown]
    have fresh : w ∉ calls.filter (· ∉ windows) := by simp [absent]
    rw [filter_concat_of_notMem unknown, List.filter_append, kept, eraseDups_concat, if_neg fresh,
      ← List.append_assoc, ← h.managed]
  · rw [h.slots]
    refine List.filter_congr fun e member => ?_
    have stood : e.1 ∈ windows := List.fst_mem_of_mem_zipIdx member
    simp only [others stood]
  · exact h.positions

theorem position?_eq (h : Returned windows calls order) (w : WindowId) :
    order.position? w = if w ∈ windows then some (windows.idxOf w) else none := by
  rw [position?, h.positions, lookup_zipIdx, Nat.zero_add]

/-- Which windows stand after one of the snapshot: those behind it and those not in it. -/
theorem standsAfter_iff {front back : List WindowId} {w : WindowId}
    (h : Returned (front ++ w :: back) calls order) (distinct : (front ++ w :: back).Nodup)
    (v : WindowId) :
    order.standsAfter (order.position? w) v = true ↔ v ∉ front ∧ v ≠ w := by
  obtain ⟨_, _, apart⟩ := List.nodup_append.mp distinct
  have fresh : w ∉ front := fun member => apart w member w (by simp) rfl
  have here : (front ++ w :: back).idxOf w = front.length := by
    rw [List.idxOf_append_of_notMem fresh, List.idxOf_cons_self, Nat.add_zero]
  rw [h.position?_eq, if_pos (by simp), here, standsAfter.eq_def]
  simp only [h.position?_eq]
  by_cases early : v ∈ front
  · have before := List.idxOf_lt_length_of_mem early
    have notLater : ¬front.length < front.idxOf v := Nat.not_lt.mpr (Nat.le_of_lt before)
    rw [if_pos (by simp [early]), List.idxOf_append_of_mem early]
    simp [early, notLater]
  · rw [List.idxOf_append_of_notMem early]
    by_cases same : v = w
    · simp [same]
    · rw [List.idxOf_cons_ne _ (Ne.symm same)]
      by_cases late : v ∈ back
      · simp [early, same, late]
      · simp [early, same, late]

/-- A window of the snapshot goes between those that stood before and after it. -/
theorem slotted (h : Returned windows calls order) (distinct : windows.Nodup) {w : WindowId}
    (absent : w ∉ calls) (known : w ∈ windows) :
    Returned windows (calls ++ [w]) (order.manage w) := by
  have slot : (order.slots.lookup w).isSome = true := by
    rw [h.slots, isSome_lookup_filter _ fun v => decide (v ∉ calls), lookup_zipIdx, if_pos known]
    simp [absent]
  have fresh : ¬order.isManaged w = true := fun managed => absent ((h.isManaged_iff w).mp managed)
  rw [manage, if_neg fresh, if_pos slot]
  obtain ⟨front, back, rfl⟩ := List.append_of_mem known
  obtain ⟨_, behind, apart⟩ := List.nodup_append.mp distinct
  have notFront : w ∉ front := fun member => apart w member w (by simp) rfl
  have notBack : w ∉ back := (List.nodup_cons.mp behind).1
  have later := h.standsAfter_iff distinct
  constructor
  · -- The windows of `front` that came back stay before `w`, all others go behind it.
    have early : ∀ v ∈ front.filter (· ∈ calls),
        order.standsAfter (order.position? w) v = false := by
      intro v member
      rw [← Bool.not_eq_true, later]
      exact fun ⟨notEarly, _⟩ => notEarly (List.mem_of_mem_filter member)
    have late : ∀ v ∈ back.filter (· ∈ calls) ++
        (calls.filter (· ∉ front ++ w :: back)).eraseDups,
        order.standsAfter (order.position? w) v = true := by
      intro v member
      rw [later]
      rcases List.mem_append.mp member with member | member
      · have stood := List.mem_of_mem_filter member
        exact ⟨fun early => apart v early v (by simp [stood]) rfl, fun e => notBack (e ▸ stood)⟩
      · rw [List.mem_eraseDups, List.mem_filter, decide_eq_true_iff, List.mem_append,
          List.mem_cons, not_or, not_or] at member
        exact ⟨member.2.1, member.2.2.1⟩
    have split : (front ++ w :: back).filter (· ∈ calls) =
        front.filter (· ∈ calls) ++ back.filter (· ∈ calls) := by
      simp [absent]
    have none : [w].filter (· ∉ front ++ w :: back) = [] := by simp
    rw [h.managed, split, List.append_assoc, insertBefore_append w early late, List.filter_append,
      List.filter_cons_of_pos (by simp), filter_concat_of_notMem notFront,
      filter_concat_of_notMem notBack, List.filter_append, none,
      List.append_nil, List.append_assoc, List.cons_append]
  · simp only [h.slots, List.filter_filter]
    refine List.filter_congr fun e member => ?_
    simp [not_or, and_comm]
  · exact h.positions

/-- Managing one more window. -/
theorem manage (h : Returned windows calls order) (distinct : windows.Nodup) (w : WindowId) :
    Returned windows (calls ++ [w]) (order.manage w) := by
  by_cases member : w ∈ calls
  · exact h.repeated member
  · by_cases known : w ∈ windows
    · exact h.slotted distinct member known
    · exact h.appended member known

end Returned

/-- The state after any windows were managed, in any order. -/
theorem returned_foldl_manage {windows : List WindowId} (distinct : windows.Nodup)
    (calls : List WindowId) : Returned windows calls (calls.foldl manage (ofSnapshot windows)) := by
  induction calls using List.reverseRecOn with
  | nil => exact returned_ofSnapshot distinct
  | append_singleton calls w ih =>
    rw [List.foldl_append]
    exact ih.manage distinct w

end Succession.WindowOrder
