import Succession.Proofs.Window.SlotOrder
import Succession.Window.Persistence

/-!
# Windows stay in their slots

However a window order came about, the windows that went back to their slots stand in the order of
the snapshot, and before every window that was not in it (`order_is_kept`).

A window of the snapshot that was released and managed again has lost its slot and goes to the end,
so the positions along the order need not rise. What holds at every moment is `Arranged`: whatever
stands before a window that went back to its slot has an earlier position. A window that goes to the
end has nothing behind it, and one that goes to its slot stops before the first later position; so
no window that is already in its slot is passed by.
-/

namespace Succession.WindowOrder

/-! ## 1. What happened to an order -/

/-- The order after some changes, beginning with an empty one. -/
def ofChanges (changes : List Change) : WindowOrder := changes.foldl apply {}

/-- The windows of the snapshot that counts after a change. -/
def Change.snapshot (before : List WindowId) : Change → List WindowId
  | restore windows => windows
  | clear => []
  | manage _ | release _ | clearSlots => before

/-- The windows of the snapshot that the order was restored from, as they were listed there; none if
the order was cleared since. -/
def snapshotOf (changes : List Change) : List WindowId := changes.foldl Change.snapshot []

/-- Whether a window is not managed after the change, whatever it was before. -/
def Change.removes (w : WindowId) : Change → Bool
  | restore _ | clear => true
  | release v => v = w
  | manage _ | clearSlots => false

/-- A window went back to its slot at some time and has been managed ever since. -/
def BackInSlot (changes : List Change) (w : WindowId) : Prop :=
  ∃ before since, changes = before ++ .manage w :: since ∧ w ∉ (ofChanges before).managed ∧
    ((ofChanges before).slots.lookup w).isSome = true ∧ ∀ change ∈ since, change.removes w = false

/-- A list has a window at a position, and at no later one. -/
def StandsLastAt (windows : List WindowId) (w : WindowId) (n : Nat) : Prop :=
  ∃ before after, windows = before ++ w :: after ∧ w ∉ after ∧ before.length = n

variable {changes : List Change} {change : Change} {order : WindowOrder} {v w : WindowId}

theorem ofChanges_concat (changes : List Change) (change : Change) :
    ofChanges (changes ++ [change]) = (ofChanges changes).apply change := by
  unfold ofChanges
  rw [List.foldl_append]
  rfl

theorem snapshotOf_concat (changes : List Change) (change : Change) :
    snapshotOf (changes ++ [change]) = change.snapshot (snapshotOf changes) := by
  unfold snapshotOf
  rw [List.foldl_append]
  rfl

/-- Which windows are back in their slots after one more change. -/
theorem backInSlot_concat :
    BackInSlot (changes ++ [change]) w ↔
      (change.removes w = false ∧ BackInSlot changes w) ∨
      (change = .manage w ∧ w ∉ (ofChanges changes).managed ∧
        ((ofChanges changes).slots.lookup w).isSome = true) := by
  constructor
  · rintro ⟨before, since, split, absent, slot, stays⟩
    rcases List.eq_nil_or_concat since with rfl | ⟨more, last, rfl⟩
    · obtain ⟨rfl, same⟩ := List.append_inj' split rfl
      obtain rfl := List.singleton_inj.mp same
      exact .inr ⟨rfl, absent, slot⟩
    · rw [List.concat_eq_append] at split stays
      rw [← List.cons_append, ← List.append_assoc] at split
      obtain ⟨rfl, same⟩ := List.append_inj' split rfl
      obtain rfl := List.singleton_inj.mp same
      obtain ⟨earlier, latest⟩ := List.forall_mem_append.mp stays
      refine .inl ⟨latest change (List.mem_singleton_self change), before, more, rfl, ?_⟩
      exact ⟨absent, slot, earlier⟩
  · rintro (⟨stays, before, since, rfl, absent, slot, earlier⟩ | ⟨rfl, absent, slot⟩)
    · refine ⟨before, since ++ [change], ?_, absent, slot, ?_⟩
      · rw [List.append_assoc, List.cons_append]
      · exact List.forall_mem_append.mpr ⟨earlier, List.forall_mem_singleton.mpr stays⟩
    · exact ⟨changes, [], rfl, absent, slot, List.forall_mem_nil _⟩

/-! ## 2. Positions -/

/-- Of several positions the last counts. -/
theorem lookup_positionsFrom {windows : List WindowId} {start n : Nat} :
    (positionsFrom start windows).lookup w = some n ↔
      ∃ before after, windows = before ++ w :: after ∧ w ∉ after ∧ start + before.length = n := by
  induction windows generalizing start with
  | nil => simp [positionsFrom]
  | cons u rest ih =>
    -- A position in the rest is one in the whole, with one more window before it.
    have further (unlike : ¬(u = w ∧ w ∉ rest)) :
        (∃ before after, rest = before ++ w :: after ∧ w ∉ after ∧
          start + 1 + before.length = n) ↔
        ∃ before after, u :: rest = before ++ w :: after ∧ w ∉ after ∧
          start + before.length = n := by
      constructor
      · rintro ⟨before, after, rfl, last, count⟩
        refine ⟨u :: before, after, rfl, last, ?_⟩
        rw [List.length_cons]
        omega
      · rintro ⟨before, after, split, last, count⟩
        cases before with
        | nil =>
          obtain ⟨same, rfl⟩ := List.cons.inj split
          exact absurd ⟨same, last⟩ unlike
        | cons x before =>
          obtain ⟨_, rfl⟩ := List.cons.inj split
          refine ⟨before, after, rfl, last, ?_⟩
          rw [List.length_cons] at count
          omega
    rw [positionsFrom]
    split
    · next again =>
      rw [ih]
      exact further fun both => both.2 (both.1 ▸ again)
    · next once =>
      rw [List.lookup_cons]
      by_cases here : w = u
      · subst here
        rw [beq_self_eq_true]
        constructor
        · rintro ⟨rfl⟩
          exact ⟨[], rest, rfl, once, rfl⟩
        · rintro ⟨before, after, split, _, rfl⟩
          cases before with
          | nil => rfl
          | cons x before =>
            obtain ⟨_, rfl⟩ := List.cons.inj split
            exact absurd (List.mem_append_right _ List.mem_cons_self) once
      · have differs : (w == u) = false := beq_eq_false_iff_ne.mpr here
        rw [differs]
        exact ih.trans (further fun both => here both.1.symm)

theorem fst_mem_positionsFrom {windows : List WindowId} {start : Nat} {e : WindowId × Nat}
    (member : e ∈ positionsFrom start windows) : e.1 ∈ windows := by
  induction windows generalizing start with
  | nil => cases member
  | cons u rest ih =>
    rw [positionsFrom] at member
    split at member
    · exact List.mem_cons_of_mem _ (ih member)
    · rcases List.mem_cons.mp member with rfl | member
      · exact List.mem_cons_self
      · exact List.mem_cons_of_mem _ (ih member)

theorem lookup_of_mem_positionsFrom {windows : List WindowId} {start : Nat} {e : WindowId × Nat}
    (member : e ∈ positionsFrom start windows) :
    (positionsFrom start windows).lookup e.1 = some e.2 := by
  induction windows generalizing start with
  | nil => cases member
  | cons u rest ih =>
    rw [positionsFrom] at member ⊢
    split at member
    · next again =>
      rw [if_pos again]
      exact ih member
    · next once =>
      rw [if_neg once]
      rcases List.mem_cons.mp member with rfl | member
      · exact List.lookup_cons_self
      · have differs : (e.1 == u) = false :=
          beq_eq_false_iff_ne.mpr fun same => once (same ▸ fst_mem_positionsFrom member)
        rw [List.lookup_cons, differs]
        exact ih member

/-- The positions are those of the snapshot that counts. -/
theorem positions_ofChanges (changes : List Change) :
    (ofChanges changes).positions = positionsFrom 0 (snapshotOf changes) := by
  induction changes using List.reverseRecOn with
  | nil => rfl
  | append_singleton changes change ih =>
    rw [ofChanges_concat, snapshotOf_concat]
    cases change with
    | restore windows => rfl
    | clear => rfl
    | manage w =>
      show ((ofChanges changes).manage w).positions = _
      unfold WindowOrder.manage
      split
      · exact ih
      · split <;> exact ih
    | release w => exact ih
    | clearSlots => exact ih

theorem position?_ofChanges {n : Nat} :
    (ofChanges changes).position? w = some n ↔ StandsLastAt (snapshotOf changes) w n := by
  unfold position? StandsLastAt
  rw [positions_ofChanges, lookup_positionsFrom]
  simp only [Nat.zero_add]

/-- Two windows have no position in common. -/
theorem eq_of_position? {n : Nat} (first : (ofChanges changes).position? v = some n)
    (second : (ofChanges changes).position? w = some n) : v = w := by
  obtain ⟨before, after, split, _, count⟩ := position?_ofChanges.mp first
  obtain ⟨before', after', split', _, count'⟩ := position?_ofChanges.mp second
  obtain ⟨_, rest⟩ := List.append_inj (split.symm.trans split') (count.trans count'.symm)
  exact (List.cons.inj rest).1

/-! ## 3. The invariant -/

/-- The first window has an earlier position in the snapshot than the second one. -/
def StoodBefore (order : WindowOrder) (v w : WindowId) : Prop :=
  ∃ p q, order.position? v = some p ∧ order.position? w = some q ∧ p < q

/-- No managed window has a slot, slots are where the snapshot has their windows, and whatever
stands before a window that is back in its slot stood before it in the snapshot. -/
structure Arranged (changes : List Change) : Prop where
  apart : ∀ w ∈ (ofChanges changes).managed, (ofChanges changes).slots.lookup w = none
  remembered : ∀ e ∈ (ofChanges changes).slots, (ofChanges changes).position? e.1 = some e.2
  known : ∀ w, BackInSlot changes w → ((ofChanges changes).position? w).isSome = true
  managed : ∀ w, BackInSlot changes w → w ∈ (ofChanges changes).managed
  sorted : (ofChanges changes).managed.Pairwise fun v w =>
    BackInSlot changes w → (ofChanges changes).StoodBefore v w

/-- A window goes before the first one that is later. -/
theorem insertBefore_cases (later : WindowId → Bool) (w : WindowId) (windows : List WindowId) :
    ∃ front back, windows = front ++ back ∧ insertBefore later w windows = front ++ w :: back ∧
      (∀ v ∈ front, later v = false) ∧ ∀ v ∈ back.head?, later v = true := by
  induction windows with
  | nil => exact ⟨[], [], rfl, rfl, List.forall_mem_nil _, nofun⟩
  | cons u rest ih =>
    rw [insertBefore]
    split
    · next late =>
      refine ⟨[], u :: rest, rfl, rfl, List.forall_mem_nil _, ?_⟩
      rintro v ⟨rfl⟩
      exact late
    · next early =>
      obtain ⟨front, back, split, inserted, before, behind⟩ := ih
      refine ⟨u :: front, back, congrArg (u :: ·) split, congrArg (u :: ·) inserted, ?_, behind⟩
      exact List.forall_mem_cons.mpr ⟨Bool.eq_false_iff.mpr early, before⟩

theorem standsAfter_some {n : Nat} :
    order.standsAfter (some n) v = true ↔ ∀ q, order.position? v = some q → n < q := by
  unfold standsAfter
  cases order.position? v with
  | none => exact ⟨fun _ => nofun, fun _ => rfl⟩
  | some q =>
    rw [decide_eq_true_iff]
    exact ⟨fun later _ same => Option.some.inj same ▸ later, fun later => later q rfl⟩

namespace Arranged

/-- Nothing is managed yet. -/
theorem of_managed_nil (empty : (ofChanges changes).managed = [])
    (remembered : ∀ e ∈ (ofChanges changes).slots, (ofChanges changes).position? e.1 = some e.2)
    (none : ∀ w, ¬BackInSlot changes w) : Arranged changes where
  apart := by
    intro w member
    rw [empty] at member
    cases member
  remembered := remembered
  known w back := absurd back (none w)
  managed w back := absurd back (none w)
  sorted := by
    rw [empty]
    exact .nil

theorem nil : Arranged [] := by
  refine of_managed_nil rfl (List.forall_mem_nil _) ?_
  rintro w ⟨before, since, split, _⟩
  cases before <;> cases split

/-- After a restore, or after all was cleared, nothing is managed. -/
theorem afresh (empty : ((ofChanges changes).apply change).managed = [])
    (remembered : ∀ e ∈ ((ofChanges changes).apply change).slots,
      ((ofChanges changes).apply change).position? e.1 = some e.2)
    (removes : ∀ w, change.removes w = true) : Arranged (changes ++ [change]) := by
  rw [← ofChanges_concat] at empty remembered
  refine of_managed_nil empty remembered fun w back => ?_
  rcases backInSlot_concat.mp back with ⟨stays, _⟩ | ⟨rfl, _⟩
  · cases stays.symm.trans (removes w)
  · cases removes w

theorem restore (windows : List WindowId) : Arranged (changes ++ [.restore windows]) :=
  afresh rfl (fun _ => lookup_of_mem_positionsFrom) fun _ => rfl

theorem clear : Arranged (changes ++ [.clear]) :=
  afresh rfl (List.forall_mem_nil _) fun _ => rfl

variable (arranged : Arranged changes)
include arranged

theorem clearSlots : Arranged (changes ++ [.clearSlots]) := by
  have same (w : WindowId) : BackInSlot (changes ++ [.clearSlots]) w ↔ BackInSlot changes w := by
    rw [backInSlot_concat]
    exact ⟨fun | .inl ⟨_, back⟩ => back, fun back => .inl ⟨rfl, back⟩⟩
  constructor <;> rw [ofChanges_concat]
  · exact fun w _ => rfl
  · exact List.forall_mem_nil _
  · exact fun w back => arranged.known w ((same w).mp back)
  · exact fun w back => arranged.managed w ((same w).mp back)
  · exact arranged.sorted.imp fun stood back => stood ((same _).mp back)

theorem release (u : WindowId) : Arranged (changes ++ [.release u]) := by
  have still {w : WindowId} (back : BackInSlot (changes ++ [.release u]) w) :
      w ≠ u ∧ BackInSlot changes w := by
    rcases backInSlot_concat.mp back with ⟨stays, back⟩ | ⟨impossible, _⟩
    · refine ⟨?_, back⟩
      rintro rfl
      simp [Change.removes] at stays
    · cases impossible
  constructor <;> rw [ofChanges_concat]
  · exact fun w member => arranged.apart w (List.mem_of_mem_filter member)
  · exact arranged.remembered
  · exact fun w back => arranged.known w (still back).2
  · intro w back
    obtain ⟨differs, back⟩ := still back
    exact List.mem_filter.mpr ⟨arranged.managed w back, decide_eq_true differs⟩
  · exact (arranged.sorted.imp fun stood back => stood (still back).2).filter _

/-- A window that is managed already changes nothing. -/
theorem manage_again (member : w ∈ (ofChanges changes).managed) :
    Arranged (changes ++ [.manage w]) := by
  have unchanged : (ofChanges changes).apply (.manage w) = ofChanges changes :=
    if_pos (decide_eq_true member)
  have same {v : WindowId} (back : BackInSlot (changes ++ [.manage w]) v) :
      BackInSlot changes v := by
    rcases backInSlot_concat.mp back with ⟨_, back⟩ | ⟨named, absent, _⟩
    · exact back
    · cases named
      exact absurd member absent
  constructor <;> rw [ofChanges_concat, unchanged]
  · exact arranged.apart
  · exact arranged.remembered
  · exact fun v back => arranged.known v (same back)
  · exact fun v back => arranged.managed v (same back)
  · exact arranged.sorted.imp fun stood back => stood (same back)

/-- A window without a slot goes to the end, where it stands behind nothing that it may not. -/
theorem manage_last (absent : w ∉ (ofChanges changes).managed)
    (noSlot : ((ofChanges changes).slots.lookup w).isSome = false) :
    Arranged (changes ++ [.manage w]) := by
  have appended : (ofChanges changes).apply (.manage w) =
      { ofChanges changes with managed := (ofChanges changes).managed ++ [w] } := by
    show WindowOrder.manage _ w = _
    rw [WindowOrder.manage, if_neg (by simpa [isManaged] using absent),
      if_neg (by rw [noSlot]; exact Bool.false_ne_true)]
  have same {v : WindowId} (back : BackInSlot (changes ++ [.manage w]) v) :
      BackInSlot changes v := by
    rcases backInSlot_concat.mp back with ⟨_, back⟩ | ⟨named, _, slot⟩
    · exact back
    · cases named
      cases noSlot.symm.trans slot
  constructor <;> rw [ofChanges_concat, appended]
  · intro v member
    rcases List.mem_append.mp member with member | new
    · exact arranged.apart v member
    · rw [List.mem_singleton.mp new]
      exact Option.not_isSome_iff_eq_none.mp (Bool.eq_false_iff.mp noSlot)
  · exact arranged.remembered
  · exact fun v back => arranged.known v (same back)
  · exact fun v back => List.mem_append_left _ (arranged.managed v (same back))
  · refine List.pairwise_append.mpr
      ⟨arranged.sorted.imp fun stood back => stood (same back), List.pairwise_singleton _ _, ?_⟩
    intro u _ v new back
    rw [List.mem_singleton.mp new] at back
    exact absurd (arranged.managed w (same back)) absent

/-- A window with a slot stops before the first later one, and passes no window that is in its
slot. -/
theorem manage_slot (absent : w ∉ (ofChanges changes).managed)
    (slot : ((ofChanges changes).slots.lookup w).isSome = true) :
    Arranged (changes ++ [.manage w]) := by
  obtain ⟨n, found⟩ := Option.isSome_iff_exists.mp slot
  obtain ⟨_, _, listed, _⟩ := List.lookup_eq_some_iff.mp found
  have position : (ofChanges changes).position? w = some n :=
    arranged.remembered (w, n) (listed ▸ List.mem_append_right _ List.mem_cons_self)
  obtain ⟨front, back, split, inserted, early, late⟩ :=
    insertBefore_cases ((ofChanges changes).standsAfter (some n)) w (ofChanges changes).managed
  have slotted : (ofChanges changes).apply (.manage w) =
      { ofChanges changes with
        managed := front ++ w :: back
        slots := (ofChanges changes).slots.filter fun e => e.1 ≠ w } := by
    show WindowOrder.manage _ w = _
    rw [WindowOrder.manage, if_neg (by simpa [isManaged] using absent), if_pos slot, position,
      inserted]
  have old {v : WindowId} (differs : v ≠ w) (back : BackInSlot (changes ++ [.manage w]) v) :
      BackInSlot changes v := by
    rcases backInSlot_concat.mp back with ⟨_, back⟩ | ⟨named, _⟩
    · exact back
    · cases named
      exact absurd rfl differs
  have other {v : WindowId} (member : v ∈ front ++ back) : v ≠ w := by
    rintro rfl
    exact absent (split ▸ member)
  have sorted := arranged.sorted
  rw [split] at sorted
  obtain ⟨sortedFront, sortedBack, across⟩ := List.pairwise_append.mp sorted
  constructor <;> rw [ofChanges_concat, slotted]
  · intro v member
    rcases List.mem_append.mp member with member | member
    · have differs := other (List.mem_append_left _ member)
      rw [lookup_filter_ne _ differs]
      exact arranged.apart v (split ▸ List.mem_append_left _ member)
    · rcases List.mem_cons.mp member with rfl | member
      · exact lookup_filter_self _ v
      · have differs := other (List.mem_append_right _ member)
        rw [lookup_filter_ne _ differs]
        exact arranged.apart v (split ▸ List.mem_append_right _ member)
  · exact fun e member => arranged.remembered e (List.mem_of_mem_filter member)
  · intro v back
    by_cases same : v = w
    · rw [same]
      exact Option.isSome_iff_exists.mpr ⟨n, position⟩
    · exact arranged.known v (old same back)
  · intro v back
    by_cases same : v = w
    · rw [same]
      exact List.mem_append_right _ List.mem_cons_self
    · have member := arranged.managed v (old same back)
      rw [split] at member
      exact List.mem_append.mpr ((List.mem_append.mp member).imp_right (List.mem_cons_of_mem _))
  · refine List.pairwise_append.mpr ⟨?_, List.pairwise_cons.mpr ⟨?_, ?_⟩, ?_⟩
    · exact sortedFront.imp_of_mem fun _ member stood back =>
        stood (old (other (List.mem_append_left _ member)) back)
    · -- The first window behind is later, and the others that are in their slots are later still.
      intro v member inSlot
      have inSlot := old (other (List.mem_append_right _ member)) inSlot
      obtain ⟨q, known⟩ := Option.isSome_iff_exists.mp (arranged.known v inSlot)
      refine ⟨n, q, position, known, ?_⟩
      cases back with
      | nil => cases member
      | cons first rest =>
        have first_late := standsAfter_some.mp (late first rfl)
        rcases List.mem_cons.mp member with rfl | member
        · exact first_late q known
        · obtain ⟨p, q', before, known', less⟩ :=
            (List.pairwise_cons.mp sortedBack).1 v member inSlot
          obtain rfl := Option.some.inj (known.symm.trans known')
          exact Nat.lt_trans (first_late p before) less
    · exact sortedBack.imp_of_mem fun _ member stood back =>
        stood (old (other (List.mem_append_right _ member)) back)
    · intro u before v member inSlot
      rcases List.mem_cons.mp member with rfl | member
      · -- What the window stops behind is not later, and no other window has its position.
        have notLater := early u before
        rw [Bool.eq_false_iff, Ne, standsAfter_some] at notLater
        obtain ⟨q, notBehind⟩ := Classical.not_forall.mp notLater
        obtain ⟨known, atMost⟩ := Classical.not_imp.mp notBehind
        refine ⟨q, n, known, position, Nat.lt_of_le_of_ne (Nat.not_lt.mp atMost) ?_⟩
        rintro rfl
        exact other (List.mem_append_left _ before) (eq_of_position? known position)
      · exact across u before v member
          (old (other (List.mem_append_right _ member)) inSlot)

theorem manage (w : WindowId) : Arranged (changes ++ [.manage w]) := by
  by_cases member : w ∈ (ofChanges changes).managed
  · exact arranged.manage_again member
  · cases slot : ((ofChanges changes).slots.lookup w).isSome with
    | true => exact arranged.manage_slot member slot
    | false => exact arranged.manage_last member slot

end Arranged

/-- However an order came about, it is arranged. -/
theorem arranged_ofChanges (changes : List Change) : Arranged changes := by
  induction changes using List.reverseRecOn with
  | nil => exact .nil
  | append_singleton changes change arranged =>
    cases change with
    | restore windows => exact .restore windows
    | clear => exact .clear
    | manage w => exact arranged.manage w
    | release w => exact arranged.release w
    | clearSlots => exact arranged.clearSlots

/-! ## 4. The order of the others -/

/-- Managing a window leaves the others in their order. -/
theorem others_manage (order : WindowOrder) (w : WindowId) :
    (order.manage w).managed.filter (· ≠ w) = order.managed.filter (· ≠ w) := by
  unfold manage
  split
  · rfl
  · split
    · obtain ⟨front, back, split, inserted, _⟩ :=
        insertBefore_cases (order.standsAfter (order.position? w)) w order.managed
      simp only [inserted]
      rw [split, List.filter_append, List.filter_append, List.filter_cons_of_neg (by simp)]
    · simp

/-- Releasing a window leaves the others in their order. -/
theorem others_release (order : WindowOrder) (w : WindowId) :
    (order.release w).managed.filter (· ≠ w) = order.managed.filter (· ≠ w) := by
  unfold release
  rw [List.filter_filter]
  simp only [Bool.and_self]

/-- What is restored from a file is restored from the windows that the file lists. -/
theorem restore_eq_apply {fs : FileSystem} {p : Path} {restored : WindowOrder}
    (read : Snapshot.restore fs p = .ok restored) (order : WindowOrder) :
    ∃ content windows, fs.contentAt p = .ok content ∧ Snapshot.decode content = .ok windows ∧
      restored = order.apply (.restore windows) := by
  unfold Snapshot.restore at read
  split at read
  · cases read
  · next content found =>
    split at read
    · cases read
    · next windows listed =>
      cases read
      exact ⟨content, windows, found, listed, rfl⟩

/-- **The order keeps its windows apart, in place and in the order of the snapshot.** Take any
changes of an empty order: restores from any snapshot, which may list windows several times, and
windows managed and released, the slots cleared or all of it.

* No window is managed twice, none that is managed has a slot, and every slot is at the position of
  its window.
* The position of a window is the last one at which the snapshot lists it.
* Managing or releasing a window leaves the others in their order.
* A window that went back to its slot, and has not been released since, is managed. Of two such
  windows the one that stands first has the earlier position; and none of them stands behind a
  window that was not in the snapshot. -/
theorem order_is_kept (changes : List Change) :
    let order := ofChanges changes
    let snapshot := snapshotOf changes
    order.managed.Nodup ∧
    (∀ w ∈ order.managed, order.slots.lookup w = none) ∧
    (∀ e ∈ order.slots, order.positions.lookup e.1 = some e.2) ∧
    (∀ w n, order.positions.lookup w = some n ↔ StandsLastAt snapshot w n) ∧
    (∀ w, (order.manage w).managed.filter (· ≠ w) = order.managed.filter (· ≠ w) ∧
      (order.release w).managed.filter (· ≠ w) = order.managed.filter (· ≠ w)) ∧
    (∀ w, BackInSlot changes w → w ∈ order.managed) ∧
    (order.managed.Pairwise fun v w => BackInSlot changes v → BackInSlot changes w →
      ∃ p q, StandsLastAt snapshot v p ∧ StandsLastAt snapshot w q ∧ p < q) ∧
    (order.managed.Pairwise fun v w => v ∉ snapshot → ¬BackInSlot changes w) ∧
    ∀ (fs : FileSystem) (p : Path) (restored : WindowOrder),
      Snapshot.restore fs p = .ok restored →
      ∃ windows, restored = ofChanges (changes ++ [.restore windows]) := by
  intro order snapshot
  have arranged := arranged_ofChanges changes
  refine ⟨nodup_run changes, arranged.apart, arranged.remembered, fun w n => position?_ofChanges,
    fun w => ⟨others_manage order w, others_release order w⟩, arranged.managed, ?_, ?_, ?_⟩
  · refine arranged.sorted.imp fun stood _ back => ?_
    obtain ⟨p, q, first, second, less⟩ := stood back
    exact ⟨p, q, position?_ofChanges.mp first, position?_ofChanges.mp second, less⟩
  · refine arranged.sorted.imp fun stood unlisted back => ?_
    obtain ⟨p, _, first, _⟩ := stood back
    obtain ⟨before, after, split, _⟩ := position?_ofChanges.mp first
    have listed : _ ∈ snapshot := split ▸ List.mem_append_right before List.mem_cons_self
    exact unlisted listed
  · intro fs p restored read
    obtain ⟨_, windows, _, _, same⟩ := restore_eq_apply read order
    exact ⟨windows, same.trans (ofChanges_concat changes _).symm⟩

/-- The snapshot lists window 1 twice. It comes back, is released and managed again, and so is last
with the position 3. A new window 9 follows, and then 3 and 2 go back to their slots. -/
theorem order_is_kept_of_repeated :
    let changes : List Change :=
      [.restore [1, 2, 3, 1], .manage 1, .release 1, .manage 1, .manage 9, .manage 3, .manage 2]
    (ofChanges changes).managed = [2, 3, 1, 9] ∧ (ofChanges changes).position? 1 = some 3 ∧
    BackInSlot changes 2 ∧ BackInSlot changes 3 ∧ ¬BackInSlot changes 9 ∧
      ∃ p q, StandsLastAt [1, 2, 3, 1] 2 p ∧ StandsLastAt [1, 2, 3, 1] 3 q ∧ p < q := by
  intro changes
  have managed : (ofChanges changes).managed = [2, 3, 1, 9] := by decide
  have second : BackInSlot changes 2 :=
    ⟨[.restore [1, 2, 3, 1], .manage 1, .release 1, .manage 1, .manage 9, .manage 3], [], rfl,
      by decide, by decide, by decide⟩
  have third : BackInSlot changes 3 :=
    ⟨[.restore [1, 2, 3, 1], .manage 1, .release 1, .manage 1, .manage 9], [.manage 2], rfl,
      by decide, by decide, by decide⟩
  obtain ⟨_, _, _, _, _, _, sorted, _⟩ := order_is_kept changes
  rw [managed] at sorted
  have first := (List.pairwise_cons.mp sorted).1 3 (by decide) second third
  refine ⟨managed, by decide, second, third, ?_, first⟩
  intro back
  obtain ⟨n, known⟩ := Option.isSome_iff_exists.mp ((arranged_ofChanges changes).known 9 back)
  cases (show (ofChanges changes).position? 9 = none by decide).symm.trans known

end Succession.WindowOrder
