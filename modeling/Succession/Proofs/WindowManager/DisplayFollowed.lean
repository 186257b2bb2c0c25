import Succession.Proofs.Chronicle
import Succession.Proofs.Window.SlotInvariant
import Succession.WindowManager.Display

/-!
# The managed windows are the ones on display

The manager hears of windows that ask to be shown, that were hidden and that are gone. It may hear
of the same window again and again, and of the same change twice.

1. One event does one of five things (`Did`, `did_follow`). How windows are adopted is left open,
   and a record of the adoptions changes nothing (`follow_noted`).
2. A window comes to be managed by an adoption, and stays so until an event takes it away: so it is
   for one event (`mem_of_did`), and from there along a sequence (`mem_heard`).
3. Windows that are managed all the time keep their order (`filter_of_did`, `filter_heard`).

All of it comes together in `managed_windows_follow_display`. The manager follows the events in this
way, with its own way to adopt windows (`followEvents_eq`).
-/

namespace Succession

/-- Whether an event takes a window off the display, where `root` is the root window. -/
def DisplayEvent.takesAway (root w : WindowId) : DisplayEvent → Bool
  | unmap event v => event = root && v = w
  | destroy _ v => v = w
  | mapRequest _ | other | error _ => false

namespace WindowOrder

variable {σ : Type} {root v w : WindowId} {adopt : WindowId → σ → Except Fault Unit × σ}
  {order order' : WindowOrder} {s t : σ} {e : DisplayEvent} {events : List DisplayEvent}

/-- The order after a sequence of events. -/
def followAll (root : WindowId) (adopt : WindowId → σ → Except Fault Unit × σ)
    (events : List DisplayEvent) (order : WindowOrder) (s : σ) : WindowOrder × σ :=
  events.foldl (fun now e => now.1.follow root adopt e now.2) (order, s)

/-- The adoptions so far, each with its window and its outcome. -/
abbrev Adoptions (σ : Type) := Chronicle σ (WindowId × Except Fault Unit)

/-- The same way to adopt windows, with a record of what was adopted. -/
def noted (adopt : WindowId → σ → Except Fault Unit × σ) (w : WindowId) (c : Adoptions σ) :
    Except Fault Unit × Adoptions σ :=
  let (outcome, next) := adopt w c.now
  (outcome, c.note (w, outcome) next)

theorem followAll_concat (events : List DisplayEvent) (e : DisplayEvent) :
    followAll root adopt (events ++ [e]) order s =
      (followAll root adopt events order s).1.follow root adopt e
        (followAll root adopt events order s).2 := by
  unfold followAll
  rw [List.foldl_append]
  rfl

/-! ## 1. One event -/

theorem takesAway_unique (first : e.takesAway root v = true) (second : e.takesAway root w = true) :
    v = w := by
  cases e with
  | unmap event u =>
    simp only [DisplayEvent.takesAway, Bool.and_eq_true, decide_eq_true_eq] at first second
    exact first.2.symm.trans second.2
  | destroy event u =>
    simp only [DisplayEvent.takesAway, decide_eq_true_eq] at first second
    exact first.symm.trans second
  | mapRequest u => cases first
  | other => cases first
  | error code => cases first

/-- What an event can do to an order, and to the state of those who adopt windows. -/
inductive Did (root : WindowId) (adopt : WindowId → σ → Except Fault Unit × σ) (order : WindowOrder)
    (s : σ) : DisplayEvent → WindowOrder → σ → Prop
  | adopted {w : WindowId} {t : σ} : w ∉ order.managed → adopt w s = (.ok (), t) →
      Did root adopt order s (.mapRequest w) (order.manage w) t
  | refused {w : WindowId} {t : σ} {fault : Fault} : w ∉ order.managed →
      adopt w s = (.error fault, t) → Did root adopt order s (.mapRequest w) order t
  | again {w : WindowId} : w ∈ order.managed → Did root adopt order s (.mapRequest w) order s
  | tookAway {e : DisplayEvent} {w : WindowId} : e.takesAway root w = true →
      Did root adopt order s e (order.release w) s
  | ignored {e : DisplayEvent} : (∀ w, e ≠ .mapRequest w) → (∀ w, e.takesAway root w = false) →
      Did root adopt order s e order s

theorem did_accept (root : WindowId) (adopt : WindowId → σ → Except Fault Unit × σ) (w : WindowId)
    (order : WindowOrder) (s : σ) :
    Did root adopt order s (.mapRequest w) (order.accept adopt w s).1
      (order.accept adopt w s).2 := by
  unfold accept
  by_cases member : w ∈ order.managed
  · rw [if_pos (show order.isManaged w = true from decide_eq_true member)]
    exact .again member
  · rw [if_neg (by simpa [isManaged] using member)]
    split
    · next t done => exact .adopted member done
    · next fault t failed => exact .refused member failed

theorem did_follow (root : WindowId) (adopt : WindowId → σ → Except Fault Unit × σ)
    (e : DisplayEvent) (order : WindowOrder) (s : σ) :
    Did root adopt order s e (order.follow root adopt e s).1 (order.follow root adopt e s).2 := by
  cases e with
  | mapRequest w => exact did_accept root adopt w order s
  | unmap event w =>
    simp only [follow]
    by_cases onRoot : event = root
    · rw [if_pos onRoot]
      exact .tookAway (by simp [DisplayEvent.takesAway, onRoot])
    · rw [if_neg onRoot]
      refine .ignored (fun w named => by cases named) fun w => ?_
      simp [DisplayEvent.takesAway, onRoot]
  | destroy event w => exact .tookAway (decide_eq_true rfl)
  | other => exact .ignored (fun w named => by cases named) fun w => rfl
  | error code => exact .ignored (fun w named => by cases named) fun w => rfl

/-- The record changes nothing. -/
theorem follow_noted (e : DisplayEvent) (order : WindowOrder) (c : Adoptions σ) :
    (order.follow root (noted adopt) e c).map id Chronicle.now =
      order.follow root adopt e c.now := by
  cases e with
  | mapRequest w =>
    simp only [follow, accept, noted]
    split
    · rfl
    · cases adopt w c.now with
      | mk outcome next =>
        cases outcome with
        | ok done => rfl
        | error fault => rfl
  | unmap event w =>
    simp only [follow]
    split <;> rfl
  | destroy event w => rfl
  | other => rfl
  | error code => rfl

/-! ## 2. The adoptions -/

/-- Between two moments a window was adopted, and no other was tried. -/
def AdoptedBy (w : WindowId) (before after : Adoptions σ) : Prop :=
  after.calls = before.calls ++ [(w, .ok ())]

theorem noted_eq {c c' : Adoptions σ} {outcome : Except Fault Unit}
    (called : noted adopt w c = (outcome, c')) :
    (adopt w c.now).1 = outcome ∧ c'.calls = c.calls ++ [(w, outcome)] := by
  cases called
  exact ⟨rfl, c.calls_extend _ _⟩

theorem not_adoptedBy_self (w : WindowId) (c : Adoptions σ) : ¬AdoptedBy w c c := by
  intro adopted
  exact List.cons_ne_nil _ _ (List.self_eq_append_right.mp adopted)

theorem adoptedBy_iff {c c' : Adoptions σ} {outcome : Except Fault Unit}
    (noted : c'.calls = c.calls ++ [(v, outcome)]) :
    AdoptedBy w c c' ↔ v = w ∧ outcome = .ok () := by
  rw [AdoptedBy, noted, List.append_cancel_left_eq, List.cons.injEq, Prod.mk.injEq]
  exact and_iff_left rfl

/-- The windows that are managed after an event. -/
theorem mem_of_did {c c' : Adoptions σ} (did : Did root (noted adopt) order c e order' c') :
    w ∈ order'.managed ↔ (e = .mapRequest w ∧ AdoptedBy w c c') ∨
      (w ∈ order.managed ∧ e.takesAway root w = false) := by
  have kept : w ∈ order.managed ↔ (e = .mapRequest w ∧ AdoptedBy w c c) ∨ w ∈ order.managed :=
    (or_iff_right fun adopted => not_adoptedBy_self w c adopted.2).symm
  cases did with
  | @adopted v _ absent done =>
    rw [mem_manage, DisplayEvent.mapRequest.injEq, adoptedBy_iff (noted_eq done).2]
    simp [DisplayEvent.takesAway, eq_comm]
  | @refused v _ fault absent failed =>
    rw [adoptedBy_iff (noted_eq failed).2]
    simp [DisplayEvent.takesAway]
  | again member => simpa [DisplayEvent.takesAway] using kept
  | @tookAway e v away =>
    have noRequest : e ≠ .mapRequest w := by
      rintro rfl
      cases away
    have same : e.takesAway root w = false ↔ w ≠ v := by
      rw [Bool.eq_false_iff]
      refine not_congr ⟨fun other => takesAway_unique other away, ?_⟩
      rintro rfl
      exact away
    rw [same, or_iff_right fun asked => noRequest asked.1]
    simp [release]
  | ignored noRequest stays => simpa [stays w] using kept

/-- A window that asks to be shown and is not managed is asked for, once. -/
theorem calls_of_asked {c c' : Adoptions σ}
    (did : Did root (noted adopt) order c (.mapRequest w) order' c') (absent : w ∉ order.managed) :
    c'.calls = c.calls ++ [(w, (adopt w c.now).1)] := by
  cases did with
  | adopted _ done =>
    obtain ⟨outcome, more⟩ := noted_eq done
    rw [more, outcome]
  | refused _ failed =>
    obtain ⟨outcome, more⟩ := noted_eq failed
    rw [more, outcome]
  | again member => exact absurd member absent
  | tookAway away => cases away
  | ignored noRequest _ => exact absurd rfl (noRequest w)

/-- At any other event nothing is adopted. -/
theorem eq_of_idle {c c' : Adoptions σ} (did : Did root (noted adopt) order c e order' c')
    (idle : ∀ w, e = .mapRequest w → w ∈ order.managed) : c' = c := by
  cases did with
  | adopted absent _ => exact absurd (idle _ rfl) absent
  | refused absent _ => exact absurd (idle _ rfl) absent
  | again _ => rfl
  | tookAway _ => rfl
  | ignored _ _ => rfl

/-- The order changes only with an adoption and where a window is taken away. -/
theorem changed_of_did {c c' : Adoptions σ} (did : Did root (noted adopt) order c e order' c')
    (changed : order' ≠ order) :
    (∃ w, e = .mapRequest w ∧ AdoptedBy w c c') ∨ ∃ w, e.takesAway root w = true := by
  cases did with
  | @adopted w _ _ done => exact .inl ⟨w, rfl, (adoptedBy_iff (noted_eq done).2).mpr ⟨rfl, rfl⟩⟩
  | refused _ _ => exact absurd rfl changed
  | again _ => exact absurd rfl changed
  | @tookAway _ w away => exact .inr ⟨w, away⟩
  | ignored _ _ => exact absurd rfl changed

/-- A sequence of events, heard from the beginning, with the adoptions that it leads to. -/
def heard (root : WindowId) (adopt : WindowId → σ → Except Fault Unit × σ) (order : WindowOrder)
    (s : σ) (events : List DisplayEvent) : WindowOrder × Adoptions σ :=
  followAll root (noted adopt) events order ⟨s, []⟩

/-- At some event a window asked to be shown and was adopted, and none since took it away. -/
def ShownSince (root : WindowId) (adopt : WindowId → σ → Except Fault Unit × σ)
    (order : WindowOrder) (s : σ) (events : List DisplayEvent) (w : WindowId) : Prop :=
  ∃ before since, events = before ++ .mapRequest w :: since ∧
    AdoptedBy w (heard root adopt order s before).2
      (heard root adopt order s (before ++ [.mapRequest w])).2 ∧
    ∀ e ∈ since, e.takesAway root w = false

/-- One more event does to the order what it does. -/
theorem did_concat (root : WindowId) (adopt : WindowId → σ → Except Fault Unit × σ)
    (order : WindowOrder) (s : σ) (events : List DisplayEvent) (e : DisplayEvent) :
    Did root (noted adopt) (heard root adopt order s events).1 (heard root adopt order s events).2
      e (heard root adopt order s (events ++ [e])).1
      (heard root adopt order s (events ++ [e])).2 := by
  unfold heard
  rw [followAll_concat]
  exact did_follow _ _ _ _ _

/-- The record changes nothing, however many events there are. -/
theorem heard_eq (root : WindowId) (adopt : WindowId → σ → Except Fault Unit × σ)
    (order : WindowOrder) (s : σ) (events : List DisplayEvent) :
    (heard root adopt order s events).map id Chronicle.now =
      followAll root adopt events order s := by
  induction events using List.reverseRecOn with
  | nil => rfl
  | append_singleton events e ih =>
    rw [followAll_concat, ← ih, heard, followAll_concat]
    exact follow_noted e _ _

theorem shownSince_concat :
    ShownSince root adopt order s (events ++ [e]) w ↔
      (e = .mapRequest w ∧ AdoptedBy w (heard root adopt order s events).2
        (heard root adopt order s (events ++ [e])).2) ∨
      (ShownSince root adopt order s events w ∧ e.takesAway root w = false) := by
  constructor
  · rintro ⟨before, since, split, adopted, stays⟩
    rcases List.eq_nil_or_concat since with rfl | ⟨more, last, rfl⟩
    · obtain ⟨rfl, same⟩ := List.append_inj' split rfl
      obtain rfl := List.singleton_inj.mp same
      exact .inl ⟨rfl, adopted⟩
    · rw [List.concat_eq_append] at split stays
      rw [← List.cons_append, ← List.append_assoc] at split
      obtain ⟨rfl, same⟩ := List.append_inj' split rfl
      obtain rfl := List.singleton_inj.mp same
      obtain ⟨earlier, latest⟩ := List.forall_mem_append.mp stays
      exact .inr ⟨⟨before, more, rfl, adopted, earlier⟩, latest e (List.mem_singleton_self e)⟩
  · rintro (⟨rfl, adopted⟩ | ⟨⟨before, since, rfl, adopted, earlier⟩, latest⟩)
    · exact ⟨events, [], rfl, adopted, List.forall_mem_nil _⟩
    · refine ⟨before, since ++ [e], ?_, adopted, ?_⟩
      · rw [List.append_assoc, List.cons_append]
      · exact List.forall_mem_append.mpr ⟨earlier, List.forall_mem_singleton.mpr latest⟩

/-- The windows that are managed after a sequence of events. -/
theorem mem_heard (w : WindowId) (events : List DisplayEvent) :
    w ∈ (heard root adopt order s events).1.managed ↔
      ShownSince root adopt order s events w ∨
      (w ∈ order.managed ∧ ∀ e ∈ events, e.takesAway root w = false) := by
  induction events using List.reverseRecOn with
  | nil =>
    have none : ¬ShownSince root adopt order s [] w := by
      rintro ⟨before, since, split, _⟩
      cases before <;> cases split
    rw [or_iff_right none]
    exact (and_iff_left (List.forall_mem_nil _)).symm
  | append_singleton events e ih =>
    have throughout : (∀ e' ∈ events ++ [e], e'.takesAway root w = false) ↔
        (∀ e' ∈ events, e'.takesAway root w = false) ∧ e.takesAway root w = false := by
      rw [List.forall_mem_append, List.forall_mem_singleton]
    rw [mem_of_did (did_concat root adopt order s events e), ih, shownSince_concat, throughout,
      or_and_right, or_assoc, and_assoc]

/-! ## 3. The order of the others -/

/-- Two lists that differ in one window only agree on those that do not include it. -/
theorem filter_of_others {windows others : List WindowId} {kept : WindowId → Bool}
    (agree : windows.filter (· ≠ v) = others.filter (· ≠ v)) (left : kept v = false) :
    windows.filter kept = others.filter kept := by
  have apart (windows : List WindowId) :
      windows.filter kept = (windows.filter (· ≠ v)).filter kept := by
    rw [List.filter_filter]
    refine List.filter_congr fun w _ => ?_
    by_cases same : w = v
    · rw [same, left]
      rfl
    · simp [same]
  rw [apart windows, apart others, agree]

theorem filter_of_did {kept : WindowId → Bool} (did : Did root adopt order s e order' t)
    (before : ∀ w, kept w = true → w ∈ order.managed)
    (after : ∀ w, kept w = true → w ∈ order'.managed) :
    order'.managed.filter kept = order.managed.filter kept := by
  cases did with
  | @adopted v _ absent _ =>
    refine filter_of_others (others_manage order v) (Bool.eq_false_iff.mpr fun throughout => ?_)
    exact absent (before v throughout)
  | refused _ _ => rfl
  | again _ => rfl
  | @tookAway _ v _ =>
    refine filter_of_others (others_release order v) (Bool.eq_false_iff.mpr fun throughout => ?_)
    have member := after v throughout
    simp [release] at member
  | ignored _ _ => rfl

/-- Windows that are managed all the time keep their order. -/
theorem filter_heard {kept : WindowId → Bool}
    (throughout : ∀ front, front <+: events → ∀ w, kept w = true →
      w ∈ (heard root adopt order s front).1.managed) :
    (heard root adopt order s events).1.managed.filter kept = order.managed.filter kept := by
  induction events using List.reverseRecOn with
  | nil => rfl
  | append_singleton events e ih =>
    have shorter : events <+: events ++ [e] := List.prefix_append events [e]
    rw [filter_of_did (did_concat root adopt order s events e) (throughout events shorter)
      (throughout (events ++ [e]) List.prefix_rfl)]
    exact ih fun front part => throughout front (part.trans shorter)

end WindowOrder

namespace WindowManager

theorem root_followEvent (e : DisplayEvent) (m : WindowManager) :
    (m.followEvent e).connection.root = m.connection.root := by
  cases e with
  | mapRequest w =>
    simp only [followEvent, WindowOrder.follow, WindowOrder.accept]
    split <;> rfl
  | unmap event w =>
    simp only [followEvent, WindowOrder.follow]
    split <;> rfl
  | destroy event w => rfl
  | other => rfl
  | error code => rfl

/-- The manager follows events with its own way to adopt windows. -/
theorem followEvents_eq (events : List DisplayEvent) (m : WindowManager) :
    let after := events.foldl (fun m e => m.followEvent e) m
    (after.order, after.connection) =
      m.order.followAll m.connection.root watchAndShow events m.connection := by
  induction events generalizing m with
  | nil => rfl
  | cons e events ih =>
    have rest := ih (m.followEvent e)
    rw [root_followEvent] at rest
    exact rest

end WindowManager

namespace WindowOrder

/-- **The managed windows follow the display.** Take any order, any way to adopt windows, which may
succeed or fail in any state, and any sequence of events. `after front` is what the events `front`
lead to, with a record of the windows that were to be adopted, each with the outcome.

* The record changes nothing; and the manager that deals with the events goes through the same
  orders, with its own way to adopt windows.
* A window is managed in the end if it was adopted when it asked to be shown and none of the events
  since then took it away, or if it was managed at first and no event took it away; and only then.
  It is taken away where it is gone, and where it is hidden as reported on the root window.
* A window is to be adopted where it asks to be shown and is not managed at that moment, and nowhere
  else.
* An event that leads to no adoption and takes no window away leaves the order alone.
* Windows that are managed all the time keep their order. -/
theorem managed_windows_follow_display (root : WindowId)
    (adopt : WindowId → σ → Except Fault Unit × σ) (order : WindowOrder) (s : σ)
    (events : List DisplayEvent) :
    let after := heard root adopt order s
    (after events).map id Chronicle.now = followAll root adopt events order s ∧
    (∀ m : WindowManager,
      let dealt := events.foldl (fun m e => m.followEvent e) m
      (dealt.order, dealt.connection) =
        followAll m.connection.root WindowManager.watchAndShow events m.order m.connection) ∧
    (∀ w, w ∈ (after events).1.managed ↔
      (∃ before since, events = before ++ .mapRequest w :: since ∧
        (after (before ++ [.mapRequest w])).2.calls = (after before).2.calls ++ [(w, .ok ())] ∧
        ∀ e ∈ since, e.takesAway root w = false) ∨
      (w ∈ order.managed ∧ ∀ e ∈ events, e.takesAway root w = false)) ∧
    (∀ front e, front ++ [e] <+: events →
      (∀ w, e = .mapRequest w → w ∉ (after front).1.managed →
        (after (front ++ [e])).2.calls =
          (after front).2.calls ++ [(w, (adopt w (after front).2.now).1)]) ∧
      ((∀ w, e = .mapRequest w → w ∈ (after front).1.managed) →
        (after (front ++ [e])).2 = (after front).2) ∧
      ((after (front ++ [e])).1 ≠ (after front).1 →
        (∃ w, e = .mapRequest w ∧
          (after (front ++ [e])).2.calls = (after front).2.calls ++ [(w, .ok ())]) ∨
        ∃ w, e.takesAway root w = true)) ∧
    ∀ kept : WindowId → Bool,
      (∀ front, front <+: events → ∀ w, kept w = true → w ∈ (after front).1.managed) →
      (after events).1.managed.filter kept = order.managed.filter kept := by
  intro after
  refine ⟨heard_eq root adopt order s events, WindowManager.followEvents_eq events,
    fun w => mem_heard w events, ?_, fun kept throughout => filter_heard throughout⟩
  intro front e _
  have did := did_concat root adopt order s front e
  refine ⟨?_, eq_of_idle did, changed_of_did did⟩
  rintro w rfl absent
  exact calls_of_asked did absent

/-- Window 1 is the root; 5, 6 and 4 are managed at first, and 7 cannot be adopted. Window 6 is
hidden, as reported on itself and then on the root, and shown again; 3 asks twice. -/
theorem managed_windows_follow_display_of_repeated :
    let adopt (w : WindowId) (count : Nat) : Except Fault Unit × Nat :=
      (if w = 7 then .error .connection else .ok (), count + 1)
    let order : WindowOrder := { managed := [5, 6, 4] }
    let events : List DisplayEvent :=
      [.mapRequest 3, .mapRequest 7, .unmap 6 6, .mapRequest 3, .unmap 1 6, .other, .destroy 6 8,
        .mapRequest 6]
    let after := heard 1 adopt order 0
    let kept (w : WindowId) : Bool := w = 4 || w = 5
    (after events).1.managed = [5, 4, 3, 6] ∧
    (after events).2.calls = [(3, .ok ()), (7, .error .connection), (6, .ok ())] ∧
    (after (events.take 4)).1.managed = [5, 6, 4, 3] ∧
    (∃ before since, events = before ++ .mapRequest 6 :: since ∧
      (after (before ++ [.mapRequest 6])).2.calls = (after before).2.calls ++ [(6, .ok ())] ∧
      ∀ e ∈ since, e.takesAway 1 6 = false) ∧
    (after events).1.managed.filter kept = order.managed.filter kept := by
  intro adopt order events after kept
  have managed : (after events).1.managed = [5, 4, 3, 6] := by decide
  have stay : ∀ w, kept w = true → w ∈ order.managed ∧ ∀ e ∈ events, e.takesAway 1 w = false := by
    intro w either
    obtain rfl | rfl : w = 4 ∨ w = 5 := by simpa [kept] using either
    · decide
    · decide
  obtain ⟨_, _, shown, _, sorted⟩ := managed_windows_follow_display 1 adopt order 0 events
  refine ⟨managed, by decide, by decide, ?_, sorted kept ?_⟩
  · refine ((shown 6).mp (managed ▸ by decide)).resolve_right fun always => ?_
    exact absurd always.2 (by decide)
  · intro front part w either
    obtain ⟨member, never⟩ := stay w either
    exact (mem_heard w front).mpr (.inr ⟨member, fun e among => never e (part.subset among)⟩)

end WindowOrder

end Succession
