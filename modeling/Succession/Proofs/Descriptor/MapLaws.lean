import Succession.Descriptor.Map

/-!
# Laws of maps from descriptors

A map is its entries: what stands at a descriptor is the only entry there (`mem_entries_iff`), so
looking up commutes with filtering and with changing all values (`get?_map_filter`), and maps that
agree at every descriptor are the same (`ext_get?`). Putting ordered entries one after another into
a map is the map of them (`foldl_insert`).
-/

namespace Succession.FdMap

variable {α β : Type} {m : FdMap α}

theorem lookup_of_mem {entries : List (Int × α)} (ordered : entries.Pairwise fun a b => a.1 < b.1)
    {fd : Int} {a : α} (member : (fd, a) ∈ entries) : entries.lookup fd = some a := by
  induction entries with
  | nil => cases member
  | cons first rest ih =>
    obtain ⟨n, b⟩ := first
    obtain ⟨above, later⟩ := List.pairwise_cons.mp ordered
    rcases List.mem_cons.mp member with same | member
    · cases same
      simp
    · have differs : (fd == n) = false := by
        have := above _ member
        simp only [beq_eq_false_iff_ne]
        omega
      rw [List.lookup_cons, differs]
      exact ih later member

theorem mem_of_lookup {entries : List (Int × α)} {fd : Int} {a : α}
    (found : entries.lookup fd = some a) : (fd, a) ∈ entries := by
  induction entries with
  | nil => cases found
  | cons first rest ih =>
    obtain ⟨n, b⟩ := first
    rw [List.lookup_cons] at found
    split at found
    · next same =>
      rw [eq_of_beq same, ← Option.some.inj found]
      exact List.mem_cons_self
    · exact List.mem_cons_of_mem _ (ih found)

/-- What stands at a descriptor is the entry of that descriptor. -/
theorem mem_entries_iff {fd : Int} {a : α} : (fd, a) ∈ m.entries ↔ m.get? fd = some a :=
  ⟨lookup_of_mem m.ordered, mem_of_lookup⟩

theorem contains_eq_false_iff {fd : Int} : m.contains fd = false ↔ m.get? fd = none := by
  rw [contains, Option.isSome_eq_false_iff, Option.isNone_iff_eq_none]

theorem contains_insert (fd other : Int) (a : α) :
    (m.insert fd a).contains other = (decide (other = fd) || m.contains other) := by
  by_cases same : other = fd
  · subst same
    simp [contains, get?_insert_self]
  · simp [contains, get?_insert_ne m a same, same]

theorem get?_filter (kept : Int → α → Bool) (fd : Int) :
    (m.filter kept).get? fd = (m.get? fd).filter (kept fd) := by
  cases found : m.get? fd with
  | none =>
    rw [Option.filter_none]
    cases left : (m.filter kept).get? fd with
    | none => rfl
    | some a =>
      have member := (List.mem_filter.mp (mem_entries_iff.mpr left)).1
      rw [mem_entries_iff.mp member] at found
      cases found
  | some a =>
    have member := mem_entries_iff.mpr found
    cases keep : kept fd a with
    | true =>
      rw [Option.filter_some_pos keep]
      exact mem_entries_iff.mp (List.mem_filter.mpr ⟨member, keep⟩)
    | false =>
      rw [Option.filter_some_neg (by simp [keep])]
      cases left : (m.filter kept).get? fd with
      | none => rfl
      | some b =>
        obtain ⟨stood, keep'⟩ := List.mem_filter.mp (mem_entries_iff.mpr left)
        rw [mem_entries_iff.mp stood] at found
        cases found
        exact absurd keep' (by simp [keep])

theorem get?_map (f : Int → α → β) (fd : Int) : (m.map f).get? fd = (m.get? fd).map (f fd) := by
  cases found : m.get? fd with
  | none =>
    cases left : (m.map f).get? fd with
    | none => rfl
    | some b =>
      obtain ⟨⟨n, a⟩, member, same⟩ := List.mem_map.mp (mem_entries_iff.mpr left)
      cases same
      rw [mem_entries_iff.mp member] at found
      cases found
  | some a => exact mem_entries_iff.mp (List.mem_map.mpr ⟨(fd, a), mem_entries_iff.mpr found, rfl⟩)

/-- Of the descriptors that are kept, with all values changed. -/
theorem get?_map_filter (kept : Int → Bool) (f : α → β) (fd : Int) :
    ((m.filter fun fd _ => kept fd).map fun _ => f).get? fd =
      if kept fd then (m.get? fd).map f else none := by
  rw [get?_map, get?_filter]
  cases kept fd <;> cases m.get? fd <;> rfl

/-- Two maps with the same entries are the same. -/
theorem ext {m m' : FdMap α} (same : m.entries = m'.entries) : m = m' := by
  cases m
  cases m'
  cases same
  rfl

/-- Two maps that hold the same at every descriptor are the same. -/
theorem ext_get? {m m' : FdMap α} (same : ∀ fd, m.get? fd = m'.get? fd) : m = m' := by
  have distinct (m : FdMap α) : m.entries.Nodup :=
    m.ordered.imp fun {a b} below (equal : a = b) => Int.lt_irrefl a.1 (equal ▸ below)
  have together : m.entries.Perm m'.entries := by
    refine (List.perm_ext_iff_of_nodup (distinct m) (distinct m')).mpr fun (fd, a) => ?_
    rw [mem_entries_iff, mem_entries_iff, same]
  refine ext (together.eq_of_pairwise ?_ m.ordered m'.ordered)
  intro a b _ _ below above
  exact absurd (Int.lt_trans below above) (Int.lt_irrefl _)

/-- A value at a new descriptor is one more. -/
theorem size_insert {fd : Int} (absent : m.get? fd = none) (a : α) :
    (m.insert fd a).size = m.size + 1 := by
  have longer (entries : List (Int × α)) (absent : entries.lookup fd = none) :
      (insertInto fd a entries).length = entries.length + 1 := by
    induction entries with
    | nil => rfl
    | cons first rest ih =>
      obtain ⟨n, b⟩ := first
      rw [List.lookup_cons] at absent
      split at absent
      · cases absent
      · next differs =>
        have apart : fd ≠ n := by simpa using differs
        rw [insertInto, if_neg apart]
        split
        · rfl
        · rw [List.length_cons, ih absent, List.length_cons]
  exact longer m.entries absent

theorem filter_eq_self {kept : Int → α → Bool} (all : ∀ e ∈ m.entries, kept e.1 e.2 = true) :
    m.filter kept = m := ext (List.filter_eq_self.mpr all)

/-- Changing all values once more changes nothing, if it does so for each. -/
theorem map_map_self (m : FdMap α) (f : α → α) (idempotent : ∀ a, f (f a) = f a) :
    (m.map fun _ => f).map (fun _ => f) = m.map fun _ => f := by
  refine ext ?_
  simp only [map, List.map_map]
  refine List.map_congr_left fun e _ => ?_
  simp only [Function.comp, idempotent]

theorem insertInto_above {fd : Int} (a : α) {entries : List (Int × α)}
    (above : ∀ e ∈ entries, e.1 < fd) : insertInto fd a entries = entries ++ [(fd, a)] := by
  induction entries with
  | nil => rfl
  | cons first rest ih =>
    obtain ⟨n, b⟩ := first
    have below : n < fd := above (n, b) List.mem_cons_self
    rw [insertInto, if_neg (by omega), if_neg (by omega),
      ih fun e member => above e (List.mem_cons_of_mem _ member)]
    rfl

theorem foldl_insert_above (f : Int → α → β) {entries : List (Int × α)}
    (ordered : entries.Pairwise fun a b => a.1 < b.1) (done : FdMap β)
    (above : ∀ d ∈ done.entries, ∀ e ∈ entries, d.1 < e.1) :
    (entries.foldl (fun done e => done.insert e.1 (f e.1 e.2)) done).entries =
      done.entries ++ entries.map fun (n, a) => (n, f n a) := by
  induction entries generalizing done with
  | nil => simp
  | cons first rest ih =>
    obtain ⟨below, later⟩ := List.pairwise_cons.mp ordered
    have placed : (done.insert first.1 (f first.1 first.2)).entries =
        done.entries ++ [(first.1, f first.1 first.2)] :=
      insertInto_above _ fun d member => above d member first List.mem_cons_self
    rw [List.foldl_cons, ih later, placed, List.append_assoc]
    · rfl
    · intro d member e after
      rw [placed] at member
      rcases List.mem_append.mp member with member | member
      · exact above d member e (List.mem_cons_of_mem _ after)
      · rw [List.mem_singleton.mp member]
        exact below e after

/-- Putting the entries of a map one after another into an empty one. -/
theorem foldl_insert (f : Int → α → β) (m : FdMap α) :
    m.entries.foldl (fun done e => done.insert e.1 (f e.1 e.2)) {} = m.map f :=
  ext (foldl_insert_above f m.ordered {} nofun)

end Succession.FdMap
