/-!
# Maps from descriptors

Descriptors are small numbers. A map from them is kept in the order of the numbers, which is the
order in which channels are listed and handed over.
-/

namespace Succession

theorem FdMap.ordered_nil {α : Type} : ([] : List (Int × α)).Pairwise fun a b => a.1 < b.1 := .nil

/-- Values at descriptors, in the order of the descriptors. -/
structure FdMap (α : Type) where
  entries : List (Int × α) := []
  ordered : entries.Pairwise (fun a b => a.1 < b.1) := by exact FdMap.ordered_nil
deriving DecidableEq, Repr

instance {α : Type} : Inhabited (FdMap α) := ⟨{}⟩

namespace FdMap

variable {α β : Type}

/-- The value at a descriptor. -/
def get? (m : FdMap α) (fd : Int) : Option α := m.entries.lookup fd

/-- Whether there is a value at a descriptor. -/
def contains (m : FdMap α) (fd : Int) : Bool := (m.get? fd).isSome

/-- Puts a value into ordered entries, in place of any other at the descriptor. -/
def insertInto (fd : Int) (a : α) : List (Int × α) → List (Int × α)
  | [] => [(fd, a)]
  | (n, b) :: rest =>
    if fd < n then (fd, a) :: (n, b) :: rest
    else if fd = n then (fd, a) :: rest
    else (n, b) :: insertInto fd a rest

theorem fst_mem_insertInto {fd : Int} {a : α} {entries : List (Int × α)} {e : Int × α}
    (member : e ∈ insertInto fd a entries) : e.1 = fd ∨ e ∈ entries := by
  induction entries with
  | nil => exact .inl (congrArg Prod.fst (List.mem_singleton.mp member))
  | cons first rest ih =>
    simp only [insertInto] at member
    split at member
    · rcases List.mem_cons.mp member with rfl | member
      · exact .inl rfl
      · exact .inr member
    · split at member
      · rcases List.mem_cons.mp member with rfl | member
        · exact .inl rfl
        · exact .inr (List.mem_cons_of_mem _ member)
      · rcases List.mem_cons.mp member with rfl | member
        · exact .inr List.mem_cons_self
        · exact (ih member).imp_right (List.mem_cons_of_mem _)

theorem ordered_insertInto {fd : Int} {a : α} {entries : List (Int × α)}
    (ordered : entries.Pairwise fun a b => a.1 < b.1) :
    (insertInto fd a entries).Pairwise fun a b => a.1 < b.1 := by
  induction entries with
  | nil => exact List.pairwise_singleton _ _
  | cons first rest ih =>
    obtain ⟨above, later⟩ := List.pairwise_cons.mp ordered
    simp only [insertInto]
    split
    · next below =>
      refine List.pairwise_cons.mpr ⟨fun e member => ?_, ordered⟩
      rcases List.mem_cons.mp member with rfl | member
      · exact below
      · exact Int.lt_trans below (above e member)
    · split
      · next same =>
        subst same
        exact List.pairwise_cons.mpr ⟨above, later⟩
      · next notBelow differs =>
        refine List.pairwise_cons.mpr ⟨fun e member => ?_, ih later⟩
        rcases fst_mem_insertInto member with same | member
        · show first.1 < e.1
          omega
        · exact above e member

/-- The map with a value at a descriptor. -/
def insert (m : FdMap α) (fd : Int) (a : α) : FdMap α :=
  ⟨insertInto fd a m.entries, ordered_insertInto m.ordered⟩

/-- The entries that satisfy a condition. -/
def filter (m : FdMap α) (kept : Int → α → Bool) : FdMap α :=
  ⟨m.entries.filter fun (n, a) => kept n a, m.ordered.filter _⟩

/-- The map without a value at a descriptor. -/
def erase (m : FdMap α) (fd : Int) : FdMap α := m.filter fun n _ => n ≠ fd

/-- The map with every value changed. -/
def map (m : FdMap α) (f : Int → α → β) : FdMap β :=
  ⟨m.entries.map fun (n, a) => (n, f n a), List.pairwise_map.mpr m.ordered⟩

/-- The map with the value at a descriptor changed. -/
def modify (m : FdMap α) (fd : Int) (f : α → α) : FdMap α :=
  m.map fun n a => if n = fd then f a else a

/-- The descriptors in order. -/
def fds (m : FdMap α) : List Int := m.entries.map (·.1)

/-- The values in the order of their descriptors. -/
def values (m : FdMap α) : List α := m.entries.map (·.2)

/-- How many values there are. -/
def size (m : FdMap α) : Nat := m.entries.length

theorem get?_insert_self (m : FdMap α) (fd : Int) (a : α) : (m.insert fd a).get? fd = some a := by
  unfold insert get?
  simp only
  induction m.entries with
  | nil => simp [insertInto]
  | cons e rest ih =>
    obtain ⟨n, b⟩ := e
    simp only [insertInto]
    split
    · simp
    · split
      · simp
      · next h₁ h₂ =>
        have differs : (fd == n) = false := by simpa using h₂
        simp [List.lookup_cons, differs, ih]

theorem get?_insert_ne (m : FdMap α) {fd other : Int} (a : α) (h : other ≠ fd) :
    (m.insert fd a).get? other = m.get? other := by
  unfold insert get?
  simp only
  have differs : (other == fd) = false := by simpa using h
  induction m.entries with
  | nil => simp [insertInto, List.lookup_cons, differs]
  | cons e rest ih =>
    obtain ⟨n, b⟩ := e
    simp only [insertInto]
    split
    · simp [List.lookup_cons, differs]
    · split
      · next h₂ => subst h₂; simp [List.lookup_cons, differs]
      · simp [List.lookup_cons, ih]

end FdMap

end Succession
