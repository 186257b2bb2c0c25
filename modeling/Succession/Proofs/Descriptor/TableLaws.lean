import Succession.Descriptor.Table
import Succession.Proofs.Descriptor.MapLaws

/-!
# Laws of the descriptor table

Every operation on a descriptor leaves the others alone, and marking an open one for closing changes
nothing but the mark. A replaced image keeps exactly the descriptors that are not marked
(`get?_afterExec`). Making the use of a descriptor nonblocking changes no descriptor at all
(`get?_setNonblocking`): what is marked is the open file, for all that refer to it
(`mem_setNonblocking`, `isNonblocking_iff`). None of these operations makes a number refer to
anything else than before (`PartOf`).
-/

namespace Succession.DescriptorTable

variable {t t' : DescriptorTable} {fd other : Int}

theorem isOpen_iff : t.isOpen fd = true ↔ ∃ d, t.get? fd = some d := Option.isSome_iff_exists

/-- A descriptor refers to an open file. -/
def Opens (t : DescriptorTable) (fd : Int) (file : OpenFile) : Prop :=
  ∃ d, t.get? fd = some d ∧ d.target = file

theorem opens_congr (same : t.get? fd = t'.get? fd) (file : OpenFile) :
    t.Opens fd file ↔ t'.Opens fd file := by
  rw [Opens, Opens, same]

theorem get?_put_self (t : DescriptorTable) (fd : Int) (d : Descriptor) :
    (t.put fd d).get? fd = some d := FdMap.get?_insert_self _ _ _

theorem get?_put_ne (t : DescriptorTable) (d : Descriptor) (differs : other ≠ fd) :
    (t.put fd d).get? other = t.get? other := FdMap.get?_insert_ne _ _ differs

/-- Changing an open descriptor opens and closes none. -/
theorem isOpen_put {d : Descriptor} (found : t.get? fd = some d) (d' : Descriptor) :
    (t.put fd d').isOpen other = t.isOpen other := by
  rw [isOpen, isOpen]
  by_cases same : other = fd
  · rw [same, get?_put_self, found]
    rfl
  · rw [get?_put_ne _ _ same]

theorem get?_close_self (t : DescriptorTable) (fd : Int) : (t.close fd).get? fd = none := by
  refine (FdMap.get?_filter _ fd).trans ?_
  cases t.map.get? fd <;> simp

theorem get?_close_ne (t : DescriptorTable) (differs : other ≠ fd) :
    (t.close fd).get? other = t.get? other := by
  refine (FdMap.get?_filter _ other).trans ?_
  rw [get?]
  cases t.map.get? other <;> simp [differs]

/-- A replaced image keeps the descriptors that are not marked. -/
theorem get?_afterExec (t : DescriptorTable) (fd : Int) :
    t.afterExec.get? fd = (t.get? fd).filter fun d => !d.closeOnExec :=
  FdMap.get?_filter _ fd

/-- Marking fails exactly for a descriptor that is not open. -/
theorem setCloseOnExec_of_get? {d : Descriptor} (found : t.get? fd = some d) (on : Bool) :
    t.setCloseOnExec fd on = .ok (t.put fd { d with closeOnExec := on }) := by
  simp only [setCloseOnExec, found]

theorem setCloseOnExec_of_none (absent : t.get? fd = none) (on : Bool) :
    t.setCloseOnExec fd on = .error .badDescriptor := by
  simp only [setCloseOnExec, absent]

/-! ## Use that does not block -/

theorem isNonblocking_iff :
    t.isNonblocking fd = true ↔ ∃ file, t.Opens fd file ∧ file ∈ t.nonblocking := by
  rw [isNonblocking, Option.any_eq_true]
  constructor
  · rintro ⟨d, found, marked⟩
    exact ⟨d.target, ⟨d, found, rfl⟩, of_decide_eq_true marked⟩
  · rintro ⟨_, ⟨d, found, rfl⟩, marked⟩
    exact ⟨d, found, decide_eq_true marked⟩

theorem get?_setNonblocking (t : DescriptorTable) (fd other : Int) :
    (t.setNonblocking fd).get? other = t.get? other := by
  rw [setNonblocking]
  split <;> rfl

/-- The open file behind the descriptor is marked, and no other. -/
theorem mem_setNonblocking {file : OpenFile} : file ∈ (t.setNonblocking fd).nonblocking ↔
    file ∈ t.nonblocking ∨ t.Opens fd file := by
  rw [setNonblocking, Opens]
  cases found : t.get? fd with
  | none => simp
  | some d => simp [or_comm, eq_comm]

/-- A new open file is what its descriptor refers to, and the others refer to what they did. -/
theorem opens_putOwn {file file' : OpenFile} :
    (t.putOwn fd file).Opens other file' ↔
      other = fd ∧ file' = file ∨ other ≠ fd ∧ t.Opens other file' := by
  rw [Opens, putOwn, get?_setNonblocking]
  by_cases same : other = fd
  · simp [same, get?_put_self, eq_comm]
  · simp [same, get?_put_ne, Opens]

/-- Two descriptors refer to the same open file. -/
def Shares (t : DescriptorTable) (fd other : Int) : Prop :=
  ∃ file, t.Opens fd file ∧ t.Opens other file

/-! ## Parts of a table -/

/-- Every descriptor of the first table refers to the same as the one at its number in the
second. -/
def PartOf (t' t : DescriptorTable) : Prop :=
  ∀ fd d', t'.get? fd = some d' → ∃ d, t.get? fd = some d ∧ d.target = d'.target

namespace PartOf

theorem opens {file : OpenFile} (part : PartOf t' t) (here : t'.Opens fd file) :
    t.Opens fd file := by
  obtain ⟨d', found, rfl⟩ := here
  exact part fd d' found

theorem refl (t : DescriptorTable) : PartOf t t := fun _ d' found => ⟨d', found, rfl⟩

theorem trans {t'' : DescriptorTable} (first : PartOf t'' t') (second : PartOf t' t) :
    PartOf t'' t := by
  intro fd d'' found
  obtain ⟨d', found', same'⟩ := first fd d'' found
  obtain ⟨d, found, same⟩ := second fd d' found'
  exact ⟨d, found, same.trans same'⟩

/-- A descriptor may be replaced by another for the same. -/
theorem put {d d' : Descriptor} (found : t.get? fd = some d) (same : d.target = d'.target) :
    PartOf (t.put fd d') t := by
  intro other d'' here
  by_cases own : other = fd
  · rw [own, get?_put_self] at here
    cases here
    exact ⟨d, own ▸ found, same⟩
  · rw [get?_put_ne t d' own] at here
    exact ⟨d'', here, rfl⟩

theorem close (t : DescriptorTable) (fd : Int) : PartOf (t.close fd) t := by
  intro other d' here
  by_cases own : other = fd
  · rw [own, get?_close_self] at here
    cases here
  · rw [get?_close_ne t own] at here
    exact ⟨d', here, rfl⟩

theorem setCloseOnExec {on : Bool} (marked : t.setCloseOnExec fd on = .ok t') : PartOf t' t := by
  unfold DescriptorTable.setCloseOnExec at marked
  split at marked
  · cases marked
  · next d found =>
    cases marked
    exact put found rfl

theorem setNonblocking (t : DescriptorTable) (fd : Int) : PartOf (t.setNonblocking fd) t :=
  fun other d found => ⟨d, get?_setNonblocking t fd other ▸ found, rfl⟩

theorem afterExec (t : DescriptorTable) : PartOf t.afterExec t := by
  intro fd d here
  rw [get?_afterExec] at here
  exact ⟨d, (Option.filter_eq_some_iff.mp here).1, rfl⟩

end PartOf

end Succession.DescriptorTable
