import Succession.Process.Host
import Succession.Proofs.Descriptor.TableLaws

/-!
# Which connection stands where

Each connection stands at one descriptor at most, and one that waits to be accepted stands at none
(`Wired`). This is so in any process that got its connections from the system, and it stays so as
long as descriptors are only closed or marked (`Wired.mono`).
-/

namespace Succession

/-! ## 1. Connections -/

namespace StreamPool

/-- The numbers of the connections that were made. -/
def ids (pool : StreamPool) : List Nat := pool.entries.map (·.1)

theorem ids_modify (pool : StreamPool) (id : Nat) (f : Stream → Stream) :
    (pool.modify id f).ids = pool.ids := by
  simp [ids, modify, Function.comp_def]

theorem lookup_modify (entries : List (Nat × Stream)) (id other : Nat) (f : Stream → Stream) :
    (entries.map fun (n, s) => (n, if n = id then f s else s)).lookup other =
      (entries.lookup other).map fun s => if other = id then f s else s := by
  induction entries with
  | nil => rfl
  | cons first rest ih =>
    obtain ⟨n, s⟩ := first
    rw [List.map_cons, List.lookup_cons, List.lookup_cons]
    cases here : other == n with
    | true =>
      rw [eq_of_beq here]
      rfl
    | false => exact ih

theorem get_modify_ne (pool : StreamPool) {id other : Nat} (f : Stream → Stream)
    (differs : other ≠ id) : (pool.modify id f).get other = pool.get other := by
  simp only [get, modify, lookup_modify, if_neg differs, Option.map_id_fun', id_eq]

theorem isSome_lookup {entries : List (Nat × Stream)} {id : Nat} :
    (entries.lookup id).isSome = true ↔ id ∈ entries.map (·.1) := by
  induction entries with
  | nil => simp
  | cons first rest ih =>
    obtain ⟨n, s⟩ := first
    rw [List.lookup_cons, List.map_cons, List.mem_cons]
    cases here : id == n with
    | true => simp [eq_of_beq here]
    | false =>
      simp only [ih]
      exact ⟨.inr, fun h => h.resolve_left (by simpa using here)⟩

theorem get_modify_self {pool : StreamPool} {id : Nat} (known : id ∈ pool.ids)
    (f : Stream → Stream) : (pool.modify id f).get id = f (pool.get id) := by
  obtain ⟨s, found⟩ := Option.isSome_iff_exists.mp (isSome_lookup.mpr known)
  simp only [get, modify, lookup_modify, found, if_true, Option.map_some, Option.getD_some]

/-- One that was never made has nothing to read. -/
theorem get_of_unknown {pool : StreamPool} {id : Nat} (unknown : id ∉ pool.ids) :
    pool.get id = { ended := true, peerOpen := false } := by
  have absent : pool.entries.lookup id = none := by
    rw [← Option.not_isSome_iff_eq_none, isSome_lookup]
    exact unknown
  rw [get, absent]
  rfl

theorem inbox_modify (pool : StreamPool) (id other : Nat) {f : Stream → Stream}
    (kept : ∀ s, (f s).inbox = s.inbox) :
    ((pool.modify id f).get other).inbox = (pool.get other).inbox := by
  by_cases same : other = id
  · subst same
    by_cases known : other ∈ pool.ids
    · rw [get_modify_self known, kept]
    · rw [get_of_unknown known, get_of_unknown (by rw [ids_modify]; exact known)]
  · rw [get_modify_ne pool f same]

theorem ids_create (pool : StreamPool) : pool.create.2.ids = pool.ids ++ [pool.next] := by
  simp [ids, create]

theorem inbox_create (pool : StreamPool) (id : Nat) :
    (pool.create.2.get id).inbox = (pool.get id).inbox := by
  simp only [get, create, List.lookup_append]
  cases pool.entries.lookup id with
  | some s => rfl
  | none =>
    rw [List.lookup_cons]
    cases id == pool.next <;> rfl

end StreamPool

namespace Host

/-- The connections that wait to be accepted. -/
def callers (h : Host) : List Nat := h.waiting.map (·.2)

/-- The two hosts have the same connections with the same bytes to be read. -/
structure Alike (h h' : Host) : Prop where
  waiting : h'.waiting = h.waiting
  ids : h'.connections.ids = h.connections.ids
  next : h'.connections.next = h.connections.next
  inbox : ∀ id, (h'.connections.get id).inbox = (h.connections.get id).inbox

namespace Alike

variable {h h' h'' : Host}

theorem refl (h : Host) : Alike h h := ⟨rfl, rfl, rfl, fun _ => rfl⟩

theorem trans (first : Alike h h') (second : Alike h' h'') : Alike h h'' :=
  ⟨second.waiting.trans first.waiting, second.ids.trans first.ids, second.next.trans first.next,
    fun id => (second.inbox id).trans (first.inbox id)⟩

theorem modify (h : Host) (id : Nat) {f : Stream → Stream} (kept : ∀ s, (f s).inbox = s.inbox) :
    Alike h (h.modifyConnection id f) :=
  ⟨rfl, StreamPool.ids_modify _ _ _, rfl, fun other => StreamPool.inbox_modify _ id other kept⟩

theorem files (h : Host) (files : FileSystem) : Alike h { h with files := files } :=
  ⟨rfl, rfl, rfl, fun _ => rfl⟩

end Alike

end Host

/-! ## 2. Descriptors -/

namespace DescriptorTable

/-- The number of the connection at a descriptor. -/
def streamAt? (t : DescriptorTable) (fd : Int) : Option Nat :=
  match t.get? fd with
  | some ⟨.stream id, _⟩ => some id
  | _ => none

/-- Every connection in the first table stands in the second one at the same descriptor. -/
def Within (t t' : DescriptorTable) : Prop :=
  ∀ fd id, t.streamAt? fd = some id → t'.streamAt? fd = some id

theorem streamAt?_eq_some {t : DescriptorTable} {fd : Int} {id : Nat} :
    t.streamAt? fd = some id ↔ t.Opens fd (.stream id) := by
  rw [streamAt?]
  constructor
  · intro found
    split at found
    · next here =>
      cases found
      exact ⟨_, here, rfl⟩
    · cases found
  · rintro ⟨⟨target, closes⟩, here, rfl⟩
    rw [here]

/-- Where connections stand after one was placed at a descriptor. -/
theorem streamAt?_putOwn {t : DescriptorTable} {fd other : Int} {id n : Nat}
    (here : (t.putOwn fd (.stream id)).streamAt? other = some n) :
    (other ≠ fd ∧ t.streamAt? other = some n) ∨ (other = fd ∧ n = id) := by
  rcases opens_putOwn.mp (streamAt?_eq_some.mp here) with ⟨same, own⟩ | ⟨apart, before⟩
  · cases own
    exact .inr ⟨same, rfl⟩
  · exact .inl ⟨apart, streamAt?_eq_some.mpr before⟩

namespace Within

variable {t t' t'' : DescriptorTable}

theorem refl (t : DescriptorTable) : Within t t := fun _ _ found => found

theorem trans (first : Within t t') (second : Within t' t'') : Within t t'' :=
  fun fd id found => second fd id (first fd id found)

theorem of_partOf (part : PartOf t t') : Within t t' :=
  fun _ _ found => streamAt?_eq_some.mpr (part.opens (streamAt?_eq_some.mp found))

theorem close (t : DescriptorTable) (fd : Int) : Within (t.close fd) t := .of_partOf (.close t fd)

/-- Placing what is no connection brings none. -/
theorem putOwn {fd : Int} {file : OpenFile} (other : ∀ id, file ≠ .stream id) :
    Within (t.putOwn fd file) t := by
  intro fd' id found
  rcases opens_putOwn.mp (streamAt?_eq_some.mp found) with ⟨_, own⟩ | ⟨_, before⟩
  · exact absurd own.symm (other id)
  · exact streamAt?_eq_some.mpr before

theorem setCloseOnExec {fd : Int} {on : Bool} (marked : t.setCloseOnExec fd on = .ok t') :
    Within t' t := .of_partOf (.setCloseOnExec marked)

theorem setNonblocking (t : DescriptorTable) (fd : Int) : Within (t.setNonblocking fd) t :=
  .of_partOf (.setNonblocking t fd)

theorem afterExec (t : DescriptorTable) : Within t.afterExec t := .of_partOf (.afterExec t)

end Within

end DescriptorTable

/-! ## 3. Wiring -/

/-- Each connection stands at one descriptor at most, one that waits to be accepted stands at none,
and the numbers of connections to come are above those of the connections that were made. -/
structure Wired (callers : List Nat) (pool : StreamPool) (t : DescriptorTable) : Prop where
  apart : ∀ fd fd' id, t.streamAt? fd = some id → t.streamAt? fd' = some id → fd = fd'
  unaccepted : ∀ fd id, t.streamAt? fd = some id → id ∉ callers
  inTurn : callers.Nodup
  attached : ∀ fd id, t.streamAt? fd = some id → id ∈ pool.ids
  waiting : ∀ id ∈ callers, id ∈ pool.ids
  numbered : ∀ id ∈ pool.ids, id < pool.next

namespace Wired

variable {callers callers' : List Nat} {pool pool' : StreamPool} {t t' : DescriptorTable}

/-- Descriptors may be closed and marked. -/
theorem mono (wired : Wired callers pool t) (ids : pool'.ids = pool.ids)
    (next : pool'.next = pool.next) (within : t'.Within t) : Wired callers pool' t' where
  apart fd fd' id here there := wired.apart fd fd' id (within fd id here) (within fd' id there)
  unaccepted fd id here := wired.unaccepted fd id (within fd id here)
  inTurn := wired.inTurn
  attached fd id here := ids ▸ wired.attached fd id (within fd id here)
  waiting := ids ▸ wired.waiting
  numbered := ids ▸ next ▸ wired.numbered

/-- The order in which connections wait does not matter. -/
theorem perm (wired : Wired callers pool t) (same : callers.Perm callers') :
    Wired callers' pool t where
  apart := wired.apart
  unaccepted fd id here waits := wired.unaccepted fd id here (same.mem_iff.mpr waits)
  inTurn := same.nodup_iff.mp wired.inTurn
  attached := wired.attached
  waiting id waits := wired.waiting id (same.mem_iff.mpr waits)
  numbered := wired.numbered

/-- A connection that waits is placed at a descriptor. -/
theorem accept {fd : Int} {id : Nat} (wired : Wired (id :: callers) pool t)
    (placed : ∀ other n, t'.streamAt? other = some n →
      (other ≠ fd ∧ t.streamAt? other = some n) ∨ (other = fd ∧ n = id)) :
    Wired callers pool t' := by
  obtain ⟨fresh, inTurn⟩ := List.nodup_cons.mp wired.inTurn
  have unplaced : ∀ other, t.streamAt? other ≠ some id := fun other here =>
    wired.unaccepted other id here List.mem_cons_self
  refine ⟨?_, ?_, inTurn, ?_, fun n waits => wired.waiting n (List.mem_cons_of_mem _ waits),
    wired.numbered⟩
  · intro a b n here there
    rcases placed a n here with ⟨_, old⟩ | ⟨same, new⟩ <;>
    rcases placed b n there with ⟨_, old'⟩ | ⟨same', new'⟩
    · exact wired.apart a b n old old'
    · exact absurd (new' ▸ old) (unplaced a)
    · exact absurd (new ▸ old') (unplaced b)
    · rw [same, same']
  · intro other n here
    rcases placed other n here with ⟨_, old⟩ | ⟨_, rfl⟩
    · exact fun waits => wired.unaccepted other n old (List.mem_cons_of_mem _ waits)
    · exact fresh
  · intro other n here
    rcases placed other n here with ⟨_, old⟩ | ⟨_, rfl⟩
    · exact wired.attached other n old
    · exact wired.waiting n List.mem_cons_self

/-- The number of the next connection is new. -/
theorem next_notMem (wired : Wired callers pool t) : pool.next ∉ pool.ids :=
  fun known => Nat.lt_irrefl _ (wired.numbered _ known)

/-- A connection is made and waits. -/
theorem create (wired : Wired callers pool t) :
    Wired (callers ++ [pool.next]) pool.create.2 t where
  apart := wired.apart
  unaccepted fd id here waits := by
    rcases List.mem_append.mp waits with waits | new
    · exact wired.unaccepted fd id here waits
    · exact wired.next_notMem (List.mem_singleton.mp new ▸ wired.attached fd id here)
  inTurn := by
    refine List.nodup_append.mpr ⟨wired.inTurn, List.pairwise_singleton _ _, ?_⟩
    intro id waits other new same
    exact wired.next_notMem (List.mem_singleton.mp new ▸ same ▸ wired.waiting id waits)
  attached fd id here := by
    rw [StreamPool.ids_create]
    exact List.mem_append_left _ (wired.attached fd id here)
  waiting id waits := by
    rw [StreamPool.ids_create]
    exact (List.mem_append.mp waits).elim
      (fun waits => List.mem_append_left _ (wired.waiting id waits)) (List.mem_append_right _)
  numbered id known := by
    rw [StreamPool.ids_create] at known
    rcases List.mem_append.mp known with known | new
    · exact Nat.lt_succ_of_lt (wired.numbered id known)
    · exact List.mem_singleton.mp new ▸ Nat.lt_succ_self _

end Wired

end Succession
