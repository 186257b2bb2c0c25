/-!
# The window order

The order holds the managed windows in order. After a restore it also remembers where the windows
of the snapshot stood: a window of the snapshot that is managed for the first time returns to its
slot, before the first managed window that stood later; any other window goes to the end.
-/

namespace Succession

/-- The identifier of a window. -/
abbrev WindowId := UInt32

/-- The managed windows and what is remembered of the snapshot they were restored from. -/
structure WindowOrder where
  /-- The managed windows in order. -/
  managed : List WindowId := []
  /-- The windows of the snapshot that have not been managed since, with their positions. -/
  slots : List (WindowId × Nat) := []
  /-- The position of each window of the snapshot. -/
  positions : List (WindowId × Nat) := []
deriving DecidableEq, Repr, Inhabited

namespace WindowOrder

/-- The windows of a list with their positions; of several positions the last counts. -/
def positionsFrom (start : Nat) : List WindowId → List (WindowId × Nat)
  | [] => []
  | w :: rest =>
    if w ∈ rest then positionsFrom (start + 1) rest
    else (w, start) :: positionsFrom (start + 1) rest

/-- The order after a restore from a snapshot with these windows: none is managed yet. -/
def ofSnapshot (windows : List WindowId) : WindowOrder :=
  ⟨[], positionsFrom 0 windows, positionsFrom 0 windows⟩

/-- Whether a window is managed. -/
def isManaged (order : WindowOrder) (w : WindowId) : Bool := w ∈ order.managed

/-- The position of a window in the snapshot, if it was there. -/
def position? (order : WindowOrder) (w : WindowId) : Option Nat := order.positions.lookup w

/-- Whether a window stood after position `p` of the snapshot; those that were not in it come
after all that were. -/
def standsAfter (order : WindowOrder) (p : Option Nat) (w : WindowId) : Bool :=
  match p, order.position? w with
  | none, _ => false
  | some _, none => true
  | some p, some q => p < q

/-- Inserts a window before the first one that satisfies `later`. -/
def insertBefore (later : WindowId → Bool) (w : WindowId) : List WindowId → List WindowId
  | [] => [w]
  | v :: rest => if later v then w :: v :: rest else v :: insertBefore later w rest

/-- The order with a window managed, at its slot if it has one that was not taken yet. -/
def manage (order : WindowOrder) (w : WindowId) : WindowOrder :=
  if order.isManaged w then order
  else if (order.slots.lookup w).isSome then
    { order with
      managed := insertBefore (order.standsAfter (order.position? w)) w order.managed
      slots := order.slots.filter fun (v, _) => v ≠ w }
  else { order with managed := order.managed ++ [w] }

/-- The order without a window among the managed ones. -/
def release (order : WindowOrder) (w : WindowId) : WindowOrder :=
  { order with managed := order.managed.filter (· ≠ w) }

/-- How many slots are still waiting for their windows. -/
def waiting (order : WindowOrder) : Nat := order.slots.length

/-- The order without the slots that are still waiting. -/
def clearSlots (order : WindowOrder) : WindowOrder := { order with slots := [] }

/-- Everything that can happen to a window order. -/
inductive Change
  | restore (windows : List WindowId)
  | clear
  | manage (w : WindowId)
  | release (w : WindowId)
  | clearSlots
deriving DecidableEq, Repr

/-- The order after a change. -/
def apply (order : WindowOrder) : Change → WindowOrder
  | .restore windows => ofSnapshot windows
  | .clear => {}
  | .manage w => order.manage w
  | .release w => order.release w
  | .clearSlots => order.clearSlots

end WindowOrder

end Succession
