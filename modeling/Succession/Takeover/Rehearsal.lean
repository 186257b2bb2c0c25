import Succession.Display.Event
import Succession.Takeover.Basic

/-!
# A rehearsal of the takeover

A display and a manager in memory that keep a record of what is asked of them and can be told at
which point to fail.
-/

namespace Succession.Takeover

/-- What a server is asked for. -/
inductive ServerCall
  | grab
  | sync
  | query
  | ungrab
deriving DecidableEq, Repr

/-- The word for a call. -/
def ServerCall.word : ServerCall → String
  | grab => "grab"
  | sync => "sync"
  | query => "query"
  | ungrab => "ungrab"

/-- What a manager is asked for. -/
inductive ManagerCall
  | claim (w : WindowId)
  | honour (w : WindowId)
deriving DecidableEq, Repr

/-- The state of a rehearsal. -/
structure Rehearsal where
  /-- Events that can be taken. -/
  queue : List DisplayEvent := []
  /-- Events that can be taken after the next wait for all events. -/
  inFlight : List DisplayEvent := []
  windows : List RootChild := []
  managed : List WindowId := []
  failingCalls : List ServerCall := []
  failingClaims : List WindowId := []
  /-- How many more polls succeed, if not all. -/
  pollsLeft : Option Nat := none
  serverCalls : List ServerCall := []
  managerCalls : List ManagerCall := []
deriving DecidableEq, Repr, Inhabited

namespace Rehearsal

/-- Records a call, which fails if it was told to. -/
def call (c : ServerCall) (s : Rehearsal) : Except Fault Unit × Rehearsal :=
  (if c ∈ s.failingCalls then .error (.ipc c.word) else .ok (),
    { s with serverCalls := s.serverCalls ++ [c] })

/-- The events in flight arrive, unless the call fails. -/
def sync (s : Rehearsal) : Except Fault Unit × Rehearsal :=
  match call .sync s with
  | (.ok (), s) => (.ok (), { s with queue := s.queue ++ s.inFlight, inFlight := [] })
  | failure => failure

/-- Takes the next event, unless polls fail by now. -/
def poll (s : Rehearsal) : Except Fault (Option DisplayEvent) × Rehearsal :=
  match s.pollsLeft with
  | some 0 => (.error (.ipc "poll"), s)
  | left =>
    match s.queue with
    | [] => (.ok none, { s with pollsLeft := left.map (· - 1) })
    | e :: rest => (.ok (some e), { s with queue := rest, pollsLeft := left.map (· - 1) })

/-- The windows, unless the call fails. -/
def children (s : Rehearsal) : Except Fault (List RootChild) × Rehearsal :=
  match call .query s with
  | (.ok (), s) => (.ok s.windows, s)
  | (.error f, s) => (.error f, s)

/-- Makes a window managed. -/
def manage (w : WindowId) (s : Rehearsal) : Rehearsal :=
  if w ∈ s.managed then s else { s with managed := s.managed ++ [w] }

/-- Records the claim of a window, which becomes managed unless the claim fails. -/
def claim (w : WindowId) (s : Rehearsal) : Except Fault Unit × Rehearsal :=
  let s := { s with managerCalls := s.managerCalls ++ [.claim w] }
  if w ∈ s.failingClaims then
    (.error (.ipc ("claim " ++ Numeral.render w.toNat)), s)
  else (.ok (), s.manage w)

/-- Records that a request is honoured, and its window becomes managed. -/
def honour (e : DisplayEvent) (s : Rehearsal) : Rehearsal :=
  match e with
  | .mapRequest w => manage w { s with managerCalls := s.managerCalls ++ [.honour w] }
  | _ => s

/-- The rehearsal as a display and a manager. -/
def party : Party Rehearsal DisplayEvent where
  grab := call .grab
  ungrab := call .ungrab
  sync := sync
  poll := poll
  children := children
  isMapRequest
    | .mapRequest _ => true
    | _ => false
  isManaged w s := w ∈ s.managed
  claim := claim
  honour := honour
  backlog s := s.queue.length

theorem poll_some {s s' : Rehearsal} {e : DisplayEvent} (h : s.poll = (.ok (some e), s')) :
    s.queue = e :: s'.queue := by
  unfold poll at h
  split at h
  · cases h
  · split at h
    · cases h
    · next hq =>
      cases h
      simpa using hq

/-- Taking the events of a rehearsal ends. -/
theorem party_lawful : party.Lawful where
  backlog_poll := by
    intro s s' e h
    simp [party, poll_some h]
  backlog_honour := by
    intro e s
    cases e <;> simp [party, honour, manage]
    split <;> simp

end Rehearsal

end Succession.Takeover
