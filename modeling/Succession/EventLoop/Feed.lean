import Succession.EventLoop.Source
import Succession.Window.Order

/-!
# A feed of events

The simplest source: a queue of events in memory. Dealing with an event notes its window and puts
further events at the end of the queue. The feed can be told to fail.
-/

namespace Succession

/-- An event of a feed and the events that follow from it. -/
inductive FeedEvent
  | mk (window : WindowId) (isError : Bool) (next : List FeedEvent)
deriving Repr, Inhabited

namespace FeedEvent

/-- The window of the event. -/
def window : FeedEvent → WindowId
  | mk w _ _ => w

/-- Whether the event only reports a failed request. -/
def isError : FeedEvent → Bool
  | mk _ b _ => b

/-- The events that follow from the event. -/
def next : FeedEvent → List FeedEvent
  | mk _ _ es => es

mutual

/-- How many events there are in all: the event and those that follow from it. -/
def weight : FeedEvent → Nat
  | mk _ _ es => weightAll es + 1

/-- How many events there are in all in a list. -/
def weightAll : List FeedEvent → Nat
  | [] => 0
  | e :: rest => weight e + weightAll rest

end

theorem weightAll_append (a b : List FeedEvent) :
    weightAll (a ++ b) = weightAll a + weightAll b := by
  induction a with
  | nil => simp [weightAll]
  | cons e rest ih => simp [weightAll, ih, Nat.add_assoc]

theorem weight_eq (e : FeedEvent) : e.weight = weightAll e.next + 1 := by
  cases e with
  | mk w b es => rfl

end FeedEvent

/-- A queue of events, what was done with them, and how the connection behaves. -/
structure Feed where
  queue : List FeedEvent := []
  /-- The windows of the events that were dealt with and not reported yet. -/
  dispatched : List WindowId := []
  /-- The failures that were noticed and not reported yet. -/
  failures : List Fault := []
  /-- How many more polls succeed, if not all. -/
  pollsLeft : Option Nat := none
  flushFails : Bool := false
  flushes : Nat := 0
  /-- Whether there is something to read on the connection. -/
  readable : Bool := false
  gate : Gate := {}
deriving Repr, Inhabited

namespace Feed

/-- Takes the next event, unless polls fail by now. -/
def poll (s : Feed) : Except Fault (Option FeedEvent) × Feed :=
  match s.pollsLeft with
  | some 0 => (.error (.ipc "poll"), s)
  | left =>
    match s.queue with
    | [] => (.ok none, { s with pollsLeft := left.map (· - 1) })
    | e :: rest => (.ok (some e), { s with queue := rest, pollsLeft := left.map (· - 1) })

/-- Counts a flush. -/
def flush (s : Feed) : Except Fault Unit × Feed :=
  (if s.flushFails then .error (.ipc "flush") else .ok (), { s with flushes := s.flushes + 1 })

/-- Notes the window of an event and queues the events that follow from it. -/
def dispatch (e : FeedEvent) (s : Feed) : Feed :=
  { s with dispatched := s.dispatched ++ [e.window], queue := s.queue ++ e.next }

/-- The feed as a source of events. -/
def source : EventSource Feed FeedEvent where
  poll := poll
  flush := flush
  isError := FeedEvent.isError
  dispatch := dispatch
  failed f s := { s with failures := s.failures ++ [f] }
  gate := Feed.gate
  setGate g s := { s with gate := g }
  backlog s := FeedEvent.weightAll s.queue

/-- Puts events at the end of the queue. -/
def push (s : Feed) (events : List FeedEvent) : Feed := { s with queue := s.queue ++ events }

theorem poll_some {s s' : Feed} {e : FeedEvent} (h : s.poll = (.ok (some e), s')) :
    s.queue = e :: s'.queue := by
  unfold poll at h
  split at h
  · cases h
  · split at h
    · cases h
    · next hq =>
      cases h
      simpa using hq

/-- Draining a feed ends. -/
theorem source_lawful : source.Lawful where
  backlog_dispatch := by
    intro s s' e h _
    have hq := poll_some h
    simp only [source, dispatch, hq, FeedEvent.weightAll, FeedEvent.weightAll_append,
      FeedEvent.weight_eq]
    omega
  backlog_error := by
    intro s s' e h _
    have hq := poll_some h
    simp only [source, hq, FeedEvent.weightAll, FeedEvent.weight_eq]
    omega

end Feed

end Succession
