import Succession.Bytes

/-!
# Connections

A connection joins a descriptor of the process with a peer outside. Each side's bytes wait until
the other side reads them. What the process writes takes space in a send buffer of bounded size
until the peer has read it; a write for which there is no space fails.
-/

namespace Succession

/-- A connection as the process and its peer see it. -/
structure Stream where
  /-- The bytes from the peer that the process has not read. -/
  inbox : Bytes := []
  /-- Whether the peer will send no more. -/
  ended : Bool := false
  /-- The bytes from the process that the peer has not read. -/
  outbox : Bytes := []
  /-- The space that the outbox takes in the send buffer. -/
  load : Nat := 0
  /-- Whether the peer has not closed its end. -/
  peerOpen : Bool := true
deriving DecidableEq, Repr, Inhabited

/-- What a read gives. -/
inductive ReadOutcome
  | data (bytes : Bytes)
  | wouldBlock
  | ended
deriving DecidableEq, Repr

namespace Stream

/-- Reads at most `limit` bytes. -/
def read (s : Stream) (limit : Nat) : ReadOutcome × Stream :=
  if s.inbox = [] then (if s.ended then .ended else .wouldBlock, s)
  else (.data (s.inbox.take limit), { s with inbox := s.inbox.drop limit })

/-- The least power of two from `block` on that is no less than `n`, doubling at most `steps`
times. -/
def roundUpToBlock (n : Nat) : Nat → Nat → Nat
  | 0, block => block
  | steps + 1, block => if n ≤ block then block else roundUpToBlock n steps (block * 2)

/-- The size of a page of memory. -/
def pageSize : Nat := 4096

/-- The most bytes of a message that stand beside its header; the others take whole pages. -/
def maxBesideHeader : Nat := 3776

/-- The space that a message of `n` bytes takes in the send buffer: what describes it, a block
for its header and its first bytes, and whole pages for the others. -/
def charge (n : Nat) : Nat :=
  let paged := min n ((n - maxBesideHeader + pageSize - 1) / pageSize * pageSize)
  let beside := n - paged
  let header := (beside + 63) / 64 * 64 + 320
  256 + roundUpToBlock header 16 512 + (paged + pageSize - 1) / pageSize * pageSize

/-- The size of the send buffer. -/
def capacity : Nat := 212992

/-- The stream after a write of the process, or none if there is no space for it or nobody who
would read it. -/
def write? (s : Stream) (bytes : Bytes) : Option Stream :=
  if !s.peerOpen then none
  else if capacity ≤ s.load then none
  else some { s with outbox := s.outbox ++ bytes, load := s.load + charge bytes.length }

/-- The peer reads everything. -/
def takeOutbox (s : Stream) : Bytes × Stream := (s.outbox, { s with outbox := [], load := 0 })

/-- The peer sends bytes. -/
def receive (s : Stream) (bytes : Bytes) : Stream := { s with inbox := s.inbox ++ bytes }

/-- The peer will send no more. -/
def shutDownPeer (s : Stream) : Stream := { s with ended := true }

/-- The peer closes its end. -/
def closePeer (s : Stream) : Stream := { s with ended := true, peerOpen := false }

end Stream

/-- Connections by number. -/
structure StreamPool where
  entries : List (Nat × Stream) := []
  /-- The number of the next connection. -/
  next : Nat := 0
deriving DecidableEq, Repr, Inhabited

namespace StreamPool

/-- The connection with a number; one that was never made has ended. -/
def get (pool : StreamPool) (id : Nat) : Stream :=
  (pool.entries.lookup id).getD { ended := true, peerOpen := false }

/-- The pool with a connection changed. -/
def modify (pool : StreamPool) (id : Nat) (f : Stream → Stream) : StreamPool :=
  { pool with entries := pool.entries.map fun (n, s) => (n, if n = id then f s else s) }

/-- A new connection and its number. -/
def create (pool : StreamPool) : Nat × StreamPool :=
  (pool.next, { entries := pool.entries ++ [(pool.next, {})], next := pool.next + 1 })

end StreamPool

end Succession
