import JobPipeline.Job.Error

/-!
# The bounded queue of job ids

The queue buffers at most `capacity` ids, first in, first out. `offer` never waits: a full queue
drops the id. Receivers take turns: of those suspended in `receive` only the first can be served,
and as long as one is suspended nobody else is. A closed queue takes no offers, hands out what it
buffers, and then tells every receiver that it has ended.

Two observers share the state. While the queue is open `length` counts the buffer. Once it is closed
the count is taken by a look at the receiving side, which a suspended receiver keeps to itself: then
`length` is zero.
-/

namespace JobPipeline

inductive Offer
  | accepted
  | full
  | closed
deriving DecidableEq, Repr

abbrev ReceiverId := Nat

/-- A look at the queue from outside. -/
structure QueueStats where
  capacity : UInt64
  buffered : UInt64
  isOpen : Bool
deriving DecidableEq, Repr

/-- A bounded queue of ids and the receivers suspended at it, the one to be served
first in front. -/
structure Queue where
  capacity : Nat
  buffer : List JobId
  isOpen : Bool
  suspended : List ReceiverId
deriving DecidableEq, Repr

/-- What a receiver gets. -/
inductive Receipt
  | taken (id : JobId)
  | waiting
  | ended
deriving DecidableEq, Repr

/-- Why a queue of some capacity cannot be made. -/
inductive CapacityFault
  | zero
  | tooLarge
deriving DecidableEq, Repr

def CapacityFault.message : CapacityFault → String
  | .zero => "mpsc bounded channel requires buffer > 0"
  | .tooLarge => "a semaphore may not have more than MAX_PERMITS permits (2305843009213693951)"

namespace Queue

def maxCapacity : Nat := 2305843009213693951

/-- An open queue without ids. -/
def ofCapacity (capacity : Nat) : Queue := ⟨capacity, [], true, []⟩

/-- An open queue without ids, if the capacity is one a queue can have. -/
def new? (capacity : Nat) : Except CapacityFault Queue :=
  if capacity = 0 then .error .zero
  else if maxCapacity < capacity then .error .tooLarge
  else .ok (ofCapacity capacity)

/-- Offers an id without waiting. -/
def offer (q : Queue) (id : JobId) : Offer × Queue :=
  if q.isOpen then
    if q.buffer.length < q.capacity then (.accepted, { q with buffer := q.buffer ++ [id] })
    else (.full, q)
  else (.closed, q)

/-- Serves a receiver, or suspends it behind those that wait already. -/
def receive (q : Queue) (r : ReceiverId) : Receipt × Queue :=
  if q.suspended = [] ∨ q.suspended.head? = some r then
    match q.buffer with
    | id :: rest => (.taken id, { q with buffer := rest, suspended := q.suspended.drop 1 })
    | [] =>
      if q.isOpen then (.waiting, { q with suspended := r :: q.suspended.drop 1 })
      else (.ended, { q with suspended := q.suspended.drop 1 })
  else if r ∈ q.suspended then (.waiting, q)
  else (.waiting, { q with suspended := q.suspended ++ [r] })

/-- Forgets a suspended receiver. -/
def abandon (q : Queue) (r : ReceiverId) : Queue :=
  { q with suspended := q.suspended.filter (· ≠ r) }

/-- A receiver that looks once and does not wait. -/
def poll (q : Queue) : Receipt × Queue :=
  let r := q.suspended.foldl max 0 + 1
  let (receipt, q) := q.receive r
  (receipt, q.abandon r)

/-- Whether asking again would get a suspended receiver anywhere. -/
def canServe (q : Queue) (r : ReceiverId) : Bool :=
  q.suspended.head? = some r && (!q.buffer.isEmpty || !q.isOpen)

/-- Takes no more offers. -/
def close (q : Queue) : Queue := { q with isOpen := false }

/-- The number of buffered ids that an observer sees. -/
def length (q : Queue) : Nat :=
  if q.isOpen then q.buffer.length else if q.suspended = [] then q.buffer.length else 0

def stats (q : Queue) : QueueStats := ⟨.ofNat q.capacity, .ofNat q.length, q.isOpen⟩

end Queue
end JobPipeline
