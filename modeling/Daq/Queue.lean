set_option autoImplicit false

/-!
# Lossy queues

The queue between a sink and one consumer holds a bounded number of items. It never makes the
producer wait: an item that finds the queue full is dropped and counted. The producer marks the
queue finished when no more items will follow; what is buffered then can still be taken.

## Main definitions

* `Daq.Queue` — buffered items with the count of dropped ones.
* `Daq.Queue.publish`, `Daq.Queue.finish` — the producer's operations.
* `Daq.Queue.take` — the consumer's operation.
* `Daq.Queue.process` — taking items and passing them to the consumer's callback.
* `Daq.Queue.drain` — taking batch after batch until nothing is left.
-/

namespace Daq

/-- A bounded queue that drops what does not fit. -/
structure Queue (α : Type) where
  /-- The greatest number of buffered items. -/
  capacity : Nat
  /-- The buffered items, oldest first. -/
  items : List α := []
  /-- The number of dropped items. -/
  dropped : Nat := 0
  /-- Whether the producer has ended. -/
  finished : Bool := false
  deriving DecidableEq, Inhabited

/-- How items are passed to a consumer. -/
inductive Callback where
  /-- One call for each item. -/
  | perItem
  /-- One call for all items together, and none if there are no items. -/
  | perBatch
  deriving DecidableEq, Inhabited

/-- The calls for items that were taken together. -/
def Callback.calls {α : Type} : Callback → List α → List (List α)
  | perItem, items => items.map ([·])
  | perBatch, [] => []
  | perBatch, items => [items]

/-- What processing a queue brings about. -/
structure Processed (α : Type) where
  /-- The items passed by each call, in the order of the calls. -/
  calls : List (List α)
  /-- Whether any item was processed. -/
  any : Bool
  /-- The queue that is left. -/
  queue : Queue α

namespace Queue

variable {α : Type}

/-- An empty queue for at least one item. -/
def ofCapacity (capacity : Nat) : Queue α := { capacity := max capacity 1 }

/-- The number of buffered items. -/
def pending (q : Queue α) : Nat := q.items.length

/-- Append an item, or drop and count it if the queue is full. -/
def publish (q : Queue α) (a : α) : Queue α :=
  if q.items.length < q.capacity then { q with items := q.items ++ [a] }
  else { q with dropped := q.dropped + 1 }

/-- Append the items one after the other. -/
def publishAll (q : Queue α) (as : List α) : Queue α := as.foldl publish q

/-- Mark the queue finished. -/
def finish (q : Queue α) : Queue α := { q with finished := true }

/-- The oldest items, at most `limit` of them, and the queue without them. -/
def take (q : Queue α) (limit : Nat) : List α × Queue α :=
  (q.items.take limit, { q with items := q.items.drop limit })

/-- Take the oldest items, at most `limit` of them, and pass them to the consumer. -/
def process (q : Queue α) (callback : Callback) (limit : Nat) : Processed α :=
  let taken := q.take limit
  { calls := callback.calls taken.1, any := !taken.1.isEmpty, queue := taken.2 }

/-- Take batches of at most `batch` items until a batch is empty; all items, in order, and the
queue that is left. -/
def drain (batch : Nat) (q : Queue α) : List α × Queue α :=
  if _h : (q.take batch).1 = [] then ([], (q.take batch).2)
  else
    let rest := drain batch (q.take batch).2
    ((q.take batch).1 ++ rest.1, rest.2)
termination_by q.items.length
decreasing_by
  simp only [take] at _h ⊢
  have := mt List.length_eq_zero_iff.mp _h
  simp only [List.length_take, List.length_drop] at *
  omega

end Queue

end Daq
