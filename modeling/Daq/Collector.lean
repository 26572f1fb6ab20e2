import Daq.Queue
import Daq.Reply

set_option autoImplicit false

/-!
# Collecting replies

A collector empties the queue of one poller in batches and turns what it finds into replies. Whether
the producer has ended is read before the queue is emptied: if it had ended by then, nothing can
have been left behind.

## Main definitions

* `Daq.Queue.collectBlocks` — replies of a stream, with the descriptor that its tags report.
* `Daq.Queue.collectCaptures` — replies for captures.
-/

namespace Daq

/-- The number of items taken at a time. -/
def batchSize : Nat := 64

/-- The replies for consecutive blocks of a stream described by `d`, and the description after
them. The tags of a block count for its own reply. -/
def repliesTo (d : Descriptor) : List Block → List Reply × Descriptor
  | [] => ([], d)
  | b :: rest =>
    let d := d.update b.tags
    let r := repliesTo d rest
    (.ofBlock d b :: r.1, r.2)

/-- What a collector brings back. -/
structure Collection where
  /-- Whether the producer had ended before the queue was emptied. -/
  finished : Bool
  /-- The replies, in the order of the queue. -/
  replies : List Reply
  deriving DecidableEq, Inhabited

namespace Queue

/-- Empty the queue of a stream described by `d`; what is brought back, the description afterwards
and the emptied queue. -/
def collectBlocks (d : Descriptor) (q : Queue Block) : Collection × Descriptor × Queue Block :=
  let taken := q.drain batchSize
  let r := repliesTo d taken.1
  (⟨q.finished, r.1⟩, r.2, taken.2)

/-- Empty a queue of captures that were requested for `signal`. -/
def collectCaptures (signal : String) (q : Queue Capture) : Collection × Queue Capture :=
  let taken := q.drain batchSize
  (⟨q.finished, taken.1.map (Reply.ofCapture signal)⟩, taken.2)

end Queue

end Daq
