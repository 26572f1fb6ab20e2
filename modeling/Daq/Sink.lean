import Daq.Decimal.Layout
import Daq.Duration
import Daq.Error
import Daq.Queue
import Daq.Sink.Observer
import Daq.Text.Quoted

set_option autoImplicit false

/-!
# Sinks

A sink is the end of a graph for one signal. It fans each block out to its taps. A tap has a queue
that its consumer empties, and it either passes blocks on or feeds an observer that cuts captures.
A tap whose consumer is gone is removed at the next block or count. When a sink stops, all queues
are finished and open captures are given up.

## Main definitions

* `Daq.Tap` — the producer's end of one consumer's queue.
* `Daq.Sink` — descriptor, rate and taps.
* `Daq.Sink.push`, `Daq.Sink.stop` — what a graph does to a sink.
* `Daq.Sink.through` — what a graph does through its handle to a sink.
* `Daq.Sink.attach` — a new tap.
* `Daq.align` — which tags fall on which sample.
-/

namespace Daq

/-- The greatest window of a multiplexed tap that asks for none. -/
def defaultWindow : Nat := 65536

/-- What a consumer wants from a sink. -/
inductive Request where
  /-- Every block. -/
  | streaming
  /-- Captures around tags. -/
  | triggered (selects : Tag → Bool) (pre post : Nat)
  /-- Captures from tag to tag. -/
  | multiplexed (selects : Tag → Bool) (window : Nat)
  /-- Samples a fixed time after tags. -/
  | snapshot (selects : Tag → Bool) (delay : Duration)

/-- What a tap does with blocks, and the queue it fills. -/
inductive Outlet where
  /-- Blocks are passed on. -/
  | stream (queue : Queue Block)
  /-- Captures are cut out. -/
  | captures (observer : Observer) (queue : Queue Capture)

/-- The producer's end of one consumer's queue. -/
structure Tap where
  /-- The number of the tap at its sink. -/
  id : Nat
  /-- Whether the consumer has let go of the queue. -/
  released : Bool := false
  /-- Queue and treatment of blocks. -/
  outlet : Outlet

/-- Pair each sample with the tags on it. The tags are in the order of their indices, which start
at `index`. -/
def align (index : Nat) (tags : List Tag) : List Single → List (Single × List Tag)
  | [] => []
  | value :: rest =>
    (value, tags.takeWhile fun t => t.index == index) ::
      align (index + 1) (tags.dropWhile fun t => t.index == index) rest

/-- The tags inside a block, in the order of their samples; tags on one sample keep their order. -/
def Block.orderedTags (b : Block) : List Tag :=
  (b.tags.filter fun t => t.index < b.samples.length).mergeSort fun s t => s.index ≤ t.index

/-- The samples of a block, each with the tags on it. -/
def Block.aligned (b : Block) : List (Single × List Tag) := align 0 b.orderedTags b.samples

/-- Watch samples one after the other and queue the captures they complete. -/
def watch (d : Descriptor) (s : Observer × Queue Capture) (x : Single × List Tag) :
    Observer × Queue Capture :=
  let r := s.1.step d x.1 x.2
  (r.1, s.2.publishAll r.2)

namespace Outlet

/-- Take in a block. -/
def feed (d : Descriptor) (b : Block) (aligned : List (Single × List Tag)) : Outlet → Outlet
  | .stream q => .stream (q.publish b)
  | .captures o q =>
    let r := aligned.foldl (watch d) (o, q)
    .captures r.1.trim r.2

/-- Finish the queue. -/
def finish : Outlet → Outlet
  | .stream q => .stream q.finish
  | .captures o q => .captures o q.finish

/-- Whether the queue is finished. -/
def finished : Outlet → Bool
  | .stream q => q.finished
  | .captures _ q => q.finished

/-- The number of buffered items. -/
def pending : Outlet → Nat
  | .stream q => q.pending
  | .captures _ q => q.pending

/-- The number of dropped items. -/
def dropped : Outlet → Nat
  | .stream q => q.dropped
  | .captures _ q => q.dropped

/-- The queue of blocks. -/
def stream? : Outlet → Option (Queue Block)
  | .stream q => some q
  | .captures _ _ => none

/-- The queue of captures. -/
def captures? : Outlet → Option (Queue Capture)
  | .stream _ => none
  | .captures _ q => some q

end Outlet

/-- The end of a graph for one signal. -/
structure Sink where
  /-- Name, unit and range of the signal. -/
  descriptor : Descriptor
  /-- The sample rate in hertz. -/
  rate : Single
  /-- The taps, in the order of their attachment. -/
  taps : List Tap := []
  /-- The number of taps ever attached. -/
  attached : Nat := 0
  /-- Whether the sink has stopped. -/
  stopped : Bool := false

/-- The length of a duration in samples at a rate, rounded to the nearest whole number. -/
def Duration.samplesAt (d : Duration) (rate : Single) : Nat :=
  let seconds := (d.nanoseconds / 1000000000).toUInt64.toFloat +
    (d.nanoseconds % 1000000000).toUInt64.toFloat / 1e9
  (seconds * rate.widen.toFloat).round.toUInt64.toNat

namespace Sink

/-- Remove the taps whose consumers are gone. -/
def prune (s : Sink) : Sink := { s with taps := s.taps.filter fun t => !t.released }

/-- The number of taps in use. -/
def tapCount (s : Sink) : Nat := s.prune.taps.length

/-- Fan a block out to all taps in use. A stopped sink takes nothing in. -/
def push (s : Sink) (b : Block) : Sink :=
  if s.stopped then s
  else
    let s := s.prune
    let aligned := b.aligned
    { s with taps := s.taps.map fun t => { t with outlet := t.outlet.feed s.descriptor b aligned } }

/-- Stop the sink and finish all queues. -/
def stop (s : Sink) : Sink :=
  if s.stopped then s
  else
    { s with
      stopped := true
      taps := s.taps.map fun t => { t with outlet := t.outlet.finish } }

/-- What a graph does with its handle to a sink. -/
inductive HandleUse where
  /-- Push a block. -/
  | push (b : Block)
  /-- Stop the sink. -/
  | stop
  /-- Give the handle up, also when the graph fails. -/
  | drop

/-- The sink after its handle was used. Giving a handle up stops the sink, so that its consumers do
not wait for a graph that is gone. -/
def through (s : Sink) : HandleUse → Sink
  | .push b => s.push b
  | .stop => s.stop
  | .drop => s.stop

/-- The outlet that a request asks for. A capture around tags has to have samples. The `pre` samples
in front of a tag are assumed to have room in memory, which is reserved at once, at four bytes a
sample and with half of the addresses for everything. Without that room no outlet is made, and the
sink stays as it is. -/
def outletFor (s : Sink) (capacity : Nat) : Request → Except AcqError Outlet
  | .streaming => .ok (.stream (.ofCapacity capacity))
  | .triggered selects pre post =>
    if pre + post = 0 then
      .error (.invalidArgument
        ("trigger window on '" ++ s.descriptor.name ++ "' needs pre or post samples"))
    else .ok (.captures (.trigger { selects, pre, post }) (.ofCapacity capacity))
  | .multiplexed selects window =>
    .ok (.captures
      (.multiplex { selects, window := if window = 0 then defaultWindow else window })
      (.ofCapacity capacity))
  | .snapshot selects delay =>
    .ok (.captures (.snapshot { selects, delay := delay.samplesAt s.rate }) (.ofCapacity capacity))

/-- Attach a tap; its number and the sink with it. At a stopped sink its queue is finished from the
start. -/
def attach (s : Sink) (capacity : Nat) (r : Request) : Except AcqError (Nat × Sink) :=
  match s.outletFor capacity r with
  | .error e => .error e
  | .ok outlet =>
    let outlet := if s.stopped then outlet.finish else outlet
    .ok (s.attached,
      { s with
        taps := s.taps ++ [{ id := s.attached, outlet }]
        attached := s.attached + 1 })

/-- The tap with this number. -/
def tap? (s : Sink) (id : Nat) : Option Tap := s.taps.find? fun t => t.id == id

/-- Change the tap with this number. -/
def modifyTap (s : Sink) (id : Nat) (f : Tap → Tap) : Sink :=
  { s with taps := s.taps.map fun t => if t.id = id then f t else t }

/-- The rate of a sink in diagnostics is written positionally from `1e-4` up to `1e16`. -/
def rateLayout : Layout := { least := some (-3), greatest := some 16 }

/-- The text of a sink in diagnostics. -/
def render (s : Sink) : String :=
  "DataSink \x7b signal: " ++ Text.quoted s.descriptor.name ++ ", sample_rate: " ++
    rateLayout.single s.rate ++ " \x7d"

end Sink

end Daq
