import Daq.Broker
import Daq.Collector
import Daq.Hub

set_option autoImplicit false

/-!
# Reconciling subscriptions with pollers

A reconciler keeps one poller for every key that the active topics of its service ask for. In a
pass it walks the topics, opens the pollers that are missing, empties every poller it visits into
notifications, and evicts the pollers that nobody asked for. A flush pass opens none.

A request that fails does not end the pass; it is counted by its cause.

## Main definitions

* `Daq.Visit`, `Daq.visits` — the keys that topics ask for, in the order of the walk.
* `Daq.Grant` — how a key is turned into a poller.
* `Daq.Reconciler` — the poller tables and counters.
* `Daq.Reconciler.pass` — one pass.
* `Daq.Reconciler.clear` — letting go of all pollers.
-/

namespace Daq

/-- A key to serve, with the filter that asks for it narrowed to the channel. -/
structure Visit where
  /-- The key. -/
  key : PollerKey
  /-- The narrowed filter. -/
  filter : Filter
  deriving DecidableEq

/-- The visits that a filter asks for, one for each entry of its channel list. -/
def Filter.visits (f : Filter) : List Visit :=
  f.channelNames.map fun channel => ⟨f.key channel, f.forChannel channel⟩

/-- The visits that a topic asks for; none if its parameters make no filter. -/
def Topic.visits (t : Topic) : List Visit :=
  match Filter.ofParams t.params with
  | .ok f => f.visits
  | .error _ => []

/-- Whether the parameters of a topic make no filter. -/
def Topic.isUnreadable (t : Topic) : Bool := (Filter.ofParams t.params).toOption.isNone

/-- The topics of a service. -/
def topicsOf (service : String) (topics : List Topic) : List Topic :=
  topics.filter fun t => t.path == service

/-- The visits of a pass over the topics of a service. -/
def visits (service : String) (topics : List Topic) : List Visit :=
  (topicsOf service topics).flatMap Topic.visits

/-- The number of topics of a service that cannot be read. -/
def unreadableCount (service : String) (topics : List Topic) : Nat :=
  (topicsOf service topics).countP Topic.isUnreadable

/-- Turns a key into a poller, or refuses. -/
abbrev Grant := Hub → PollerKey → Except AcqError (PollerRef × Hub)

/-- The counters of a reconciler. -/
structure Counters where
  /-- Passes begun. -/
  passes : Nat := 0
  /-- Replies handed out. -/
  notifications : Nat := 0
  /-- Topics whose parameters make no filter. -/
  skippedSubscriptions : Nat := 0
  /-- Requests for signals that are not registered. -/
  unknownSignals : Nat := 0
  /-- Requests refused for their parameters. -/
  rejectedRequests : Nat := 0
  /-- Requests that failed for other reasons. -/
  failedRequests : Nat := 0
  /-- Pollers opened. -/
  pollersCreated : Nat := 0
  /-- Pollers let go because nobody asked for them. -/
  pollersEvicted : Nat := 0
  deriving DecidableEq, Inhabited

namespace Counters

/-- Count a failed request by its cause. -/
def refuse (c : Counters) : AcqError → Counters
  | .unknownSignal _ => { c with unknownSignals := c.unknownSignals + 1 }
  | e =>
    if e.isRecoverable then { c with rejectedRequests := c.rejectedRequests + 1 }
    else { c with failedRequests := c.failedRequests + 1 }

end Counters

/-- The poller of a continuous key. -/
structure StreamEntry where
  /-- The poller. -/
  poller : PollerRef
  /-- Whether the current pass has visited the entry. -/
  inUse : Bool := false
  /-- What the tags of the stream have reported. -/
  reported : Descriptor

/-- The poller of a key for captures. -/
structure CaptureEntry where
  /-- The poller. -/
  poller : PollerRef
  /-- Whether the current pass has visited the entry. -/
  inUse : Bool := false
  /-- The signal that was requested. -/
  signal : String

/-- The poller tables of a service. -/
structure Reconciler where
  /-- The path of the service. -/
  service : String
  /-- The pollers of continuous keys. -/
  streams : Table PollerKey StreamEntry := .empty
  /-- The pollers of all other keys. -/
  captures : Table PollerKey CaptureEntry := .empty
  /-- The counters. -/
  counters : Counters := {}

namespace Reconciler

/-- Whether there are no pollers. -/
def isEmpty (r : Reconciler) : Bool := r.streams.isEmpty && r.captures.isEmpty

/-- The unit last reported for a continuous key. -/
def unit? (r : Reconciler) (k : PollerKey) : Option String :=
  (r.streams.get? k).map fun e => e.reported.unit

/-- Whether a key has a poller. -/
def contains (r : Reconciler) (k : PollerKey) : Bool :=
  if k.mode.isDataset then r.captures.contains k else r.streams.contains k

/-- Change the counters. -/
def count (r : Reconciler) (f : Counters → Counters) : Reconciler :=
  { r with counters := f r.counters }

/-- Enter a new poller. -/
def enter (r : Reconciler) (k : PollerKey) (poller : PollerRef) : Reconciler :=
  let r := r.count fun c => { c with pollersCreated := c.pollersCreated + 1 }
  if k.mode.isDataset then
    { r with captures := r.captures.insert k { poller, signal := k.signal } }
  else
    { r with streams := r.streams.insert k { poller, reported := .unknown k.signal } }

/-- Mark all pollers as not visited. -/
def markUnused (r : Reconciler) : Reconciler :=
  { r with
    streams := r.streams.map fun e => { e with inUse := false }
    captures := r.captures.map fun e => { e with inUse := false } }

/-- The pollers that the current pass has not visited. -/
def stale (r : Reconciler) : List PollerRef :=
  ((r.streams.filter fun _ e => !e.inUse).values.map fun e => e.poller) ++
    (r.captures.filter fun _ e => !e.inUse).values.map fun e => e.poller

/-- Let go of the pollers that the current pass has not visited. -/
def evict (r : Reconciler) (h : Hub) : Reconciler × Hub :=
  ({ r with
      streams := r.streams.filter fun _ e => e.inUse
      captures := r.captures.filter fun _ e => e.inUse
      counters := { r.counters with
        pollersEvicted := r.counters.pollersEvicted + r.stale.length } },
    r.stale.foldl Hub.release h)

/-- All pollers. -/
def pollers (r : Reconciler) : List PollerRef :=
  (r.streams.values.map fun e => e.poller) ++ r.captures.values.map fun e => e.poller

/-- Let go of all pollers. -/
def clear (r : Reconciler) (h : Hub) : Reconciler × Hub :=
  ({ r with streams := .empty, captures := .empty }, r.pollers.foldl Hub.release h)

/-- Visit the poller of a key: mark it and empty its queue. -/
def collect (r : Reconciler) (h : Hub) (k : PollerKey) : Option (Collection × Reconciler × Hub) :=
  if k.mode.isDataset then do
    let e ← r.captures.get? k
    let q ← h.captures? e.poller
    let (c, q) := q.collectCaptures e.signal
    some (c, { r with captures := r.captures.insert k { e with inUse := true } },
      h.setCaptures e.poller q)
  else do
    let e ← r.streams.get? k
    let q ← h.stream? e.poller
    let (c, reported, q) := q.collectBlocks e.reported
    some (c, { r with streams := r.streams.insert k { e with inUse := true, reported } },
      h.setStream e.poller q)

end Reconciler

/-- The state of a pass. -/
structure Pass where
  /-- The reconciler. -/
  reconciler : Reconciler
  /-- The sinks. -/
  hub : Hub
  /-- Whether every poller visited so far had ended. -/
  finished : Bool := true
  /-- The notifications so far. -/
  notifications : List Notification := []

namespace Pass

/-- Open the poller of a key unless it is there. In a flush pass a missing poller stays missing. -/
def ensure (grant : Grant) (flush : Bool) (p : Pass) (k : PollerKey) : Pass :=
  if p.reconciler.contains k || flush then p
  else
    match grant p.hub k with
    | .ok (poller, hub) => { p with reconciler := p.reconciler.enter k poller, hub }
    | .error e => { p with reconciler := p.reconciler.count fun c => c.refuse e }

/-- Visit the poller of a key, if it is there, and hand out what it holds. -/
def serve (p : Pass) (v : Visit) : Pass :=
  match p.reconciler.collect p.hub v.key with
  | none => p
  | some (c, reconciler, hub) =>
    { reconciler := reconciler.count fun n =>
        { n with notifications := n.notifications + c.replies.length }
      hub
      finished := p.finished && c.finished
      notifications := p.notifications ++ c.replies.map fun reply => ⟨v.filter, reply⟩ }

/-- One stop of the walk. -/
def visit (grant : Grant) (flush : Bool) (p : Pass) (v : Visit) : Pass :=
  (p.ensure grant flush v.key).serve v

end Pass

namespace Reconciler

/-- The state before the walk over the topics. -/
def begin (r : Reconciler) (h : Hub) (topics : List Topic) : Pass where
  reconciler := r.markUnused.count fun c =>
    { c with
      passes := c.passes + 1
      skippedSubscriptions := c.skippedSubscriptions + unreadableCount r.service topics }
  hub := h

/-- One pass over the active topics. Its result says whether every visited poller had ended. -/
def pass (grant : Grant) (flush : Bool) (r : Reconciler) (h : Hub) (topics : List Topic) : Pass :=
  let p := (visits r.service topics).foldl (Pass.visit grant flush) (r.begin h topics)
  let (reconciler, hub) := p.reconciler.evict p.hub
  { p with reconciler, hub }

end Reconciler

end Daq
