import Daq.Key
import Daq.Sink
import Daq.Table

set_option autoImplicit false

/-!
# Hubs

A hub holds the sinks of a process and names them by their signals. Consumers ask the hub for a
poller by signal; a later sink of the same name replaces the earlier one in the directory, but
pollers stay with the sink they were attached to.

## Main definitions

* `Daq.Hub` — the sinks, the directory and the queue capacities.
* `Daq.PollerRef` — a consumer's hold on one tap of one sink.
* `Daq.Hub.request` — a poller through the directory.
* `Daq.Hub.requestOf`, `Daq.Hub.captureRequest` — what a key stands for.
* `Daq.Hub.serve` — the poller of a key.
-/

namespace Daq

/-- Queue capacities of pollers that are requested through the directory. -/
structure Capacities where
  /-- Capacity for blocks. -/
  streaming : Nat := 1024
  /-- Capacity for captures. -/
  dataset : Nat := 64
  deriving DecidableEq, Inhabited

/-- The sinks of a process. -/
structure Hub where
  /-- All sinks ever made; a sink is known by its position. -/
  sinks : List Sink := []
  /-- The sink registered for each signal. -/
  directory : Table String Nat := .empty
  /-- The queue capacities. -/
  capacities : Capacities := {}

/-- A consumer's hold on one tap of one sink. -/
structure PollerRef where
  /-- The sink. -/
  sink : Nat
  /-- The tap at the sink. -/
  tap : Nat
  deriving DecidableEq, Inhabited, Repr

namespace Hub

/-- Make a sink; its position and the hub with it. -/
def make (h : Hub) (d : Descriptor) (rate : Single) : Nat × Hub :=
  (h.sinks.length, { h with sinks := h.sinks ++ [{ descriptor := d, rate }] })

/-- Change a sink. -/
def modify (h : Hub) (sink : Nat) (f : Sink → Sink) : Hub :=
  { h with sinks := h.sinks.modify sink f }

/-- Enter a sink into the directory under the name of its signal. -/
def register (h : Hub) (sink : Nat) : Hub :=
  match h.sinks[sink]? with
  | some s => { h with directory := h.directory.insert s.descriptor.name sink }
  | none => h

/-- Remove a signal from the directory. -/
def unregister (h : Hub) (signal : String) : Hub :=
  { h with directory := h.directory.erase signal }

/-- The sink registered for a signal. -/
def lookup? (h : Hub) (signal : String) : Option Nat := h.directory.get? signal

/-- The registered signals, in order. -/
def names (h : Hub) : List String := h.directory.keys

/-- Push a block into a sink. -/
def push (h : Hub) (sink : Nat) (b : Block) : Hub := h.modify sink (·.push b)

/-- Stop a sink. -/
def stop (h : Hub) (sink : Nat) : Hub := h.modify sink (·.stop)

/-- The number of pollers at a sink, after letting go of the released ones. -/
def pollerCount (h : Hub) (sink : Nat) : Nat := (h.sinks[sink]?.map Sink.tapCount).getD 0

/-- Attach a poller to a sink. -/
def attach (h : Hub) (sink capacity : Nat) (r : Request) : Except AcqError (PollerRef × Hub) :=
  match h.sinks[sink]? with
  | none => .error (.unknownSignal "")
  | some s =>
    match s.attach capacity r with
    | .error e => .error e
    | .ok (tap, s) => .ok (⟨sink, tap⟩, h.modify sink fun _ => s)

/-- The queue capacity for a request. -/
def capacityFor (h : Hub) : Request → Nat
  | .streaming => h.capacities.streaming
  | _ => h.capacities.dataset

/-- Attach a poller to the sink registered for a signal. -/
def request (h : Hub) (signal : String) (r : Request) : Except AcqError (PollerRef × Hub) :=
  match h.lookup? signal with
  | none => .error (.unknownSignal signal)
  | some sink => h.attach sink (h.capacityFor r) r

/-- The request that a key stands for. -/
def requestOf (k : PollerKey) : Request :=
  match k.mode with
  | .continuous => .streaming
  | .triggered => .triggered (Tag.selectedBy k.trigger) k.pre k.post
  | .multiplexed => .multiplexed (Tag.selectedBy k.trigger) k.window
  | .snapshot => .snapshot (Tag.selectedBy k.trigger) k.delay

/-- The request for captures that a key stands for; the key of a stream stands for none. -/
def captureRequest (k : PollerKey) : Except AcqError Request :=
  match k.mode with
  | .continuous => .error (.invalidArgument (k.render ++ " is not a dataset poller"))
  | _ => .ok (requestOf k)

/-- The poller of a key, through the directory. -/
def serve (h : Hub) (k : PollerKey) : Except AcqError (PollerRef × Hub) :=
  if k.mode.isDataset then captureRequest k >>= h.request k.signal
  else h.request k.signal (requestOf k)

/-- The tap that a consumer holds. -/
def tap? (h : Hub) (p : PollerRef) : Option Tap := h.sinks[p.sink]?.bind fun s => s.tap? p.tap

/-- Change the tap that a consumer holds. -/
def modifyTap (h : Hub) (p : PollerRef) (f : Tap → Tap) : Hub :=
  h.modify p.sink fun s => s.modifyTap p.tap f

/-- Let go of a poller. -/
def release (h : Hub) (p : PollerRef) : Hub := h.modifyTap p fun t => { t with released := true }

/-- Whether the producer of a poller has ended. -/
def finished (h : Hub) (p : PollerRef) : Bool :=
  (h.tap? p).any fun t => t.outlet.finished

/-- Replace the queue of blocks of a poller. -/
def setStream (h : Hub) (p : PollerRef) (q : Queue Block) : Hub :=
  h.modifyTap p fun t => { t with outlet := .stream q }

/-- Replace the queue of captures of a poller. -/
def setCaptures (h : Hub) (p : PollerRef) (q : Queue Capture) : Hub :=
  h.modifyTap p fun t =>
    match t.outlet with
    | .stream _ => t
    | .captures o _ => { t with outlet := .captures o q }

/-- The queue of blocks of a poller. -/
def stream? (h : Hub) (p : PollerRef) : Option (Queue Block) :=
  (h.tap? p).bind fun t => t.outlet.stream?

/-- The queue of captures of a poller. -/
def captures? (h : Hub) (p : PollerRef) : Option (Queue Capture) :=
  (h.tap? p).bind fun t => t.outlet.captures?

/-- The blocks that `f` takes from the queue of a poller, and the hub afterwards. -/
def takeBlocks (h : Hub) (p : PollerRef) (f : Queue Block → List Block × Queue Block) :
    List Block × Hub :=
  match h.stream? p with
  | some q => ((f q).1, h.setStream p (f q).2)
  | none => ([], h)

/-- The captures that `f` takes from the queue of a poller, and the hub afterwards. -/
def takeCaptures (h : Hub) (p : PollerRef) (f : Queue Capture → List Capture × Queue Capture) :
    List Capture × Hub :=
  match h.captures? p with
  | some q => ((f q).1, h.setCaptures p (f q).2)
  | none => ([], h)

end Hub

end Daq
