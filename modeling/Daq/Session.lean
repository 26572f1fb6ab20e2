import Daq.Graph
import Daq.Reconciler

set_option autoImplicit false

/-!
# Sessions

A session drives sinks, pollers, subscriptions, graphs and one reconciler by hand, each object under
a name. A name that is given again stands for the new object; the old one is let go once the new
one exists. The reconciler reads the topics of the broker or a list of its own, and requests for
pollers can be refused altogether.

## Main definitions

* `Daq.Session` — the named objects.
* `Daq.Session.request`, `Daq.Session.attach` — pollers through the directory and at a sink.
* `Daq.Session.reconcile` — a pass.
-/

namespace Daq

/-- Objects under names. -/
structure Session (γ : Type) where
  /-- The sinks. -/
  hub : Hub
  /-- The broker. -/
  broker : Broker
  /-- The reconciler. -/
  reconciler : Reconciler
  /-- Why requests for pollers are refused, if they are. -/
  refusal : Option AcqError := none
  /-- The topics that take the place of those of the broker. -/
  topics : Option (List Topic) := none
  /-- The names of sinks. -/
  sinks : Table String Nat := .empty
  /-- The names of pollers. -/
  pollers : Table String PollerRef := .empty
  /-- The names of subscriptions. -/
  subscriptions : Table String Nat := .empty
  /-- The graphs. -/
  graphs : Table String γ := .empty

namespace Session

variable {γ : Type}

/-- Make a sink and register it if that is wanted. -/
def addSink (s : Session γ) (name : String) (d : Descriptor) (rate : Single) (register : Bool) :
    Nat × Session γ :=
  let (sink, hub) := s.hub.make d rate
  (sink, { s with
    hub := if register then hub.register sink else hub
    sinks := s.sinks.insert name sink })

/-- Name a poller. -/
def keep (s : Session γ) (name : String) (p : PollerRef) (hub : Hub) : PollerRef × Session γ :=
  (p, { s with
    hub := (s.pollers.get? name).elim hub hub.release
    pollers := s.pollers.insert name p })

/-- Attach a poller to a sink. -/
def attach (s : Session γ) (name : String) (sink capacity : Nat) (r : Request) :
    Except AcqError (PollerRef × Session γ) :=
  (s.hub.attach sink capacity r).map fun x => s.keep name x.1 x.2

/-- Request a poller through the directory. -/
def request (s : Session γ) (name signal : String) (r : Request) :
    Except AcqError (PollerRef × Session γ) :=
  match s.refusal with
  | some e => .error e
  | none => (s.hub.request signal r).map fun x => s.keep name x.1 x.2

/-- Let go of a poller; whether there was one. -/
def release (s : Session γ) (name : String) : Bool × Session γ :=
  match s.pollers.get? name with
  | some p => (true, { s with hub := s.hub.release p, pollers := s.pollers.erase name })
  | none => (false, s)

/-- Subscribe to a topic. -/
def subscribe (s : Session γ) (name : String) (t : Topic) : Session γ :=
  let (broker, subscriptions) := s.broker.subscribeAs s.subscriptions name t
  { s with broker, subscriptions }

/-- End a subscription; whether there was one. -/
def unsubscribe (s : Session γ) (name : String) : Bool × Session γ :=
  match s.subscriptions.get? name with
  | some id =>
    (true, { s with
      broker := s.broker.unsubscribe id
      subscriptions := s.subscriptions.erase name })
  | none => (false, s)

/-- Requests of the reconciler go through the directory, unless they are refused. -/
def grant (s : Session γ) : Grant := fun h k =>
  match s.refusal with
  | some e => .error e
  | none => h.serve k

/-- A pass of the reconciler with its notifications delivered. -/
def reconcile (s : Session γ) (flush : Bool) : Pass × Session γ :=
  let p := s.reconciler.pass s.grant flush s.hub (s.topics.getD s.broker.active)
  (p, { s with
    hub := p.hub
    reconciler := p.reconciler
    broker := s.broker.notifyAll s.reconciler.service p.notifications })

/-- Let the reconciler let go of all pollers. -/
def clear (s : Session γ) : Session γ :=
  let (reconciler, hub) := s.reconciler.clear s.hub
  { s with reconciler, hub }

variable [FlowGraph γ]

/-- Name a graph that was made with its sinks. -/
def addGraph (s : Session γ) (name : String) (g : γ) (hub : Hub) : Session γ :=
  { s with
    hub := (s.graphs.get? name).elim hub fun old => FlowGraph.discard old hub
    graphs := s.graphs.insert name g }

/-- Give up a graph; whether there was one. -/
def dropGraph (s : Session γ) (name : String) : Bool × Session γ :=
  match s.graphs.get? name with
  | some g => (true, { s with hub := FlowGraph.discard g s.hub, graphs := s.graphs.erase name })
  | none => (false, s)

/-- Rounds of work of a graph; what they say. -/
def work (name : String) : Nat → Session γ → List (Option WorkStatus) × Session γ
  | 0, s => ([], s)
  | n + 1, s =>
    match s.graphs.get? name with
    | none => ([], s)
    | some g =>
      let (status, g, hub) := FlowGraph.work g s.hub
      let (more, s) := work name n { s with hub, graphs := s.graphs.insert name g }
      (status :: more, s)

/-- Stop a graph. -/
def stopGraph (s : Session γ) (name : String) (g : γ) : Session γ :=
  let (_, g, hub) := FlowGraph.stop g s.hub
  { s with hub, graphs := s.graphs.insert name g }

end Session

end Daq
