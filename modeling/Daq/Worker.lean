import Daq.Broker
import Daq.Config.Worker
import Daq.Reconciler
import Daq.Scheduler
import Daq.Slot
import Daq.Text.Quoted

set_option autoImplicit false

/-!
# Workers

A worker owns the pollers of one service and at most one running graph. In every tick it makes one
pass over the subscriptions. When the graph has to go, because another one waits, a stop was
requested or it ended by itself, the worker drains it: it asks the execution thread to stop, makes
flush passes until every poller has ended, lets go of all pollers, and only then joins the thread.

The lifecycle thread works in atomic steps, between which clients and the execution thread act.
What it makes known to others (statistics, state, events) it writes one after the other; statistics
are always written before the state.

## Main definitions

* `Daq.WorkerState`, `Daq.WorkerEvent`, `Daq.WorkerStats` — what others see.
* `Daq.Stage` — where the lifecycle thread is.
* `Daq.Worker` — the state of a worker.
* `Daq.Station` — a worker with the sinks and the broker.
* `Daq.Station.step` — the next step of the lifecycle thread.
* `Daq.Station.beginTick`, `Daq.Station.resume` — ticks by hand and the loop over ticks.
-/

namespace Daq

/-- The state of a worker. -/
inductive WorkerState where
  /-- There is no graph. -/
  | idle
  /-- A graph runs. -/
  | running
  /-- The graph is asked to stop and the pollers are flushed. -/
  | draining
  /-- The next graph is started. -/
  | replacing
  /-- The end. -/
  | shuttingDown
  deriving DecidableEq, Inhabited

namespace WorkerState

/-- The word for a state. -/
def name : WorkerState → String
  | idle => "idle"
  | running => "running"
  | draining => "draining"
  | replacing => "replacing-graph"
  | shuttingDown => "shutting-down"

/-- The name of a state in diagnostics. -/
def label : WorkerState → String
  | idle => "Idle"
  | running => "Running"
  | draining => "Draining"
  | replacing => "ReplacingGraph"
  | shuttingDown => "ShuttingDown"

end WorkerState

/-- What a worker reports. -/
inductive WorkerEvent where
  /-- The state has changed. -/
  | stateChanged (source target : WorkerState)
  /-- A graph runs. -/
  | graphStarted (generation : Nat) (name : String)
  /-- Every poller has ended after so many flush passes. -/
  | drainCompleted (generation passes : Nat)
  /-- The execution thread was joined. -/
  | graphStopped (generation : Nat)
  /-- The worker ended with an error. -/
  | failed (message : String)
  deriving DecidableEq, Inhabited

/-- The counters of a worker. -/
structure WorkerStats where
  /-- Ticks begun. -/
  ticks : Nat := 0
  /-- Graphs started. -/
  generation : Nat := 0
  /-- The counters of the reconciler. -/
  counters : Counters := {}
  deriving DecidableEq, Inhabited

/-- Something to make known to others. -/
inductive Publication where
  /-- The statistics. -/
  | stats
  /-- The state. -/
  | state (s : WorkerState)
  /-- An event. -/
  | event (e : WorkerEvent)
  deriving DecidableEq

/-- What a tick wants to do after its pass. -/
inductive Aim (γ : Type) where
  /-- Keep the graph as long as it runs. -/
  | keep
  /-- Replace the graph by one that was taken from the slot. -/
  | replace (graph : γ)
  /-- Shut down. -/
  | shutDown

/-- Where the lifecycle thread is. -/
inductive Stage (γ : Type) where
  /-- Between ticks; how the last one ended. -/
  | resting (last : Except AcqError Unit)
  /-- A tick has begun; whether it found a stop requested. -/
  | begun (stop : Bool)
  /-- The pass of the tick is over. -/
  | passed (stop : Bool)
  /-- The slot was looked at. -/
  | chosen (aim : Aim γ)
  /-- The graph is to be asked to stop. -/
  | asking (aim : Aim γ)
  /-- Flush passes are made. -/
  | flushing (aim : Aim γ) (passes : Nat)
  /-- Every poller has ended. -/
  | drained (aim : Aim γ) (passes : Nat)
  /-- The execution thread is waited for. -/
  | joining (aim : Aim γ)
  /-- There is no graph any more. -/
  | settled (aim : Aim γ)
  /-- A graph is to be started. -/
  | starting (graph : γ)
  /-- The statistics of the tick are to be published. -/
  | closing
  /-- The loop over ticks has ended. -/
  | over (result : Except AcqError Unit)
  /-- The lifecycle thread failed. -/
  | crashed

/-- The state of a worker. -/
structure Worker (γ : Type) where
  /-- The tuning. -/
  config : WorkerConfig
  /-- The pollers. -/
  reconciler : Reconciler
  /-- The graph that waits. -/
  slot : Slot γ := {}
  /-- Whether a stop was requested. -/
  stopRequested : Bool := false
  /-- The running graph. -/
  scheduler : Option (Scheduler γ) := none
  /-- The state. -/
  state : WorkerState := .idle
  /-- The number of graphs started. -/
  generation : Nat := 0
  /-- The number of ticks begun. -/
  ticks : Nat := 0
  /-- The events that wait to be read. -/
  events : Queue WorkerEvent
  /-- The published state. -/
  seenState : WorkerState := .idle
  /-- The published statistics. -/
  seenStats : WorkerStats := {}
  /-- What is still to be made known. -/
  outbox : List Publication := []
  /-- Where the lifecycle thread is. -/
  stage : Stage γ := .resting (.ok ())

namespace Worker

variable {γ : Type}

/-- A worker that has not made a tick yet. -/
def ofConfig (config : WorkerConfig) : Worker γ where
  config
  reconciler := { service := config.servicePath }
  events := .ofCapacity config.eventCapacity

/-- The counters. -/
def stats (w : Worker γ) : WorkerStats := ⟨w.ticks, w.generation, w.reconciler.counters⟩

/-- The text of a worker in diagnostics. -/
def render (w : Worker γ) : String :=
  "AcquisitionWorker \x7b service: " ++ Text.quoted w.config.servicePath ++
    ", state: " ++ w.state.label ++ ", generation: " ++ toString w.generation ++
    ", ticks: " ++ toString w.ticks ++ " \x7d"

/-- Go to a stage. -/
def enter (w : Worker γ) (stage : Stage γ) : Worker γ := { w with stage }

/-- Report an event after what is still to be made known. -/
def emit (w : Worker γ) (e : WorkerEvent) : Worker γ :=
  { w with outbox := w.outbox ++ [.event e] }

/-- Change the state. If it differs, publish statistics and state and report the change. -/
def transition (w : Worker γ) (target : WorkerState) : Worker γ :=
  if w.state = target then w
  else
    { w with
      state := target
      outbox := w.outbox ++ [.stats, .state target, .event (.stateChanged w.state target)] }

/-- Make one thing known. -/
def publish (w : Worker γ) : Publication → Worker γ
  | .stats => { w with seenStats := w.stats }
  | .state s => { w with seenState := s }
  | .event e => { w with events := w.events.publish e }

/-- Whether no tick is under way and everything is made known. -/
def isAtRest (w : Worker γ) : Bool :=
  match w.stage with
  | .resting _ => w.outbox.isEmpty
  | .over _ => w.outbox.isEmpty
  | .crashed => true
  | _ => false

end Worker

/-- A worker with the sinks and the broker. -/
structure Station (γ : Type) where
  /-- The sinks. -/
  hub : Hub := {}
  /-- The broker. -/
  broker : Broker
  /-- The worker. -/
  worker : Worker γ
  /-- Why no execution thread can be made, if so. -/
  refusal : Option String := none

namespace Station

variable {γ : Type} [FlowGraph γ]

/-- A station with a worker that has not made a tick yet. -/
def ofConfig (config : WorkerConfig) : Station γ where
  hub := { capacities := config.capacities }
  broker := .ofCapacity config.subscriberCapacity
  worker := .ofConfig config

/-- Change the worker. -/
def withWorker (s : Station γ) (f : Worker γ → Worker γ) : Station γ :=
  { s with worker := f s.worker }

/-! ### Clients and the execution thread -/

/-- Put a graph into the slot; whether it takes the place of a waiting one, which is given up. -/
def setGraph (s : Station γ) (g : γ) : Bool × Station γ :=
  let (old, slot) := s.worker.slot.set g
  (old.isSome,
    { s with
      worker := { s.worker with slot }
      hub := old.elim s.hub fun g => FlowGraph.discard g s.hub })

/-- Request a stop of the worker. -/
def requestStop (s : Station γ) : Station γ := s.withWorker fun w => { w with stopRequested := true }

/-- Change the running graph. -/
def modifyGraph (s : Station γ) (f : γ → γ) : Station γ :=
  s.withWorker fun w =>
    { w with scheduler := w.scheduler.map fun x => { x with graph := f x.graph } }

/-- The next step of the execution thread, if there is one. -/
def execute (s : Station γ) : Station γ :=
  match s.worker.scheduler with
  | none => s
  | some x =>
    let (x, hub) := x.step s.hub
    { s with worker := { s.worker with scheduler := some x }, hub }

/-! ### The lifecycle thread -/

/-- A pass of the reconciler over the active topics, with its notifications delivered; whether
every visited poller had ended. -/
def reconcile (s : Station γ) (flush : Bool) : Bool × Station γ :=
  let p := s.worker.reconciler.pass Hub.serve flush s.hub s.broker.active
  (p.finished,
    { s with
      hub := p.hub
      broker := s.broker.notifyAll s.worker.reconciler.service p.notifications
      worker := { s.worker with reconciler := p.reconciler } })

/-- Let go of all pollers. -/
def clear (s : Station γ) : Station γ :=
  let (reconciler, hub) := s.worker.reconciler.clear s.hub
  { s with hub, worker := { s.worker with reconciler } }

/-- Give up a graph that was taken but not started. -/
def giveUp (s : Station γ) : Aim γ → Station γ
  | .replace g => { s with hub := FlowGraph.discard g s.hub }
  | _ => s

/-- Begin a tick: count it and read the stop flag. -/
def beginTick (s : Station γ) : Station γ :=
  s.withWorker fun w => { w with ticks := w.ticks + 1, stage := .begun w.stopRequested }

/-- After the beginning of a tick: without a graph, shut down or start the waiting one; with a
graph, make a pass. -/
def stepBegun (s : Station γ) (stop : Bool) : Station γ :=
  match s.worker.state with
  | .idle =>
    if stop then s.withWorker fun w => (w.transition .shuttingDown).enter .closing
    else
      let (next, slot) := s.worker.slot.take
      s.withWorker fun w =>
        { w with slot, stage := next.elim .closing .starting }
  | .running => (s.reconcile false).2.withWorker fun w => w.enter (.passed stop)
  | _ => s.withWorker fun w => w.enter .closing

/-- After a pass: look at the slot, unless a stop was requested. -/
def stepPassed (s : Station γ) (stop : Bool) : Station γ :=
  if stop then s.withWorker fun w => w.enter (.chosen .shutDown)
  else
    let (next, slot) := s.worker.slot.take
    s.withWorker fun w => { w with slot, stage := .chosen (next.elim .keep .replace) }

/-- After a look at the slot: drain the graph unless it may run on. -/
def stepChosen (s : Station γ) (aim : Aim γ) : Station γ :=
  s.withWorker fun w =>
    match w.scheduler, aim with
    | none, _ => w.enter (.settled aim)
    | some x, .keep =>
      if x.running then w.enter .closing else (w.transition .draining).enter (.asking aim)
    | some _, _ => (w.transition .draining).enter (.asking aim)

/-- Ask the graph to stop. -/
def stepAsking (s : Station γ) (aim : Aim γ) : Station γ :=
  s.withWorker fun w =>
    { w with
      scheduler := w.scheduler.map Scheduler.requestStop
      stage := .flushing aim 0 }

/-- A flush pass. -/
def stepFlushing (s : Station γ) (aim : Aim γ) (passes : Nat) : Station γ :=
  let (finished, s) := s.reconcile true
  s.withWorker fun w =>
    w.enter (if finished then .drained aim (passes + 1) else .flushing aim (passes + 1))

/-- Let go of the pollers after the last flush pass. -/
def stepDrained (s : Station γ) (aim : Aim γ) (passes : Nat) : Station γ :=
  s.clear.withWorker fun w =>
    (w.emit (.drainCompleted w.generation passes)).enter (.joining aim)

/-- Wait for the execution thread to end. If the graph failed, the tick fails. -/
def stepJoining (s : Station γ) (aim : Aim γ) : Station γ :=
  match s.worker.scheduler.bind Scheduler.joined? with
  | none => s
  | some (.ok ()) =>
    s.withWorker fun w =>
      ({ w with scheduler := none }.emit (.graphStopped w.generation)).enter (.settled aim)
  | some (.error e) =>
    (s.giveUp aim).withWorker fun w =>
      { w with scheduler := none, stage := .resting (.error e) }

/-- Without a graph any more: become idle, start the next one, or shut down. -/
def stepSettled (s : Station γ) (aim : Aim γ) : Station γ :=
  s.withWorker fun w =>
    match aim with
    | .keep => (w.transition .idle).enter .closing
    | .replace g => (w.transition .replacing).enter (.starting g)
    | .shutDown => (w.transition .shuttingDown).enter .closing

/-- Start a graph. -/
def stepStarting (s : Station γ) (g : γ) : Station γ :=
  match Scheduler.launch s.refusal g s.hub with
  | .started x hub =>
    { s with hub }.withWorker fun w =>
      let w := { w with generation := w.generation + 1, scheduler := some x }
      ((w.transition .running).emit (.graphStarted w.generation x.name)).enter .closing
  | .refused e hub =>
    { s with hub }.withWorker fun w =>
      w.enter (.resting (.error
        (.withContext ("Failed to start graph '" ++ FlowGraph.name g ++ "'") e)))
  | .crashed hub => { s with hub }.clear.withWorker fun w => w.enter .crashed

/-- The next step of the lifecycle thread in a tick. What is still to be made known comes first. -/
def step (s : Station γ) : Station γ :=
  match s.worker.outbox with
  | p :: rest => s.withWorker fun w => { w with outbox := rest }.publish p
  | [] =>
    match s.worker.stage with
    | .resting _ => s
    | .begun stop => s.stepBegun stop
    | .passed stop => s.stepPassed stop
    | .chosen aim => s.stepChosen aim
    | .asking aim => s.stepAsking aim
    | .flushing aim passes => s.stepFlushing aim passes
    | .drained aim passes => s.stepDrained aim passes
    | .joining aim => s.stepJoining aim
    | .settled aim => s.stepSettled aim
    | .starting g => s.stepStarting g
    | .closing =>
      s.withWorker fun w =>
        { w with outbox := [.stats], stage := .resting (.ok ()) }
    | .over _ => s
    | .crashed => s

/-- What the loop over ticks does after a tick: it begins the next one unless the worker has shut
down. After a tick that failed it lets go of all pollers, shuts down and reports the error. -/
def resume (s : Station γ) : Station γ :=
  match s.worker.stage with
  | .resting (.ok ()) =>
    if s.worker.state = .shuttingDown then
      s.withWorker fun w => { w with outbox := [.stats], stage := .over (.ok ()) }
    else s.beginTick
  | .resting (.error e) =>
    s.clear.withWorker fun w =>
      let w := (w.transition .shuttingDown).emit (.failed e.message)
      { w with outbox := w.outbox ++ [.stats], stage := .over (.error e) }
  | _ => s

/-- The next step of the lifecycle thread in the loop over ticks. -/
def runStep (s : Station γ) : Station γ := if s.worker.isAtRest then s.resume else s.step

/-- Whether the lifecycle thread has ended. -/
def hasEnded (s : Station γ) : Bool :=
  match s.worker.stage with
  | .over _ => s.worker.outbox.isEmpty
  | .crashed => true
  | _ => false

/-- Steps of the lifecycle thread until it is at rest, at most `fuel` of them; `before` says what
the others do before each step. -/
def settle (before : Station γ → Station γ) : Nat → Station γ → Station γ
  | 0, s => s
  | fuel + 1, s => if s.worker.isAtRest then s else settle before fuel (before s).step

/-- Steps of the loop over ticks until it has ended, at most `fuel` of them; `before` says what the
others do before each step. -/
def runOn (before : Station γ → Station γ) : Nat → Station γ → Station γ
  | 0, s => s
  | fuel + 1, s => if s.hasEnded then s else runOn before fuel (before s).runStep

/-- How the last tick ended. -/
def outcome? (s : Station γ) : Option (Except AcqError Unit) :=
  match s.worker.stage with
  | .resting last => some last
  | .over result => some result
  | _ => none

end Station

end Daq
