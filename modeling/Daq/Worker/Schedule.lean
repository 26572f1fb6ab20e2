import Daq.Graph.Manual
import Daq.Worker

set_option autoImplicit false

/-!
# Schedules of a worker

A schedule says when the execution thread makes its steps between those of the lifecycle thread.
With a schedule a tick is a function. Here are two of them: one for graphs on command, which end in
a flush pass of their choice, and one in which the execution thread is always ahead.

## Main definitions

* `Daq.Station.tick`, `Daq.Station.run` — a tick and the loop over ticks for graphs on command.
* `Daq.Station.command` — telling the running graph what to do.
* `Daq.Station.untilIdle` — the loop over ticks until a graph is done.
-/

namespace Daq.Station

/-- Several steps of the execution thread. -/
def executeMany {γ : Type} [FlowGraph γ] : Nat → Station γ → Station γ
  | 0, s => s
  | n + 1, s => executeMany n s.execute

/-! ### Graphs on command -/

/-- The number of flush passes that the running graph waits for. -/
def linger (s : Station ManualGraph) : Nat :=
  (s.worker.scheduler.map fun x => x.graph.linger).getD 0

/-- A graph that was asked to stop ends just before the flush pass that it waits for, or when it is
joined. -/
def lingering (s : Station ManualGraph) : Station ManualGraph :=
  let due := match s.worker.stage with
    | .flushing _ passes => passes == s.linger
    | .joining _ => true
    | _ => false
  if due then s.executeMany Scheduler.endSteps else s

/-- More steps than a tick takes. -/
def fuel (s : Station ManualGraph) : Nat := s.linger + 100

/-- A tick by hand. -/
def tick (s : Station ManualGraph) : Station ManualGraph :=
  s.beginTick.settle lingering s.fuel

/-- The loop over ticks, if it ends within a few of them. -/
def run (s : Station ManualGraph) : Station ManualGraph :=
  s.beginTick.runOn lingering (10 * s.fuel)

/-- Tell the graph with this label what to do and let it make so many steps; the number of its
stops so far, or none if it does not run. -/
def command (s : Station ManualGraph) (label : String) (f : ManualGraph → ManualGraph)
    (steps : Nat) : Option Nat × Station ManualGraph :=
  if s.worker.scheduler.any fun x => x.graph.label == label && !x.isGone then
    let s := (s.modifyGraph f).executeMany steps
    (s.worker.scheduler.map fun x => x.graph.stops, s)
  else (none, s)

/-! ### Execution ahead of the lifecycle -/

variable {γ : Type} [FlowGraph γ]

/-- Whether the worker is idle after a number of graphs. -/
def idleAfter (s : Station γ) (generation : Nat) : Bool :=
  s.worker.isAtRest && s.worker.seenState == .idle && s.worker.generation == generation &&
    !s.worker.slot.isPending

/-- Steps of the loop over ticks until the worker is idle after a number of graphs or has ended.
Before each of them the execution thread makes so many steps of its own. -/
def untilIdle (ahead generation : Nat) : Nat → Station γ → Station γ
  | 0, s => s
  | fuel + 1, s =>
    if s.idleAfter generation || s.hasEnded then s
    else untilIdle ahead generation fuel (s.executeMany ahead).runStep

/-- Request a stop and wait for the end. -/
def shutdown (s : Station γ) (fuel : Nat) : Station γ :=
  s.requestStop.runOn (executeMany Scheduler.endSteps) fuel

/-- The result of the lifecycle thread. -/
def result (s : Station γ) : Except AcqError Unit :=
  match s.outcome? with
  | some r => r
  | none => .error (.scheduler "Worker thread panicked")

end Daq.Station
