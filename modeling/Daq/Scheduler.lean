import Daq.Error
import Daq.Graph

set_option autoImplicit false

/-!
# Schedulers

A scheduler runs one graph on an execution thread of its own: it works in rounds until a stop is
requested or the graph is done, and then stops the graph. A graph that fails ends the thread at
once. In any case the thread first gives up its running flag and then the graph.

## Main definitions

* `Daq.Phase` — where the execution thread is.
* `Daq.Scheduler.launch` — starting a graph.
* `Daq.Scheduler.step` — what the execution thread does next.
* `Daq.Scheduler.joined?` — the result, once the thread has ended.
-/

namespace Daq

/-- Where an execution thread is. -/
inductive Phase where
  /-- Before a round of work. -/
  | looping
  /-- Before the graph is stopped. -/
  | stopping
  /-- No longer running; the graph is still to be given up. -/
  | leaving (failed : Bool)
  /-- Ended. -/
  | gone (failed : Bool)
  deriving DecidableEq, Inhabited

/-- A graph with its execution thread. -/
structure Scheduler (γ : Type) where
  /-- The graph. -/
  graph : γ
  /-- Where the execution thread is. -/
  phase : Phase := .looping
  /-- Whether a stop was requested. -/
  stopRequested : Bool := false

/-- What comes of starting a graph. -/
inductive Launch (γ : Type) where
  /-- The graph runs. -/
  | started (scheduler : Scheduler γ) (hub : Hub)
  /-- No thread could be made. -/
  | refused (error : AcqError) (hub : Hub)
  /-- The graph failed. -/
  | crashed (hub : Hub)

namespace Scheduler

variable {γ : Type} [FlowGraph γ]

/-- Start a graph on a thread of its own. If no thread can be made, `refusal` says why. -/
def launch (refusal : Option String) (g : γ) (h : Hub) : Launch γ :=
  match FlowGraph.start g h with
  | none => .crashed (FlowGraph.discard g h)
  | some h =>
    match refusal with
    | some why =>
      .refused (.scheduler ("Failed to spawn execution thread: " ++ why)) (FlowGraph.discard g h)
    | none => .started { graph := g } h

/-- The name of the graph. -/
def name (s : Scheduler γ) : String := FlowGraph.name s.graph

/-- Whether the execution thread says that it is running. -/
def running (s : Scheduler γ) : Bool :=
  match s.phase with
  | .looping => true
  | .stopping => true
  | .leaving _ => false
  | .gone _ => false

/-- Whether the execution thread has ended. -/
def isGone (s : Scheduler γ) : Bool :=
  match s.phase with
  | .gone _ => true
  | _ => false

/-- Ask the execution thread to stop after its current round. -/
def requestStop (s : Scheduler γ) : Scheduler γ := { s with stopRequested := true }

/-- The phase after a round of work. -/
def phaseAfter : Option WorkStatus → Phase
  | some .done => .stopping
  | some _ => .looping
  | none => .leaving true

/-- The next step of the execution thread. -/
def step (s : Scheduler γ) (h : Hub) : Scheduler γ × Hub :=
  match s.phase with
  | .looping =>
    if s.stopRequested then ({ s with phase := .stopping }, h)
    else
      let r := FlowGraph.work s.graph h
      ({ s with graph := r.2.1, phase := phaseAfter r.1 }, r.2.2)
  | .stopping =>
    let r := FlowGraph.stop s.graph h
    ({ s with graph := r.2.1, phase := .leaving (!r.1) }, r.2.2)
  | .leaving failed => ({ s with phase := .gone failed }, FlowGraph.discard s.graph h)
  | .gone _ => (s, h)

/-- Several steps of the execution thread. -/
def steps : Nat → Scheduler γ → Hub → Scheduler γ × Hub
  | 0, s, h => (s, h)
  | n + 1, s, h => let r := s.step h; steps n r.1 r.2

/-- The number of steps in which an execution thread ends after its last round of work has begun. -/
def endSteps : Nat := 4

/-- Ask for a stop and let the execution thread end. -/
def finish (s : Scheduler γ) (h : Hub) : Scheduler γ × Hub := s.requestStop.steps endSteps h

/-- The result of the execution thread, once it has ended. -/
def joined? (s : Scheduler γ) : Option (Except AcqError Unit) :=
  match s.phase with
  | .gone false => some (.ok ())
  | .gone true => some (.error (.scheduler ("Graph '" ++ s.name ++ "' panicked")))
  | _ => none

end Scheduler

end Daq
