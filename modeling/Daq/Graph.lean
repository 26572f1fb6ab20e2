import Daq.Hub

set_option autoImplicit false

/-!
# Graphs

A graph produces blocks and pushes them into its sinks. It is started once, works in rounds until
it is asked to stop or says that it is done, and is given up in the end. Starting, working and
stopping may each fail; what the graph did to the sinks before it failed stays done.

## Main definitions

* `Daq.WorkStatus` — what a round of work says.
* `Daq.FlowGraph` — what is run on an execution thread.
-/

namespace Daq

/-- What a round of work says. -/
inductive WorkStatus where
  /-- Something was produced. -/
  | ok
  /-- There is nothing to do right now. -/
  | idle
  /-- There will be no more data. -/
  | done
  deriving DecidableEq, Inhabited

namespace WorkStatus

/-- The word for a status. -/
def name : WorkStatus → String
  | ok => "ok"
  | idle => "idle"
  | done => "done"

end WorkStatus

/-- What is run on an execution thread. -/
class FlowGraph (γ : Type) where
  /-- The name in diagnostics. -/
  name : γ → String
  /-- Enter the sinks into the directory; none if this fails. -/
  start : γ → Hub → Option Hub
  /-- One round of work; its status is none if the graph failed. -/
  work : γ → Hub → Option WorkStatus × γ × Hub
  /-- End the production; false if the graph failed. -/
  stop : γ → Hub → Bool × γ × Hub
  /-- Give the graph up; its sinks stop. -/
  discard : γ → Hub → Hub

/-- Stop several sinks. -/
def Hub.stopAll (h : Hub) (sinks : List Nat) : Hub := sinks.foldl Hub.stop h

/-- Enter several sinks into the directory. -/
def Hub.registerAll (h : Hub) (sinks : List Nat) : Hub := sinks.foldl Hub.register h

/-- Either of two kinds of graphs. -/
instance {α β : Type} [FlowGraph α] [FlowGraph β] : FlowGraph (α ⊕ β) where
  name
    | .inl a => FlowGraph.name a
    | .inr b => FlowGraph.name b
  start
    | .inl a => FlowGraph.start a
    | .inr b => FlowGraph.start b
  work
    | .inl a, h => let r := FlowGraph.work a h; (r.1, .inl r.2.1, r.2.2)
    | .inr b, h => let r := FlowGraph.work b h; (r.1, .inr r.2.1, r.2.2)
  stop
    | .inl a, h => let r := FlowGraph.stop a h; (r.1, .inl r.2.1, r.2.2)
    | .inr b, h => let r := FlowGraph.stop b h; (r.1, .inr r.2.1, r.2.2)
  discard
    | .inl a => FlowGraph.discard a
    | .inr b => FlowGraph.discard b

end Daq
