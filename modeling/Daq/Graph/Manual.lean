import Daq.Graph

set_option autoImplicit false

/-!
# Graphs on command

A manual graph does in each round what it was told: push a block, end, or fail. When it is stopped
it pushes what was set aside as its tail and then stops its sinks.

## Main definitions

* `Daq.ManualGraph.Command` — what it can be told.
* `Daq.ManualGraph` — sinks, commands and tail.
-/

namespace Daq

/-- A block for all sinks of a signal. -/
structure Delivery where
  /-- The signal. -/
  signal : String
  /-- The block. -/
  block : Block
  deriving DecidableEq

/-- A graph that works on command. -/
structure ManualGraph where
  /-- The name. -/
  name : String
  /-- The sinks with their signals. -/
  outputs : List (String × Nat)
  /-- The label under which it takes commands. -/
  label : String := ""
  /-- The blocks to push before the sinks stop. -/
  tail : List Delivery := []
  /-- The blocks to push in the next rounds. -/
  inbox : List Delivery := []
  /-- Whether the graph ends when no block is left. -/
  ends : Bool := false
  /-- Whether the graph fails when no block is left. -/
  fails : Bool := false
  /-- Whether the graph fails when it is started. -/
  failsOnStart : Bool := false
  /-- The number of flush passes that a stop waits for. -/
  linger : Nat := 0
  /-- How often the graph was stopped. -/
  stops : Nat := 0

namespace ManualGraph

/-- Make the sinks of a graph. -/
def makeOutputs (h : Hub) : List (Descriptor × Single) → List (String × Nat) × Hub
  | [] => ([], h)
  | (d, rate) :: rest =>
    let (sink, h) := h.make d rate
    let (outputs, h) := makeOutputs h rest
    ((d.name, sink) :: outputs, h)

/-- The sinks. -/
def sinks (g : ManualGraph) : List Nat := g.outputs.map fun o => o.2

/-- The sinks of a signal. -/
def sinksOf (g : ManualGraph) (signal : String) : List Nat :=
  (g.outputs.filter fun o => o.1 == signal).map fun o => o.2

/-- Push a block into all sinks of its signal. -/
def publish (g : ManualGraph) (h : Hub) (d : Delivery) : Hub :=
  (g.sinksOf d.signal).foldl (fun h sink => h.push sink d.block) h

/-- Tell the graph to push a block. -/
def deliver (g : ManualGraph) (d : Delivery) : ManualGraph := { g with inbox := g.inbox ++ [d] }

/-- Tell the graph to end. -/
def finish (g : ManualGraph) : ManualGraph := { g with ends := true }

/-- Tell the graph to fail. -/
def breakDown (g : ManualGraph) : ManualGraph := { g with fails := true }

/-- One round of work: push the next block, or else do what is left to do. -/
def work (g : ManualGraph) (h : Hub) : Option WorkStatus × ManualGraph × Hub :=
  match g.inbox with
  | d :: rest => (some .ok, { g with inbox := rest }, g.publish h d)
  | [] => (if g.fails then none else if g.ends then some .done else some .idle, g, h)

/-- Push the tail and stop the sinks. -/
def stop (g : ManualGraph) (h : Hub) : ManualGraph × Hub :=
  ({ g with stops := g.stops + 1 }, (g.tail.foldl g.publish h).stopAll g.sinks)

/-- What the scheduler calls. The graph can be made to fail when it is started and when it works. -/
instance : FlowGraph ManualGraph where
  name g := g.name
  start g h := if g.failsOnStart then none else some (h.registerAll g.sinks)
  work := work
  stop g h := let r := g.stop h; (true, r)
  discard g h := h.stopAll g.sinks

end ManualGraph

end Daq
