import Daq.Graph

set_option autoImplicit false

/-!
# Replay

A replay graph pushes recorded blocks into one sink, a block in each round. It may wait until
somebody listens, and it may end after the last block.

## Main definitions

* `Daq.ReplayGraph` — the blocks that are left, with the sink.
* `Daq.ReplayGraph.work` — the next block.
-/

namespace Daq

/-- Recorded blocks on their way into a sink. -/
structure ReplayGraph where
  /-- The name. -/
  name : String
  /-- The sink. -/
  sink : Nat
  /-- The blocks that are left. -/
  blocks : List Block
  /-- Whether nothing is pushed while no poller is attached. -/
  waits : Bool
  /-- Whether the graph is done after the last block. -/
  finishes : Bool

namespace ReplayGraph

/-- Make a graph with its sink. -/
def make (d : Descriptor) (rate : Single) (blocks : List Block) (waits finishes : Bool) (h : Hub) :
    ReplayGraph × Hub :=
  let (sink, h) := h.make d rate
  ({ name := "replay:" ++ d.name, sink, blocks, waits, finishes }, h)

/-- One round of work: push the next block. -/
def work (g : ReplayGraph) (h : Hub) : WorkStatus × ReplayGraph × Hub :=
  if g.waits && h.pollerCount g.sink == 0 then (.idle, g, h)
  else
    match g.blocks with
    | b :: rest => (.ok, { g with blocks := rest }, h.push g.sink b)
    | [] => (if g.finishes then .done else .idle, g, h)

/-- What the scheduler calls. A replay never fails. -/
instance : FlowGraph ReplayGraph where
  name g := g.name
  start g h := some (h.register g.sink)
  work g h := let r := g.work h; (some r.1, r.2)
  stop g h := (true, g, h.stop g.sink)
  discard g h := h.stop g.sink

end ReplayGraph

end Daq
