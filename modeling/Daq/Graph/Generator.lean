import Daq.Graph
import Daq.Graph.Waveform

set_option autoImplicit false

/-!
# Signal generators

A generator produces one tone in chunks. Its first block starts with a tag that describes the
signal; trigger tags follow at regular positions. It may end after a number of samples, and it may
keep pace with the clock. A generator graph runs several generators side by side.

## Main definitions

* `Daq.GeneratorConfig` — what is generated.
* `Daq.Generator` — a generator at a position of its stream.
* `Daq.Generator.produce` — the next chunk.
* `Daq.GeneratorGraph` — several generators.
-/

namespace Daq

/-- What a generator produces. -/
structure GeneratorConfig where
  /-- The signal. -/
  signal : String := "sine"
  /-- The unit. -/
  unit : String := "V"
  /-- The shape. -/
  waveform : Waveform := .sine
  /-- The factor before the shape. -/
  amplitude : Single := .one
  /-- The value added to the shape. -/
  offset : Single := .zero
  /-- Periods in a second. -/
  frequency : Single := .ofUInt64 10
  /-- Samples in a second. -/
  rate : Single := .ofUInt64 1000
  /-- Samples in a chunk. -/
  chunk : Nat := 100
  /-- The distance between trigger tags. -/
  triggerEvery : Option Nat := some 1000
  /-- The name of the trigger. -/
  trigger : String := "CMD_TRIGGER"
  /-- The number of samples after which the generator ends. -/
  limit : Option Nat := none
  /-- Whether the output keeps pace with the clock. -/
  paced : Bool := true
  deriving DecidableEq

namespace GeneratorConfig

/-- The tone of a generator. -/
def tone (c : GeneratorConfig) : Tone Single :=
  ⟨c.waveform, c.amplitude, c.offset, c.frequency, c.rate⟩

/-- The announced signal. -/
def descriptor (c : GeneratorConfig) : Descriptor :=
  ⟨c.signal, c.unit, c.tone.least, c.tone.greatest⟩

/-- The tag that describes the signal. -/
def describingTag (c : GeneratorConfig) : Tag :=
  let d := c.descriptor
  Tag.ofList 0 [
    (Tag.signalName, .text d.name),
    (Tag.signalUnit, .text d.unit),
    (Tag.signalMin, .float d.min.widen),
    (Tag.signalMax, .float d.max.widen),
    (Tag.sampleRate, .float c.rate.widen)]

/-- Whether a position carries a trigger tag. -/
def triggersAt (c : GeneratorConfig) (position : Nat) : Bool :=
  match c.triggerEvery with
  | some every => every ≠ 0 && position % every == 0
  | none => false

/-- The trigger tag of a position, at an index of a block. -/
def triggerTag (c : GeneratorConfig) (position index : Nat) : Tag :=
  Tag.ofList index [
    (Tag.triggerName, .text c.trigger),
    (Tag.triggerTime, .float (c.tone.timeAt Double position))]

/-- The tags in a block of `n` samples from `position` on. -/
def tagsFrom (c : GeneratorConfig) (position n : Nat) : List Tag :=
  (if position = 0 then [c.describingTag] else []) ++
    ((List.range n).filter fun i => c.triggersAt (position + i)).map fun i =>
      c.triggerTag (position + i) i

/-- The block of `n` samples from `position` on. -/
def blockFrom (c : GeneratorConfig) (position n : Nat) : Block where
  samples := (List.range n).map fun i => c.tone.valueAt Double (position + i)
  tags := c.tagsFrom position n

/-- The number of samples left at a position. -/
def remaining (c : GeneratorConfig) (position : Nat) : Nat :=
  match c.limit with
  | some limit => limit - position
  | none => countBound - 1

end GeneratorConfig

/-- A generator at a position of its stream. -/
structure Generator where
  /-- What is generated. -/
  config : GeneratorConfig
  /-- The sink. -/
  sink : Nat
  /-- The number of samples produced. -/
  position : Nat := 0

namespace Generator

/-- The length of the next chunk if at most `budget` samples are wanted. -/
def chunkWithin (g : Generator) (budget : Nat) : Nat :=
  min (min g.config.chunk (g.config.remaining g.position)) budget

/-- Push the next chunk of at most `budget` samples; whether samples are left afterwards. An empty
chunk is not pushed. -/
def produce (g : Generator) (budget : Nat) (h : Hub) : Bool × Generator × Hub :=
  let n := g.chunkWithin budget
  if n = 0 then (0 < g.config.remaining g.position, g, h)
  else
    (n < g.config.remaining g.position, { g with position := g.position + n },
      h.push g.sink (g.config.blockFrom g.position n))

/-- The number of samples that are due after a time of work. A generator that is not paced has no
bound. -/
def budgetAt (g : Generator) (elapsed : Double) : Nat :=
  if g.config.paced then
    (elapsed.toFloat * g.config.rate.widen.toFloat).toUInt64.toNat - g.position
  else countBound - 1

end Generator

/-- Generators that run side by side, each with its sink. -/
structure GeneratorGraph where
  /-- The name. -/
  name : String
  /-- The generators. -/
  generators : List Generator
  /-- The time since the first round of work in seconds. -/
  elapsed : Double := .ofInt 0

namespace GeneratorGraph

/-- Make the sinks and generators of a graph, one after the other. -/
def makeGenerators (h : Hub) : List GeneratorConfig → List Generator × Hub
  | [] => ([], h)
  | c :: rest =>
    let (sink, h) := h.make c.descriptor c.rate
    let (generators, h) := makeGenerators h rest
    ({ config := c, sink } :: generators, h)

/-- Make a graph with its sinks. -/
def make (name : String) (configs : List GeneratorConfig) (h : Hub) : GeneratorGraph × Hub :=
  let (generators, h) := makeGenerators h configs
  ({ name, generators }, h)

/-- The signals, in the order of the generators. -/
def signals (g : GeneratorGraph) : List String := g.generators.map fun x => x.config.signal

/-- The sinks. -/
def sinks (g : GeneratorGraph) : List Nat := g.generators.map fun x => x.sink

/-- What a round of work of several generators did. -/
structure Round where
  /-- Whether any generator has samples left. -/
  active : Bool
  /-- Whether anything was produced. -/
  produced : Bool
  /-- The generators afterwards. -/
  generators : List Generator
  /-- The sinks afterwards. -/
  hub : Hub

/-- Let each generator produce a chunk. -/
def round (elapsed : Double) (h : Hub) : List Generator → Round
  | [] => ⟨false, false, [], h⟩
  | g :: rest =>
    let (more, g', h) := g.produce (g.budgetAt elapsed) h
    let r := round elapsed h rest
    ⟨more || r.active, g.position < g'.position || r.produced, g' :: r.generators, r.hub⟩

/-- One round of work. The graph is done when no generator has samples left. -/
def work (g : GeneratorGraph) (h : Hub) : WorkStatus × GeneratorGraph × Hub :=
  let r := round g.elapsed h g.generators
  (if !r.active then .done else if r.produced then .ok else .idle,
    { g with generators := r.generators }, r.hub)

/-- What the scheduler calls. Generators work in rounds and never fail. -/
instance : FlowGraph GeneratorGraph where
  name g := g.name
  start g h := some (h.registerAll g.sinks)
  work g h := let r := g.work h; (some r.1, r.2)
  stop g h := (true, g, h.stopAll g.sinks)
  discard g h := h.stopAll g.sinks

end GeneratorGraph

end Daq
