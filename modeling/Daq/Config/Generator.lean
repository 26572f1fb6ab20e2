import Daq.Graph.Generator
import Daq.Wire

set_option autoImplicit false

/-!
# Configuration of a generator

Every field of a generator may be left out of a document and then has its default; so a field that
is present and null differs from one that is left out.

## Main definitions

* `Daq.GeneratorConfig.decode`, `Daq.GeneratorConfig.encode` — reading and writing.
* `Daq.GeneratorConfig.same` — equality by value.
-/

namespace Daq

open Document

namespace GeneratorConfig

/-- The names of the fields, in order. -/
def fieldNames : List String :=
  ["signal_name", "unit", "waveform", "amplitude", "offset", "frequency", "sample_rate",
    "chunk_size", "trigger_every", "trigger_name", "sample_limit", "realtime"]

/-- Read a configuration. -/
def decode (c : Convention) (d : Document) : Option GeneratorConfig := do
  match ← d.fields c fieldNames with
  | [signal, unit, waveform, amplitude, offset, frequency, rate, chunk, every, trigger, limit,
      paced] =>
    let standard : GeneratorConfig := {}
    return {
      signal := ← orDefault standard.signal toText signal
      unit := ← orDefault standard.unit toText unit
      waveform := ← orDefault standard.waveform (Waveform.decode c) waveform
      amplitude := ← orDefault standard.amplitude toSingle amplitude
      offset := ← orDefault standard.offset toSingle offset
      frequency := ← orDefault standard.frequency toSingle frequency
      rate := ← orDefault standard.rate toSingle rate
      chunk := ← orDefault standard.chunk toCount chunk
      triggerEvery := ← orDefault standard.triggerEvery (toOptional toCount) every
      trigger := ← orDefault standard.trigger toText trigger
      limit := ← orDefault standard.limit (toOptional toCount) limit
      paced := ← orDefault standard.paced toBool paced }
  | _ => none

/-- Write a configuration with all fields. -/
def encode (c : GeneratorConfig) : Document :=
  .record <| fieldNames.zip [
    .text c.signal,
    .text c.unit,
    c.waveform.encode,
    .single c.amplitude,
    .single c.offset,
    .single c.frequency,
    .single c.rate,
    ofCount c.chunk,
    ofOptional ofCount c.triggerEvery,
    .text c.trigger,
    ofOptional ofCount c.limit,
    .bool c.paced]

/-- Equality by value: numbers are compared as numbers. -/
def same (a b : GeneratorConfig) : Bool :=
  a.amplitude.same b.amplitude && a.offset.same b.offset && a.frequency.same b.frequency &&
    a.rate.same b.rate &&
    { a with amplitude := .zero, offset := .zero, frequency := .zero, rate := .zero } ==
      { b with amplitude := .zero, offset := .zero, frequency := .zero, rate := .zero }

end GeneratorConfig

end Daq
