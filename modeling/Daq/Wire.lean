import Daq.Document
import Daq.Mode
import Daq.Reply
import Daq.Graph.Waveform

set_option autoImplicit false

/-!
# Wire forms

How modes, signals, tags, captures and replies are read from documents and written to them. All
fields have to be present. On the wire a reply also carries the local time at which it was put
together.

## Main definitions

* `Daq.Mode.decode`, `Daq.Waveform.decode` — choices.
* `Daq.Descriptor.decode`, `Daq.Tag.decode`, `Daq.Capture.decode` — signals, tags and captures.
* `Daq.StampedReply` — a reply with its time, and its wire form.
-/

namespace Daq

open Document

namespace Mode

/-- Read a mode. -/
def decode (c : Convention) (d : Document) : Option Mode := (d.choice c).bind ofName?

/-- Write a mode. -/
def encode (m : Mode) : Document := .text m.name

end Mode

namespace Waveform

/-- Read a waveform. -/
def decode (c : Convention) (d : Document) : Option Waveform := (d.choice c).bind ofName?

/-- Write a waveform. -/
def encode (w : Waveform) : Document := .text w.name

end Waveform

namespace Descriptor

/-- The names of the fields, in order. -/
def fieldNames : List String := ["name", "unit", "min", "max"]

/-- Read a description. -/
def decode (c : Convention) (d : Document) : Option Descriptor := do
  match ← d.fields c fieldNames with
  | [name, unit, min, max] =>
    return {
      name := ← required toText name
      unit := ← required toText unit
      min := ← required toSingle min
      max := ← required toSingle max }
  | _ => none

/-- Write a description. -/
def encode (d : Descriptor) : Document :=
  .record (fieldNames.zip [.text d.name, .text d.unit, .single d.min, .single d.max])

end Descriptor

namespace Property

/-- Read the value of a property. A whole number that is no signed integer of sixty-four bits is
read as a number with a fraction. -/
def decode (d : Document) : Option Property :=
  (d.toBool.map .bool) <|> (d.toInteger.map .int) <|> (d.toDouble.map .float) <|>
    (d.toText.map .text)

end Property

namespace Tag

/-- The names of the fields, in order. -/
def fieldNames : List String := ["index", "map"]

/-- Read named properties; the last one of a name counts. -/
def decodeProperties : Document → Option (Table String Property)
  | .record members => do
    let pairs ← members.mapM fun m => do return (m.1, ← Property.decode m.2)
    return Table.ofList pairs
  | _ => none

/-- Read a tag. -/
def decode (c : Convention) (d : Document) : Option Tag := do
  match ← d.fields c fieldNames with
  | [index, map] =>
    return ⟨← required toCount index, ← required decodeProperties map⟩
  | _ => none

end Tag

namespace TimingEvent

/-- The names of the fields, in order. -/
def fieldNames : List String := ["index", "tag"]

/-- Read an event. -/
def decode (c : Convention) (d : Document) : Option TimingEvent := do
  match ← d.fields c fieldNames with
  | [index, tag] => return ⟨← required toCount index, ← required (Tag.decode c) tag⟩
  | _ => none

end TimingEvent

namespace Capture

/-- The names of the fields, in order. -/
def fieldNames : List String := ["signals", "values", "errors", "timing_events"]

/-- Read a capture. -/
def decode (c : Convention) (d : Document) : Option Capture := do
  match ← d.fields c fieldNames with
  | [signals, values, errors, events] =>
    return {
      signals := ← required (toListOf (Descriptor.decode c)) signals
      values := ← required (toListOf toSingle) values
      errors := ← required (toListOf toSingle) errors
      events := ← required (toListOf (TimingEvent.decode c)) events }
  | _ => none

end Capture

/-- A reply with the time at which it was put together. -/
structure StampedReply where
  /-- The reply. -/
  reply : Reply
  /-- The local time in nanoseconds. -/
  stamp : Int
  deriving DecidableEq

namespace StampedReply

/-- The names of the fields, in order. -/
def fieldNames : List String :=
  ["acqTriggerName", "channelName", "channelUnit", "channelRangeMin", "channelRangeMax",
    "channelValue", "channelError", "channelTimeSinceRefTrigger", "acqLocalTimeStamp"]

/-- Read a reply. -/
def decode (c : Convention) (d : Document) : Option StampedReply := do
  match ← d.fields c fieldNames with
  | [trigger, channel, unit, min, max, values, errors, times, stamp] =>
    let reply : Reply := {
      trigger := ← required toText trigger
      channel := ← required toText channel
      unit := ← required toText unit
      min := ← required toSingle min
      max := ← required toSingle max
      values := ← required (toListOf toSingle) values
      errors := ← required (toListOf toSingle) errors
      times := ← required (toListOf toSingle) times }
    return { reply, stamp := ← required toInteger stamp }
  | _ => none

/-- A list of singles. -/
def encodeSamples (values : List Single) : Document := .list (values.map .single)

/-- Write a reply. -/
def encode (s : StampedReply) : Document :=
  .record <| fieldNames.zip [
    .text s.reply.trigger,
    .text s.reply.channel,
    .text s.reply.unit,
    .single s.reply.min,
    .single s.reply.max,
    encodeSamples s.reply.values,
    encodeSamples s.reply.errors,
    encodeSamples s.reply.times,
    .integer s.stamp]

end StampedReply

end Daq
