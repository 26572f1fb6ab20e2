import Daq.Signal.Capture

set_option autoImplicit false

/-!
# Replies

A reply is what a subscriber receives: the values of one block or capture together with name, unit
and range of the channel. The stream of a channel describes itself by its tags; what they report
is kept as a descriptor and goes into every reply.

## Main definitions

* `Daq.Reply` — values with their channel.
* `Daq.Descriptor.unknown`, `Daq.Descriptor.update` — what the tags of a stream report.
* `Daq.Reply.ofBlock`, `Daq.Reply.ofCapture` — replies for blocks and captures.
-/

namespace Daq

/-- The trigger name in replies to continuous subscriptions. -/
def streamingTrigger : String := "STREAMING"

/-- The unit of a signal that does not report one. -/
def unknownUnit : String := "N/A"

namespace Descriptor

/-- The description of a signal that has not reported anything: the full range of values. -/
def unknown (name : String) : Descriptor := ⟨name, unknownUnit, .least, .greatest⟩

/-- The text of a property, unless it is empty or not a text. -/
def reported? (t : Tag) (name : String) : Option String := (t.text? name).filter (· ≠ "")

/-- Take over what one tag reports, field by field. -/
def updateWith (d : Descriptor) (t : Tag) : Descriptor where
  name := (reported? t Tag.signalName).getD d.name
  unit := (reported? t Tag.signalUnit).getD d.unit
  min := ((t.number? Tag.signalMin).map Double.narrow).getD d.min
  max := ((t.number? Tag.signalMax).map Double.narrow).getD d.max

/-- Take over what the tags report, one after the other; later tags win. -/
def update (d : Descriptor) (tags : List Tag) : Descriptor := tags.foldl updateWith d

end Descriptor

/-- What a subscriber receives. -/
structure Reply where
  /-- The trigger of the values. -/
  trigger : String
  /-- The channel. -/
  channel : String
  /-- The unit of the values. -/
  unit : String
  /-- The least value of the channel. -/
  min : Single
  /-- The greatest value of the channel. -/
  max : Single
  /-- The values. -/
  values : List Single
  /-- The errors of the values. -/
  errors : List Single
  /-- The times of the values from the trigger on. -/
  times : List Single
  deriving DecidableEq, Inhabited

namespace Reply

/-- The number of values. -/
def size (r : Reply) : Nat := r.values.length

/-- Whether there are no values. -/
def isEmpty (r : Reply) : Bool := r.values.isEmpty

/-- As many zeros as there are values. -/
def zerosFor (values : List Single) : List Single := List.replicate values.length .zero

/-- A list cut or filled up with zeros to the length of the values. -/
def fit (values errors : List Single) : List Single :=
  errors.take values.length ++ List.replicate (values.length - errors.length) .zero

/-- The reply for a block of the stream described by `d`. -/
def ofBlock (d : Descriptor) (b : Block) : Reply where
  trigger := streamingTrigger
  channel := d.name
  unit := d.unit
  min := d.min
  max := d.max
  values := b.samples
  errors := zerosFor b.samples
  times := zerosFor b.samples

/-- The reply for a capture that was requested for `signal`. -/
def ofCapture (signal : String) (c : Capture) : Reply :=
  let d := c.descriptor?.getD (.unknown signal)
  { trigger := c.trigger?.getD ""
    channel := d.name
    unit := d.unit
    min := d.min
    max := d.max
    values := c.values
    errors := fit c.values c.errors
    times := zerosFor c.values }

end Reply

end Daq
