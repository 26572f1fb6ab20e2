import Daq.Signal.Tag

set_option autoImplicit false

/-!
# Blocks and captures

A graph produces blocks of contiguous samples. A sink hands them on as they are, or cuts captures
out of them. A capture describes its signal and says where in it the trigger lies.

## Main definitions

* `Daq.Block` — samples with tags.
* `Daq.Descriptor` — name, unit and range of a signal.
* `Daq.Capture` — the samples around a trigger.
-/

namespace Daq

/-- Contiguous samples with the tags that fall on them. -/
structure Block where
  /-- The samples. -/
  samples : List Single := []
  /-- The tags, indexed from the first sample. -/
  tags : List Tag := []
  deriving DecidableEq, Inhabited

/-- Name, unit and range of a signal. -/
structure Descriptor where
  /-- The name. -/
  name : String
  /-- The physical unit. -/
  unit : String
  /-- The least value. -/
  min : Single
  /-- The greatest value. -/
  max : Single
  deriving DecidableEq, Inhabited

/-- A tag inside a capture; the index counts from the first value of the capture. -/
structure TimingEvent where
  /-- The position in the capture. -/
  index : Nat
  /-- The tag. -/
  tag : Tag
  deriving DecidableEq, Inhabited

/-- A discrete capture. -/
structure Capture where
  /-- The captured signals. -/
  signals : List Descriptor := []
  /-- The values. -/
  values : List Single := []
  /-- The errors of the values. -/
  errors : List Single := []
  /-- The tags inside the capture. -/
  events : List TimingEvent := []
  deriving DecidableEq, Inhabited

namespace Capture

/-- The trigger of the first event. -/
def trigger? (c : Capture) : Option String := c.events.head?.bind fun e => e.tag.trigger?

/-- The descriptor of the first signal. -/
def descriptor? (c : Capture) : Option Descriptor := c.signals.head?

/-- The capture of one signal with one event and no errors. -/
def ofValues (d : Descriptor) (values : List Single) (event : TimingEvent) : Capture where
  signals := [d]
  values
  errors := List.replicate values.length .zero
  events := [event]

end Capture

end Daq
