import Daq.Signal.Capture

set_option autoImplicit false

/-!
# Observers

An observer watches the samples of one sink, each with the tags that fall on it, and cuts captures
out of the stream: a fixed number of samples around each matching tag, the stretch from one matching
tag to the next, or a single sample some time after each matching tag. Values of an open capture
are kept newest first.

## Main definitions

* `Daq.TriggerObserver`, `Daq.MultiplexObserver`, `Daq.SnapshotObserver` — the three kinds.
* `Daq.Observer` — any of them, with one step per sample.
-/

namespace Daq

/-- A capture that is not complete yet. -/
structure Window where
  /-- The values so far, newest first. -/
  values : List Single
  /-- The number of values to come. -/
  remaining : Nat
  /-- The tag that opened the window. -/
  event : TimingEvent
  deriving DecidableEq

namespace Window

/-- Record a value unless the window is complete. -/
def record (w : Window) (value : Single) : Window :=
  match w.remaining with
  | 0 => w
  | n + 1 => { w with values := value :: w.values, remaining := n }

/-- Whether no value is to come. -/
def isComplete (w : Window) : Bool := w.remaining == 0

/-- The capture of a window, in the order of the stream. -/
def toCapture (d : Descriptor) (w : Window) : Capture := .ofValues d w.values.reverse w.event

end Window

/-- Captures `pre` samples before and `post` samples from each matching tag on. -/
structure TriggerObserver where
  /-- The rule that selects tags. -/
  selects : Tag → Bool
  /-- Samples before a tag. -/
  pre : Nat
  /-- Samples from a tag on. -/
  post : Nat
  /-- The last samples, newest first; only the first `pre` of them count. -/
  history : List Single := []
  /-- The open windows, oldest first. -/
  windows : List Window := []

namespace TriggerObserver

/-- The window that a tag opens: it starts with the samples just before. -/
def windowAt (o : TriggerObserver) (tag : Tag) : Window :=
  let before := o.history.take o.pre
  ⟨before, o.post, ⟨before.length, tag.moveTo before.length⟩⟩

/-- Open a window for each matching tag, record the sample in all windows, and hand out the windows
that are complete. -/
def step (d : Descriptor) (o : TriggerObserver) (value : Single) (tags : List Tag) :
    TriggerObserver × List Capture :=
  let opened := (tags.filter o.selects).map o.windowAt
  let windows := (o.windows ++ opened).map (·.record value)
  ({ o with
      history := if o.pre = 0 then [] else value :: o.history
      windows := windows.filter fun w => !w.isComplete },
    (windows.filter Window.isComplete).map (Window.toCapture d))

/-- Forget the samples that no window can need. -/
def trim (o : TriggerObserver) : TriggerObserver := { o with history := o.history.take o.pre }

end TriggerObserver

/-- Captures from each sample with a matching tag to the next one, or until the window is full. -/
structure MultiplexObserver where
  /-- The rule that selects tags. -/
  selects : Tag → Bool
  /-- The greatest length of a window. -/
  window : Nat
  /-- The open window. -/
  current : Option Window := none

namespace MultiplexObserver

/-- The open window and the windows closed when the tags of a sample are seen: the first matching
tag closes the open window and opens a new one. -/
def reopen (o : MultiplexObserver) (tags : List Tag) : Option Window × List Window :=
  match tags.find? o.selects with
  | some tag => (some ⟨[], o.window, ⟨0, tag.moveTo 0⟩⟩, o.current.toList)
  | none => (o.current, [])

/-- Close and open windows at the tags, then record the sample and close a window that is full. -/
def step (d : Descriptor) (o : MultiplexObserver) (value : Single) (tags : List Tag) :
    MultiplexObserver × List Capture :=
  let (current, closed) := o.reopen tags
  let recorded := current.map fun w => w.record value
  let full := recorded.filter Window.isComplete
  ({ o with current := recorded.filter fun w => !w.isComplete },
    (closed ++ full.toList).map (Window.toCapture d))

end MultiplexObserver

/-- Captures the single sample `delay` samples after each matching tag. -/
structure SnapshotObserver where
  /-- The rule that selects tags. -/
  selects : Tag → Bool
  /-- The number of samples to let pass. -/
  delay : Nat
  /-- For each tag seen, the samples still to let pass, oldest first. -/
  pending : List (Nat × Tag) := []

namespace SnapshotObserver

/-- Note the matching tags, take the sample for those whose delay is over and count down the
others. -/
def step (d : Descriptor) (o : SnapshotObserver) (value : Single) (tags : List Tag) :
    SnapshotObserver × List Capture :=
  let pending := o.pending ++ (tags.filter o.selects).map fun t => (o.delay, t.moveTo 0)
  ({ o with pending := (pending.filter (·.1 ≠ 0)).map fun p => (p.1 - 1, p.2) },
    (pending.filter (·.1 = 0)).map fun p => .ofValues d [value] ⟨0, p.2⟩)

end SnapshotObserver

/-- An observer of any kind. -/
inductive Observer where
  /-- Samples around each tag. -/
  | trigger (o : TriggerObserver)
  /-- Stretches from tag to tag. -/
  | multiplex (o : MultiplexObserver)
  /-- Single samples after each tag. -/
  | snapshot (o : SnapshotObserver)

namespace Observer

/-- What an observer does at one sample and the tags on it. -/
def step (d : Descriptor) (o : Observer) (value : Single) (tags : List Tag) :
    Observer × List Capture :=
  match o with
  | .trigger o => let r := o.step d value tags; (.trigger r.1, r.2)
  | .multiplex o => let r := o.step d value tags; (.multiplex r.1, r.2)
  | .snapshot o => let r := o.step d value tags; (.snapshot r.1, r.2)

/-- What an observer does at the end of a block. -/
def trim : Observer → Observer
  | .trigger o => .trigger o.trim
  | o => o

end Observer

end Daq
