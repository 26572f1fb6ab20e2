import Daq.Number
import Daq.Table

set_option autoImplicit false

/-!
# Tags

A tag is a set of named properties attached to one sample of a block. Well-known properties
describe the signal or mark a trigger.

## Main definitions

* `Daq.Property` — the value of a property.
* `Daq.Tag` — a sample index with properties.
* `Daq.Tag.selectedBy` — the rule by which a trigger name selects tags.
-/

namespace Daq

/-- The value of a property. -/
inductive Property where
  /-- A truth value. -/
  | bool (value : Bool)
  /-- A signed integer of sixty-four bits. -/
  | int (value : Int)
  /-- A double-precision number. -/
  | float (value : Double)
  /-- A text. -/
  | text (value : String)
  deriving DecidableEq, Inhabited

namespace Property

/-- The text of a textual property. -/
def text? : Property → Option String
  | .text s => some s
  | _ => none

/-- The number of a numeric property. -/
def number? : Property → Option Double
  | .float x => some x
  | .int n => some (Double.ofInt n)
  | _ => none

/-- Equality by value: numbers are compared as numbers. -/
def same : Property → Property → Bool
  | .bool a, .bool b => a == b
  | .int a, .int b => a == b
  | .float a, .float b => a.same b
  | .text a, .text b => a == b
  | _, _ => false

end Property

/-- Properties attached to a sample; the index counts from the start of the block. -/
structure Tag where
  /-- The sample. -/
  index : Nat
  /-- The properties. -/
  properties : Table String Property
  deriving DecidableEq, Inhabited

namespace Tag

/-- Property that names the signal. -/
def signalName : String := "signal_name"

/-- Property with the unit of the signal. -/
def signalUnit : String := "signal_unit"

/-- Property with the least value of the signal. -/
def signalMin : String := "signal_min"

/-- Property with the greatest value of the signal. -/
def signalMax : String := "signal_max"

/-- Property with the sample rate. -/
def sampleRate : String := "sample_rate"

/-- Property that names a trigger. -/
def triggerName : String := "trigger_name"

/-- Property with the time of a trigger. -/
def triggerTime : String := "trigger_time"

/-- A tag from a list of properties; the last one of a name counts. -/
def ofList (index : Nat) (properties : List (String × Property)) : Tag :=
  ⟨index, Table.ofList properties⟩

/-- The property `name`. -/
def get? (t : Tag) (name : String) : Option Property := t.properties.get? name

/-- The property `name` if it is a text. -/
def text? (t : Tag) (name : String) : Option String := (t.get? name).bind Property.text?

/-- The property `name` if it is a number. -/
def number? (t : Tag) (name : String) : Option Double := (t.get? name).bind Property.number?

/-- The trigger that the tag marks. -/
def trigger? (t : Tag) : Option String := t.text? triggerName

/-- The same properties at another sample. -/
def moveTo (t : Tag) (index : Nat) : Tag := { t with index }

/-- Equality by value: numbers are compared as numbers. -/
def same (s t : Tag) : Bool :=
  s.index == t.index && s.properties.keys == t.properties.keys &&
    (List.zipWith Property.same s.properties.values t.properties.values).all id

/-- Whether a tag is selected by a trigger name: it marks that trigger, or any trigger if the name
is empty. -/
def selectedBy (wanted : String) (t : Tag) : Bool :=
  match t.trigger? with
  | some found => wanted == "" || found == wanted
  | none => false

end Tag

end Daq
