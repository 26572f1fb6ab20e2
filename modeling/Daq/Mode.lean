import Daq.Error

set_option autoImplicit false

/-!
# Acquisition modes

How a subscription wants its data: as a continuous stream, or as discrete captures around, between
or after triggers.

## Main definitions

* `Daq.Mode` — the four modes.
* `Daq.Mode.name`, `Daq.Mode.parse` — their words, read exactly.
-/

namespace Daq

/-- How data is delivered. -/
inductive Mode where
  /-- Every sample, as a stream of blocks. -/
  | continuous
  /-- Samples before and after each matching trigger. -/
  | triggered
  /-- Samples from one matching trigger to the next. -/
  | multiplexed
  /-- One sample a fixed delay after each matching trigger. -/
  | snapshot
  deriving DecidableEq, Inhabited, Ord

namespace Mode

/-- The four modes. -/
def all : List Mode := [.continuous, .triggered, .multiplexed, .snapshot]

/-- The word for a mode. -/
def name : Mode → String
  | .continuous => "continuous"
  | .triggered => "triggered"
  | .multiplexed => "multiplexed"
  | .snapshot => "snapshot"

/-- Whether the mode yields captures and not a stream. -/
def isDataset (m : Mode) : Bool := m != .continuous

/-- The mode named by exactly this word. -/
def ofName? (text : String) : Option Mode := all.find? fun m => m.name == text

/-- The mode named by exactly this word, or the complaint about it. -/
def parse (text : String) : Except AcqError Mode :=
  match ofName? text with
  | some m => .ok m
  | none => .error (.invalidArgument ("unknown acquisition mode '" ++ text ++ "'"))

/-- Reading the word of a mode gives the mode. -/
theorem parse_name (m : Mode) : parse m.name = .ok m := by cases m <;> rfl

end Mode

end Daq
