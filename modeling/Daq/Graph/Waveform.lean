import Daq.Number

set_option autoImplicit false

/-!
# Waveforms

A generated signal is a periodic function of time, scaled and shifted. The formulas need two kinds
of numbers: samples, and the wider numbers in which positions and phases are computed. They are
stated for any such pair and used with singles and doubles.

## Main definitions

* `Daq.SampleNumber`, `Daq.PhaseNumber`, `Daq.Precision` — what the formulas need of the numbers.
* `Daq.Waveform` — sine, square and ramp, as functions of the phase.
* `Daq.Tone` — a waveform with amplitude, offset, frequency and sample rate.
* `Daq.Tone.valueAt` — the sample at a position.
-/

namespace Daq

/-- Numbers that samples are made of. -/
class SampleNumber (σ : Type) extends Add σ, Sub σ, Mul σ where
  /-- The value without its sign. -/
  magnitude : σ → σ
  /-- The greater of the number and the least positive one. -/
  atLeastTiny : σ → σ

/-- Numbers that positions and phases are made of. -/
class PhaseNumber (δ : Type) extends Sub δ, Mul δ, Div δ where
  /-- The number of a count. -/
  ofCount : Nat → δ
  /-- The number minus one. -/
  minusOne : δ
  /-- The part after the point, with the sign of the number. -/
  fraction : δ → δ
  /-- The sine of a number of turns. -/
  sineOfTurns : δ → δ
  /-- Whether a number is below one half. -/
  belowHalf : δ → Bool

/-- The conversions between both. -/
class Precision (σ δ : Type) where
  /-- The number of a sample. -/
  widen : σ → δ
  /-- The sample next to a number. -/
  narrow : δ → σ

/-- The shape of a generated signal. -/
inductive Waveform where
  /-- A sine. -/
  | sine
  /-- One in the first half of a period, minus one in the second. -/
  | square
  /-- A straight line from minus one to one. -/
  | ramp
  deriving DecidableEq, Inhabited

namespace Waveform

/-- The word for a waveform. -/
def name : Waveform → String
  | sine => "sine"
  | square => "square"
  | ramp => "ramp"

/-- The three waveforms. -/
def all : List Waveform := [sine, square, ramp]

/-- The waveform named by exactly this word. -/
def ofName? (text : String) : Option Waveform := all.find? fun w => w.name == text

/-- The value after a number of periods. -/
def valueAt {δ : Type} [PhaseNumber δ] (w : Waveform) (phase : δ) : δ :=
  let part := PhaseNumber.fraction phase
  match w with
  | sine => PhaseNumber.sineOfTurns part
  | square => if PhaseNumber.belowHalf part then PhaseNumber.ofCount 1 else PhaseNumber.minusOne
  | ramp => PhaseNumber.ofCount 2 * part - PhaseNumber.ofCount 1

end Waveform

/-- A generated signal. -/
structure Tone (σ : Type) where
  /-- The shape. -/
  waveform : Waveform
  /-- The factor before the shape. -/
  amplitude : σ
  /-- The value added to the shape. -/
  offset : σ
  /-- Periods in a second. -/
  frequency : σ
  /-- Samples in a second. -/
  rate : σ
  deriving DecidableEq

namespace Tone

variable {σ : Type} [SampleNumber σ]

/-- The least announced value. -/
def least (t : Tone σ) : σ := t.offset - SampleNumber.magnitude t.amplitude

/-- The greatest announced value. -/
def greatest (t : Tone σ) : σ := t.offset + SampleNumber.magnitude t.amplitude

variable (δ : Type) [PhaseNumber δ] [Precision σ δ]

/-- The sample rate that is computed with; it is positive. -/
def usedRate (t : Tone σ) : δ := Precision.widen (SampleNumber.atLeastTiny t.rate)

/-- The time of a position in seconds. -/
def timeAt (t : Tone σ) (position : Nat) : δ :=
  PhaseNumber.ofCount position / t.usedRate δ

/-- The number of periods before a position. -/
def phaseAt (t : Tone σ) (position : Nat) : δ :=
  Precision.widen t.frequency * PhaseNumber.ofCount position / t.usedRate δ

/-- The sample at a position. -/
def valueAt (t : Tone σ) (position : Nat) : σ :=
  t.offset + t.amplitude * Precision.narrow (t.waveform.valueAt (t.phaseAt δ position))

end Tone

/-! ### Machine numbers -/

/-- Samples in machine numbers. -/
instance : SampleNumber Single where
  add x y := .ofFloat32 (x.toFloat32 + y.toFloat32)
  sub x y := .ofFloat32 (x.toFloat32 - y.toFloat32)
  mul x y := .ofFloat32 (x.toFloat32 * y.toFloat32)
  magnitude := Single.abs
  atLeastTiny x := x.max .leastNormal

/-- The part of a machine number after the point; the whole part is cut toward zero. -/
def Double.fraction (x : Double) : Double :=
  let v := x.toFloat
  .ofFloat (v - if v < 0 then v.ceil else v.floor)

/-- The length of a full turn, `2 π`. -/
def Double.turn : Double := ⟨0x401921fb54442d18⟩

/-- Phases in machine numbers. -/
instance : PhaseNumber Double where
  sub x y := .ofFloat (x.toFloat - y.toFloat)
  mul x y := .ofFloat (x.toFloat * y.toFloat)
  div x y := .ofFloat (x.toFloat / y.toFloat)
  ofCount n := .ofFloat n.toUInt64.toFloat
  minusOne := .ofFloat (-1)
  fraction := Double.fraction
  sineOfTurns x := .ofFloat (Double.turn.toFloat * x.toFloat).sin
  belowHalf x := x.toFloat < 0.5

/-- Phases have the greater precision. -/
instance : Precision Single Double where
  widen := Single.widen
  narrow := Double.narrow

end Daq
