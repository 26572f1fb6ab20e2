import Daq.Graph.Generator
import Daq.Proofs.Table
import Mathlib.Data.Rat.Floor
import Mathlib.Tactic.Linarith
import Mathlib.Tactic.Positivity

set_option autoImplicit false

/-!
# The announced range

A generator announces a range before its first sample: the offset, less and plus the size of the
amplitude. In exact arithmetic the samples stay within it as long as the shape stays between minus
one and one. A sine and a square do so everywhere, and a ramp does so from phase zero on. A ramp of
negative frequency does not: the part of a negative phase after the point is negative, so that the
ramp starts at minus one and falls towards minus three.

The formulas are those that the machine evaluates, taken at rational numbers. Nothing is assumed of
the sine but its bounds.

## Main definitions

* `Daq.Single.exact`, `Daq.GeneratorConfig.exactTone` — the rational number of a finite pattern, and
  a generated signal in rational numbers.
* `Daq.ExactPhase` — phases in rational numbers, with a given sine.

## Main results

* `Daq.ExactPhase.fraction_mem`, `Daq.ExactPhase.fraction_eq_zero_iff` — the part after the point.
* `Daq.Waveform.abs_valueAt_le_one_iff` — where a shape stays between minus one and one.
* `Daq.Tone.mem_range_iff` — when a sample lies within the announced range.
* `Daq.Tone.range_exact` — exactly the ramps of negative frequency leave the range, and where.
-/

namespace Daq

/-- The rational number of a finite pattern. -/
def Single.exact (x : Single) : ℚ :=
  let exponent := x.bits.toNat / 0x800000 % 0x100
  let fraction := x.bits.toNat % 0x800000
  let magnitude : ℚ :=
    if exponent = 0 then fraction / 2 ^ 149 else (0x800000 + fraction) * 2 ^ exponent / 2 ^ 150
  if x.isNegative then -magnitude else magnitude

example : (Single.mk 0xbfc00000).exact = -3 / 2 ∧ Single.leastNormal.exact = 1 / 2 ^ 126 := by
  decide +kernel

/-- A generated signal in rational numbers. -/
def GeneratorConfig.exactTone (c : GeneratorConfig) : Tone ℚ where
  waveform := c.waveform
  amplitude := c.amplitude.exact
  offset := c.offset.exact
  frequency := c.frequency.exact
  rate := c.rate.exact

/-- A phase in rational numbers. The sine is a parameter. -/
structure ExactPhase (sine : ℚ → ℚ) where
  /-- The number of turns. -/
  value : ℚ

namespace ExactPhase

variable {sine : ℚ → ℚ}

/-- The part of a number after the point; the whole part is cut toward zero. -/
def fraction (x : ℚ) : ℚ := x - if x < 0 then ⌈x⌉ else ⌊x⌋

/-- Samples in rational numbers. -/
scoped instance : SampleNumber ℚ where
  magnitude x := |x|
  atLeastTiny x := max x (1 / 2 ^ 126)

/-- Phases in rational numbers. -/
instance : PhaseNumber (ExactPhase sine) where
  sub x y := ⟨x.value - y.value⟩
  mul x y := ⟨x.value * y.value⟩
  div x y := ⟨x.value / y.value⟩
  ofCount n := ⟨n⟩
  minusOne := ⟨-1⟩
  fraction x := ⟨fraction x.value⟩
  sineOfTurns x := ⟨sine x.value⟩
  belowHalf x := x.value < 1 / 2

/-- Rational numbers have one precision. -/
instance : Precision ℚ (ExactPhase sine) where
  widen x := ⟨x⟩
  narrow x := x.value

/-! ### The part after the point -/

/-- **The part of a number after the point** has its sign and is smaller than one. -/
lemma fraction_mem (x : ℚ) :
    (0 ≤ x → 0 ≤ fraction x ∧ fraction x < 1) ∧ (x < 0 → -1 < fraction x ∧ fraction x ≤ 0) := by
  constructor
  · intro hx
    rw [fraction, if_neg hx.not_gt]
    have hfloor := Int.floor_le x
    have hlt := Int.lt_floor_add_one x
    constructor <;> linarith
  · intro hx
    rw [fraction, if_pos hx]
    have hceil := Int.le_ceil x
    have hlt := Int.ceil_lt_add_one x
    constructor <;> linarith

/-- Nothing stands after the point of a whole number, and only there. -/
lemma fraction_eq_zero_iff (x : ℚ) : fraction x = 0 ↔ ∃ n : ℤ, x = n := by
  unfold fraction
  constructor
  · intro h
    split at h
    · exact ⟨⌈x⌉, by linarith⟩
    · exact ⟨⌊x⌋, by linarith⟩
  · rintro ⟨n, rfl⟩
    simp

end ExactPhase

/-! ### Shapes -/

namespace Waveform

variable {sine : ℚ → ℚ}

/-- The ramp at a phase. -/
lemma value_ramp (x : ExactPhase sine) :
    (ramp.valueAt x).value = 2 * ExactPhase.fraction x.value - 1 := rfl

/-- A square has two values. -/
lemma value_square (x : ExactPhase sine) :
    (square.valueAt x).value = 1 ∨ (square.valueAt x).value = -1 := by
  have hvalue : square.valueAt x = if decide (ExactPhase.fraction x.value < 1 / 2) then
      (⟨((1 : ℕ) : ℚ)⟩ : ExactPhase sine) else ⟨-1⟩ := rfl
  rw [hvalue]
  split
  · exact .inl Nat.cast_one
  · exact .inr rfl

/-- **A ramp at a negative phase lies below its least value**, unless the phase is a whole
number. -/
lemma value_ramp_of_neg {x : ExactPhase sine} (hx : x.value < 0)
    (hpart : ¬ ∃ n : ℤ, x.value = n) :
    -3 < (ramp.valueAt x).value ∧ (ramp.valueAt x).value < -1 := by
  obtain ⟨hlower, hupper⟩ := (ExactPhase.fraction_mem x.value).2 hx
  have hne : ExactPhase.fraction x.value ≠ 0 := fun h =>
    hpart ((ExactPhase.fraction_eq_zero_iff x.value).mp h)
  have hlt := lt_of_le_of_ne hupper hne
  rw [value_ramp]
  constructor <;> linarith

/-- **A shape stays between minus one and one** at every phase, but for a ramp at a negative phase
that is not a whole number. -/
theorem abs_valueAt_le_one_iff (hsine : ∀ x, |sine x| ≤ 1) (w : Waveform) (x : ExactPhase sine) :
    |(w.valueAt x).value| ≤ 1 ↔ ¬ (w = .ramp ∧ x.value < 0 ∧ ¬ ∃ n : ℤ, x.value = n) := by
  cases w with
  | sine =>
    have hvalue : (Waveform.sine.valueAt x).value = sine (ExactPhase.fraction x.value) := rfl
    simp [hvalue, hsine]
  | square => rcases value_square x with h | h <;> simp [h]
  | ramp =>
    constructor
    · rintro hle ⟨-, hneg, hpart⟩
      have hbelow := (value_ramp_of_neg hneg hpart).2
      have habove := (abs_le.mp hle).1
      linarith
    · intro hnot
      rw [value_ramp, abs_le]
      rcases le_or_gt 0 x.value with hx | hx
      · obtain ⟨hlower, hupper⟩ := (ExactPhase.fraction_mem x.value).1 hx
        constructor <;> linarith
      · have hwhole : ∃ n : ℤ, x.value = n := by
          by_contra hpart
          exact hnot ⟨rfl, hx, hpart⟩
        rw [(ExactPhase.fraction_eq_zero_iff x.value).mpr hwhole]
        constructor <;> norm_num

end Waveform

/-! ### Samples -/

/-- The tag that describes a signal announces the range of its tone. -/
lemma GeneratorConfig.announced (c : GeneratorConfig) :
    c.describingTag.get? Tag.signalMin = some (.float c.tone.least.widen) ∧
      c.describingTag.get? Tag.signalMax = some (.float c.tone.greatest.widen) := by
  have hdistinct : [Tag.signalName, Tag.signalUnit, Tag.signalMin, Tag.signalMax,
      Tag.sampleRate].Nodup := by decide
  constructor
  · refine (Table.get?_ofList_eq_some_iff ?_ _ _).mpr ?_
    · exact hdistinct
    · simp [descriptor]
  · refine (Table.get?_ofList_eq_some_iff ?_ _ _).mpr ?_
    · exact hdistinct
    · simp [descriptor]

namespace Tone

open scoped ExactPhase

variable {sine : ℚ → ℚ} (t : Tone ℚ) (p : ℕ)

/-- A phase is negative where the frequency is, but at the first sample. -/
lemma phaseAt_neg_iff :
    (t.phaseAt (ExactPhase sine) p).value < 0 ↔ t.frequency < 0 ∧ 0 < p := by
  have hrate : 0 < (t.usedRate (ExactPhase sine)).value := lt_max_of_lt_right (by positivity)
  have hphase : (t.phaseAt (ExactPhase sine) p).value =
      t.frequency * p / (t.usedRate (ExactPhase sine)).value := rfl
  rw [hphase, div_lt_iff₀ hrate, zero_mul]
  rcases Nat.eq_zero_or_pos p with rfl | hp
  · simp
  · have hpos : (0 : ℚ) < p := Nat.cast_pos.mpr hp
    simp [hp, mul_neg_iff, hpos, hpos.not_gt]

/-- The phase at the first sample is zero. -/
lemma phaseAt_zero : (t.phaseAt (ExactPhase sine) 0).value = 0 := by
  have hphase : (t.phaseAt (ExactPhase sine) 0).value =
      t.frequency * (0 : ℕ) / (t.usedRate (ExactPhase sine)).value := rfl
  simp [hphase]

/-- **A sample lies within the announced range** if the amplitude is zero or the shape lies between
minus one and one, and only then. -/
lemma mem_range_iff :
    t.least ≤ t.valueAt (ExactPhase sine) p ∧ t.valueAt (ExactPhase sine) p ≤ t.greatest ↔
      t.amplitude = 0 ∨ |(t.waveform.valueAt (t.phaseAt (ExactPhase sine) p)).value| ≤ 1 := by
  set shape := (t.waveform.valueAt (t.phaseAt (ExactPhase sine) p)).value
  have hvalue : t.valueAt (ExactPhase sine) p = t.offset + t.amplitude * shape := rfl
  have hleast : t.least = t.offset - |t.amplitude| := rfl
  have hgreatest : t.greatest = t.offset + |t.amplitude| := rfl
  have hrange : t.least ≤ t.valueAt (ExactPhase sine) p ∧
      t.valueAt (ExactPhase sine) p ≤ t.greatest ↔ |t.amplitude| * |shape| ≤ |t.amplitude| := by
    rw [← abs_mul, abs_le, hvalue, hleast, hgreatest]
    constructor <;> rintro ⟨h, h'⟩ <;> constructor <;> linarith
  rw [hrange]
  rcases eq_or_ne t.amplitude 0 with h | h
  · simp [h]
  · simp [h, mul_le_iff_le_one_right (abs_pos.mpr h)]

/-- **The samples of a generated signal and its announced range**, in exact arithmetic.

The range that the describing tag announces reaches from the least to the greatest value of the
tone. Of a sine only its bounds are assumed. Then at every position the shape lies between minus one
and one, and the sample within the range, with one exception: a ramp of negative frequency lies
between minus three and minus one where its phase is not a whole number, so that the sample is
outside the range unless the amplitude is zero.

**Proof sketch.** The part of a number after the point has the sign of the number. The rate that is
divided by is positive, whatever was asked for, so that the phase has the sign of the frequency. -/
theorem range_exact (sine : ℚ → ℚ) (hsine : ∀ x, |sine x| ≤ 1) :
    (∀ c : GeneratorConfig,
      c.describingTag.get? Tag.signalMin = some (.float c.tone.least.widen) ∧
        c.describingTag.get? Tag.signalMax = some (.float c.tone.greatest.widen)) ∧
      ∀ (t : Tone ℚ) (p : ℕ),
        let phase := t.phaseAt (ExactPhase sine) p
        let shape := (t.waveform.valueAt phase).value
        let sample := t.valueAt (ExactPhase sine) p
        let escapes := t.waveform = .ramp ∧ t.frequency < 0 ∧ ¬ ∃ n : ℤ, phase.value = n
        (|shape| ≤ 1 ↔ ¬ escapes) ∧
          (t.least ≤ sample ∧ sample ≤ t.greatest ↔ t.amplitude = 0 ∨ ¬ escapes) ∧
          (escapes → -3 < shape ∧ shape < -1) := by
  refine ⟨GeneratorConfig.announced, ?_⟩
  intro t p phase shape sample escapes
  have hescapes : t.waveform = .ramp ∧ phase.value < 0 ∧ (¬ ∃ n : ℤ, phase.value = n) ↔
      escapes := by
    refine and_congr_right fun _ => and_congr_left fun hpart => ?_
    have hp : 0 < p := by
      rw [Nat.pos_iff_ne_zero]
      rintro rfl
      exact hpart ⟨0, t.phaseAt_zero.trans Int.cast_zero.symm⟩
    rw [t.phaseAt_neg_iff, and_iff_left hp]
  have hshape : |shape| ≤ 1 ↔ ¬ escapes := by
    rw [Waveform.abs_valueAt_le_one_iff hsine, hescapes]
  refine ⟨hshape, ?_, ?_⟩
  · rw [t.mem_range_iff, hshape]
  · intro h
    obtain ⟨hramp, hneg, hpart⟩ := hescapes.mpr h
    show -3 < (t.waveform.valueAt phase).value ∧ (t.waveform.valueAt phase).value < -1
    rw [hramp]
    exact Waveform.value_ramp_of_neg hneg hpart

/-- A sine that is right at the quarters of a turn. -/
def quarterSine (x : ℚ) : ℚ :=
  if x = 1 / 4 ∨ x = -3 / 4 then 1 else if x = 3 / 4 ∨ x = -1 / 4 then -1 else 0

/-- It has the bounds of a sine. -/
lemma abs_quarterSine_le_one (x : ℚ) : |quarterSine x| ≤ 1 := by
  unfold quarterSine
  split_ifs <;> simp

/-- A sine with a negative amplitude is at the upper end of its range after three quarters of a
turn. A falling ramp has left its range after one quarter. -/
theorem range_exact_sample :
    let wave : Tone ℚ := ⟨.sine, -2, 1, 1, 4⟩
    let ramp : Tone ℚ := ⟨.ramp, 2, 1, -1, 4⟩
    (∀ x, |quarterSine x| ≤ 1) ∧ wave.valueAt (ExactPhase quarterSine) 3 = 3 ∧
      wave.least = -1 ∧ wave.greatest = 3 ∧
      (wave.least ≤ wave.valueAt (ExactPhase quarterSine) 3 ∧
        wave.valueAt (ExactPhase quarterSine) 3 ≤ wave.greatest) ∧
      (-3 < (ramp.waveform.valueAt (ramp.phaseAt (ExactPhase quarterSine) 1)).value ∧
        (ramp.waveform.valueAt (ramp.phaseAt (ExactPhase quarterSine) 1)).value < -1) := by
  intro wave ramp
  obtain ⟨-, hexact⟩ := range_exact quarterSine abs_quarterSine_le_one
  obtain ⟨-, hwithin, -⟩ := hexact wave 3
  obtain ⟨-, -, hbelow⟩ := hexact ramp 1
  refine ⟨abs_quarterSine_le_one, by decide +kernel, by decide +kernel, by decide +kernel,
    hwithin.mpr (.inr fun h => ?_), hbelow ⟨rfl, by decide +kernel, ?_⟩⟩
  · exact absurd h.1 (by decide)
  · have hphase : (ramp.phaseAt (ExactPhase quarterSine) 1).value = -1 / 4 := by decide +kernel
    rw [hphase, ← ExactPhase.fraction_eq_zero_iff]
    decide +kernel

/-- **A falling ramp leaves the announced range.** With amplitude one, offset zero, frequency minus
one and four samples in a second, the second sample is minus one and a half. -/
theorem ramp_below_range :
    let c : GeneratorConfig :=
      { waveform := .ramp, frequency := ⟨0xbf800000⟩, rate := ⟨0x40800000⟩ }
    let t := c.exactTone
    (t.waveform.valueAt (t.phaseAt (ExactPhase quarterSine) 1)).value = -3 / 2 ∧
      t.least = -1 ∧ t.valueAt (ExactPhase quarterSine) 1 = -3 / 2 := by
  decide +kernel

end Tone

end Daq
