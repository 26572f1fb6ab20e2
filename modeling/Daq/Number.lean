import Daq.Bounds

set_option autoImplicit false

/-!
# Binary numbers

Samples and value ranges are single-precision numbers, properties of tags and rates of a generator
double-precision numbers. Both are kept as their IEEE bit patterns, so that a number that only
passes through a queue comes out bit for bit, and so that equality of records is decidable.
Arithmetic goes through the machine's own `Float32` and `Float`; conversion between the formats
works on the patterns.

## Main definitions

* `Daq.Single`, `Daq.Double` — the two formats.
* `Daq.Single.widen`, `Daq.Double.narrow` — conversion between them.
* `Daq.Single.same`, `Daq.Double.same` — numeric equality, which is not equality of patterns.
-/

namespace Daq

/-- A single-precision number, kept as its bit pattern. -/
structure Single where
  /-- Sign, eight exponent bits and twenty-three fraction bits. -/
  bits : UInt32
  deriving DecidableEq, Inhabited

/-- A double-precision number, kept as its bit pattern. -/
structure Double where
  /-- Sign, eleven exponent bits and fifty-two fraction bits. -/
  bits : UInt64
  deriving DecidableEq, Inhabited

/-- The pattern in double precision of a positive single that is not a NaN. A subnormal single gets
a full significand: its leading bit moves up to the place of the hidden one. -/
def widenMagnitude (n : Nat) : Nat :=
  let biased := n / 0x800000
  let fraction := n % 0x800000
  if biased = 0xff then 0x7ff0000000000000
  else if biased ≠ 0 then (biased + 896) * 0x10000000000000 + fraction * 0x20000000
  else if fraction = 0 then 0
  else (fraction.log2 + 873) * 0x10000000000000 + fraction * powerOfTwo (52 - fraction.log2)

/-- The whole number nearest to `n / 2 ^ k`, on a tie the even one. -/
def roundShift (n k : Nat) : Nat :=
  let quotient := n / powerOfTwo k
  let twice := 2 * (n % powerOfTwo k)
  if powerOfTwo k < twice ∨ (twice = powerOfTwo k ∧ quotient % 2 = 1) then quotient + 1
  else quotient

/-- The pattern in single precision that is nearest to a positive double that is not a NaN. Rounding
up carries from the fraction into the exponent, and from the greatest one into the infinite
value. -/
def narrowMagnitude (n : Nat) : Nat :=
  let biased := n / 0x10000000000000
  let fraction := n % 0x10000000000000
  if biased ≤ 896 then roundShift (0x10000000000000 + fraction) (926 - biased)
  else min (roundShift ((biased - 896) * 0x10000000000000 + fraction) 29) 0x7f800000

namespace Single

/-- The machine number of a pattern. -/
def toFloat32 (x : Single) : Float32 := Float32.ofBits x.bits

/-- The pattern of a machine number. -/
def ofFloat32 (x : Float32) : Single := ⟨x.toBits⟩

/-- The pattern of the whole number `n`, rounded to the nearest single. -/
def ofUInt64 (n : UInt64) : Single := ofFloat32 n.toFloat32

/-- The pattern of the integer `n`, rounded to the nearest single. -/
def ofInt64 (n : Int64) : Single := ofFloat32 n.toFloat32

/-- Positive zero. -/
def zero : Single := ⟨0⟩

/-- The number one. -/
def one : Single := ⟨0x3f800000⟩

/-- The greatest finite single. -/
def greatest : Single := ⟨0x7f7fffff⟩

/-- The least finite single. -/
def least : Single := ⟨0xff7fffff⟩

/-- The least positive single with a full significand. -/
def leastNormal : Single := ⟨0x00800000⟩

/-- Whether the pattern is no number. -/
def isNaN (x : Single) : Bool := decide (0x7f800000 < x.bits &&& 0x7fffffff)

/-- Whether the pattern is a finite number. -/
def isFinite (x : Single) : Bool := decide (x.bits &&& 0x7fffffff < 0x7f800000)

/-- Whether the sign bit is set. -/
def isNegative (x : Single) : Bool := decide (0x80000000 ≤ x.bits)

/-- The value without its sign. -/
def abs (x : Single) : Single := ⟨x.bits &&& 0x7fffffff⟩

/-- Numeric equality: zeros of both signs agree and no NaN equals anything. -/
def same (x y : Single) : Bool := x.toFloat32 == y.toFloat32

/-- The greater of two numbers; of a number and a NaN, the number. -/
def max (x y : Single) : Single :=
  if x.isNaN then y else if y.isNaN then x else if y.toFloat32 < x.toFloat32 then x else y

/-- The same number in double precision; a NaN keeps its sign and payload and becomes quiet. -/
def widen (x : Single) : Double :=
  if x.isNaN then
    let sign : UInt64 := (x.bits &&& 0x80000000).toUInt64 <<< 32
    let payload : UInt64 := (x.bits &&& 0x007fffff).toUInt64 <<< 29
    ⟨sign ||| payload ||| 0x7ff8000000000000⟩
  else
    let sign := x.bits.toNat / 0x80000000
    ⟨.ofNat (sign * 0x8000000000000000 + widenMagnitude (x.bits.toNat % 0x80000000))⟩

end Single

namespace Double

/-- The machine number of a pattern. -/
def toFloat (x : Double) : Float := Float.ofBits x.bits

/-- The pattern of a machine number. -/
def ofFloat (x : Float) : Double := ⟨x.toBits⟩

/-- The pattern of the integer `n`, rounded to the nearest double. -/
def ofInt (n : Int) : Double := ofFloat (Float.ofInt n)

/-- Whether the pattern is no number. -/
def isNaN (x : Double) : Bool := decide (0x7ff0000000000000 < x.bits &&& 0x7fffffffffffffff)

/-- Whether the pattern is a finite number. -/
def isFinite (x : Double) : Bool := decide (x.bits &&& 0x7fffffffffffffff < 0x7ff0000000000000)

/-- Whether the sign bit is set. -/
def isNegative (x : Double) : Bool := decide (0x8000000000000000 ≤ x.bits)

/-- Numeric equality: zeros of both signs agree and no NaN equals anything. -/
def same (x y : Double) : Bool := x.toFloat == y.toFloat

/-- The nearest single, infinite beyond its range; a NaN keeps its sign and leading payload. -/
def narrow (x : Double) : Single :=
  if x.isNaN then
    let sign : UInt32 := (x.bits >>> 32).toUInt32 &&& 0x80000000
    let payload : UInt32 := (x.bits >>> 29).toUInt32 &&& 0x003fffff
    ⟨sign ||| payload ||| 0x7fc00000⟩
  else
    let sign := x.bits.toNat / 0x8000000000000000
    ⟨.ofNat (sign * 0x80000000 + narrowMagnitude (x.bits.toNat % 0x8000000000000000))⟩

end Double

end Daq
