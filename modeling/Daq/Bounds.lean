set_option autoImplicit false

/-!
# Bounds of whole numbers

## Main definitions

* `Daq.countBound` — counts are below it.
* `Daq.integerBound` — signed integers are below it and not below its negative.
* `Daq.powerOfTwo`, `Daq.powerOfTen` — powers.
-/

namespace Daq

/-- Counts have sixty-four bits. -/
def countBound : Nat := 0x10000000000000000

/-- Signed integers have sixty-four bits, one of them for the sign. -/
def integerBound : Int := 0x8000000000000000

/-- The power of two with exponent `n`. -/
def powerOfTwo (n : Nat) : Nat := Nat.pow 2 n

/-- The power of ten with exponent `n`. -/
def powerOfTen (n : Nat) : Nat := Nat.pow 10 n

end Daq
