import Daq.Number

set_option autoImplicit false

/-!
# Shortest decimals

A binary number is written with the fewest significant digits that still read back as the same
number; of several such decimals the one nearest to the number is taken. All arithmetic is exact:
the numbers that round to `m · 2 ^ q` form an interval, and a decimal grid meets the interval if and
only if one of the two grid points around the number lies in it.

## Main definitions

* `Daq.Decimal` — a significand and a power of ten.
* `Daq.Binary` — a finite positive binary number with the interval that rounds to it.
* `Daq.Binary.shortest` — the shortest decimal of a binary number.
-/

namespace Daq

/-- The number `significand · 10 ^ exponent`. -/
structure Decimal where
  /-- The digits, as one number. -/
  significand : Nat
  /-- The power of ten. -/
  exponent : Int
  deriving DecidableEq, Repr

/-- The number of decimal digits of `n`. -/
def digitCount (n : Nat) : Nat := (Nat.toDigits 10 n).length

/-- The positive number `significand · 2 ^ exponent`. The interval of numbers that round to it
reaches half a unit up and half a unit down, a quarter of a unit down at a power of two; its ends
belong to it if the significand is even. -/
structure Binary where
  /-- The significand. -/
  significand : Nat
  /-- The power of two. -/
  exponent : Int
  /-- Whether the next number below is only half a unit away. -/
  narrowBelow : Bool

namespace Binary

/-- The number as a fraction over four, so that the ends of its interval are whole. -/
def numerator (b : Binary) : Nat := 4 * b.significand * powerOfTwo b.exponent.toNat

/-- The denominator of the number. -/
def denominator (b : Binary) : Nat := 4 * powerOfTwo (-b.exponent).toNat

/-- The lower end of the interval, over the denominator. -/
def lower (b : Binary) : Nat :=
  (4 * b.significand - if b.narrowBelow then 1 else 2) * powerOfTwo b.exponent.toNat

/-- The upper end of the interval, over the denominator. -/
def upper (b : Binary) : Nat := (4 * b.significand + 2) * powerOfTwo b.exponent.toNat

/-- The power of ten of the leading digit. -/
def magnitude (b : Binary) : Int :=
  let n := b.numerator
  let d := b.denominator
  if d ≤ n then (digitCount (n / d) : Int) - 1
  else -(digitCount ((d + n - 1) / n - 1) : Int)

/-- Whether `k · 10 ^ e` rounds to the number. -/
def admits (b : Binary) (e : Int) (k : Nat) : Bool :=
  let point := k * powerOfTen e.toNat * b.denominator
  let scale := powerOfTen (-e).toNat
  if b.significand % 2 = 0 then
    decide (b.lower * scale ≤ point) && decide (point ≤ b.upper * scale)
  else
    decide (b.lower * scale < point) && decide (point < b.upper * scale)

/-- The decimal with the power of ten `e` that reads back, if there is one: of the two around the
number the nearer one, on a tie the even one. -/
def onGrid? (b : Binary) (e : Int) : Option Decimal :=
  let unit := powerOfTen e.toNat * b.denominator
  let value := b.numerator * powerOfTen (-e).toNat
  let k := value / unit
  let low := b.admits e k && k != 0
  let high := b.admits e (k + 1)
  let rest := 2 * (value % unit)
  let preferLow := decide (rest < unit) || (decide (rest = unit) && k % 2 == 0)
  if low && (!high || preferLow) then some ⟨k, e⟩
  else if high then some ⟨k + 1, e⟩
  else none

/-- The first decimal that reads back, starting with the power of ten `e` and going down. -/
def search (b : Binary) : Nat → Int → Decimal
  | 0, e => ⟨b.numerator * powerOfTen (-e).toNat / (powerOfTen e.toNat * b.denominator), e⟩
  | fuel + 1, e =>
    match b.onGrid? e with
    | some d => d
    | none => search b fuel (e - 1)

/-- The shortest decimal that reads back as the number. The search starts one power of ten above
the leading digit, where only the power of ten itself can be near enough. -/
def shortest (b : Binary) : Decimal := b.search 20 (b.magnitude + 1)

/-- The number with the biased exponent `biased` and the fraction `fraction` in a format with
`width` fraction bits whose least exponent is `least`. -/
def ofFields (width : Nat) (least : Int) (biased fraction : Nat) : Binary :=
  if biased = 0 then ⟨fraction, least, false⟩
  else ⟨powerOfTwo width + fraction, least + (biased - 1 : Nat), fraction == 0 && decide (1 < biased)⟩

end Binary

/-- The absolute value of a finite single. -/
def Single.toBinary (x : Single) : Binary :=
  let n := x.bits.toNat
  .ofFields 23 (-149) (n / 0x800000 % 0x100) (n % 0x800000)

/-- The absolute value of a finite double. -/
def Double.toBinary (x : Double) : Binary :=
  let n := x.bits.toNat
  .ofFields 52 (-1074) (n / 0x10000000000000 % 0x800) (n % 0x10000000000000)

end Daq
