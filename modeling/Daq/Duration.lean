import Daq.Bounds

set_option autoImplicit false

/-!
# Durations

A duration is a whole number of nanoseconds. Its text uses the largest of the units second,
millisecond, microsecond and nanosecond that leaves a non-zero whole part, and a fraction without
trailing zeros.

## Main definitions

* `Daq.Duration` — a span of time.
* `Daq.Duration.render` — its text.
-/

namespace Daq

/-- A span of time in nanoseconds. -/
structure Duration where
  /-- The length in nanoseconds. -/
  nanoseconds : Nat
  deriving DecidableEq, Inhabited, Ord

namespace Duration

/-- No time at all. -/
def zero : Duration := ⟨0⟩

/-- A whole number of milliseconds. -/
def ofMilliseconds (n : Nat) : Duration := ⟨n * 1000000⟩

/-- A whole number of seconds. -/
def ofSeconds (n : Nat) : Duration := ⟨n * 1000000000⟩

/-- The `width` last decimal digits of `n`, most significant first. -/
def fixedDigits : Nat → Nat → List Char
  | 0, _ => []
  | width + 1, n => fixedDigits width (n / 10) ++ [Nat.digitChar (n % 10)]

/-- A number of units of `10 ^ width` nanoseconds, with a point before the rest if there is one. -/
def inUnits (width nanoseconds : Nat) : String :=
  let whole := nanoseconds / powerOfTen width
  let rest := fixedDigits width (nanoseconds % powerOfTen width)
  let kept := (rest.reverse.dropWhile (· == '0')).reverse
  if kept.isEmpty then toString whole else toString whole ++ "." ++ String.ofList kept

/-- The text of a duration in its largest fitting unit. -/
def render (d : Duration) : String :=
  if 1000000000 ≤ d.nanoseconds then inUnits 9 d.nanoseconds ++ "s"
  else if 1000000 ≤ d.nanoseconds then inUnits 6 d.nanoseconds ++ "ms"
  else if 1000 ≤ d.nanoseconds then inUnits 3 d.nanoseconds ++ "µs"
  else toString d.nanoseconds ++ "ns"

end Duration

end Daq
