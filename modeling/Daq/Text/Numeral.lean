set_option autoImplicit false

/-!
# Decimal numerals

Whole numbers below a bound are written as an optional plus sign and ASCII digits. A numeral that
cannot be read says why; the reason is that of the first character at which reading stops.

## Main definitions

* `Daq.Text.Numeral.Fault` — why a text is no numeral.
* `Daq.Text.Numeral.read` — the value of a numeral below a bound.
* `Daq.Text.Numeral.render` — the numeral of a value, without sign or leading zeros.
-/

namespace Daq.Text

namespace Numeral

/-- Why a text is no numeral. -/
inductive Fault where
  /-- No character at all. -/
  | empty
  /-- A character that is no digit, or a sign without digits. -/
  | invalidDigit
  /-- The value reaches the bound. -/
  | tooLarge
  deriving DecidableEq, Repr

/-- The reason in words. -/
def Fault.message : Fault → String
  | .empty => "cannot parse integer from empty string"
  | .invalidDigit => "invalid digit found in string"
  | .tooLarge => "number too large to fit in target type"

/-- The value of an ASCII digit. -/
def digit? (c : Char) : Option Nat :=
  if '0' ≤ c ∧ c ≤ '9' then some (c.toNat - '0'.toNat) else none

/-- Read digits after the value `acc`, staying below `bound`. -/
def readDigits (bound acc : Nat) : List Char → Except Fault Nat
  | [] => .ok acc
  | c :: rest =>
    match digit? c with
    | none => .error .invalidDigit
    | some d =>
      if 10 * acc + d < bound then readDigits bound (10 * acc + d) rest else .error .tooLarge

/-- The value of a numeral below `bound`: digits after an optional plus sign. -/
def read (bound : Nat) : List Char → Except Fault Nat
  | [] => .error .empty
  | ['+'] => .error .invalidDigit
  | '+' :: rest => readDigits bound 0 rest
  | s => readDigits bound 0 s

/-- The numeral of `n`, without sign or leading zeros. -/
def render (n : Nat) : String := String.ofList (Nat.toDigits 10 n)

end Numeral

end Daq.Text
