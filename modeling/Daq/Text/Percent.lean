import Daq.Text.Utf8

set_option autoImplicit false

/-!
# Percent encoding

An octet is written as a percent sign and two hexadecimal digits. Reading leaves a percent sign
alone that no two digits follow.

## Main definitions

* `Daq.Text.Percent.encodeOctet`, `Daq.Text.Percent.decode` — writing and reading.
-/

namespace Daq.Text.Percent

/-- The upper-case hexadecimal digit of a number below sixteen. -/
def hexDigit (n : Nat) : Char := Char.ofNat (if n < 10 then 0x30 + n else 0x41 + (n - 10))

/-- The value of the hexadecimal digit with this code point, in either case. -/
def hexValue? (n : Nat) : Option Nat :=
  if 0x30 ≤ n ∧ n ≤ 0x39 then some (n - 0x30)
  else if 0x41 ≤ n ∧ n ≤ 0x46 then some (n - 0x41 + 10)
  else if 0x61 ≤ n ∧ n ≤ 0x66 then some (n - 0x61 + 10)
  else none

/-- The written form of an octet. -/
def encodeOctet (b : Nat) : List Char := ['%', hexDigit (b / 16), hexDigit (b % 16)]

/-- The written form of all octets of a character. -/
def encodeChar (c : Char) : List Char := (Utf8.encodeChar c).flatMap encodeOctet

/-- The octets that a sequence of octets stands for. -/
def decode : List Nat → List Nat
  | [] => []
  | [a] => [a]
  | [a, b] => [a, b]
  | a :: b :: c :: rest =>
    if a = 0x25 then
      match hexValue? b, hexValue? c with
      | some x, some y => (16 * x + y) :: decode rest
      | _, _ => a :: decode (b :: c :: rest)
    else a :: decode (b :: c :: rest)

end Daq.Text.Percent
