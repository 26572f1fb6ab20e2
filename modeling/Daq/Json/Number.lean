import Daq.Document

set_option autoImplicit false

/-!
# Numbers in JSON text

A number is a significand with an optional fraction and exponent. Without fraction and exponent it
is a whole number as long as it fits sixty-four bits. Otherwise the leading digits that fit
sixty-four bits are kept, the others only move the exponent, and the result is scaled by one
floating-point multiplication or division by a power of ten.

## Main definitions

* `Daq.Json.Numeral` — the parts of a number.
* `Daq.Json.Numeral.read` — the longest number at the head of a text.
* `Daq.Json.Numeral.value` — the document it denotes.
-/

namespace Daq.Json

/-- The parts of a number. -/
structure Numeral where
  /-- Whether a minus sign stands first. -/
  negative : Bool
  /-- The digits before the point. -/
  whole : List Nat
  /-- The digits after the point. -/
  fraction : List Nat
  /-- Sign and digits of the exponent. -/
  exponent : Option (Bool × List Nat)

namespace Numeral

/-- The value of an ASCII digit. -/
def digit? (c : Char) : Option Nat :=
  if '0' ≤ c ∧ c ≤ '9' then some (c.toNat - '0'.toNat) else none

/-- The digits at the head of a text, and the rest. -/
def digits : List Char → List Nat × List Char
  | [] => ([], [])
  | c :: rest =>
    match digit? c with
    | some d => (d :: (digits rest).1, (digits rest).2)
    | none => ([], c :: rest)

/-- The part before the point: a single zero, or digits that do not start with zero. -/
def readWhole (s : List Char) : Option (List Nat × List Char) :=
  match digits s with
  | ([], _) => none
  | (0 :: _ :: _, _) => none
  | (ds, rest) => some (ds, rest)

/-- The part after the point: at least one digit if there is a point. -/
def readFraction : List Char → Option (List Nat × List Char)
  | '.' :: rest =>
    match digits rest with
    | ([], _) => none
    | (ds, rest) => some (ds, rest)
  | s => some ([], s)

/-- Digits of an exponent, at least one. -/
def readExponentDigits (negative : Bool) (s : List Char) :
    Option (Option (Bool × List Nat) × List Char) :=
  match digits s with
  | ([], _) => none
  | (ds, rest) => some (some (negative, ds), rest)

/-- The exponent: a mark, an optional sign and at least one digit. -/
def readExponent : List Char → Option (Option (Bool × List Nat) × List Char)
  | c :: rest =>
    if c = 'e' ∨ c = 'E' then
      match rest with
      | '+' :: rest => readExponentDigits false rest
      | '-' :: rest => readExponentDigits true rest
      | rest => readExponentDigits false rest
    else
      some (none, c :: rest)
  | [] => some (none, [])

/-- The number at the head of a text, and the rest. -/
def read (s : List Char) : Option (Numeral × List Char) := do
  let (negative, s) := match s with
    | '-' :: rest => (true, rest)
    | s => (false, s)
  let (whole, s) ← readWhole s
  let (fraction, s) ← readFraction s
  let (exponent, s) ← readExponent s
  some (⟨negative, whole, fraction, exponent⟩, s)

/-- Append digits to a significand while it fits sixty-four bits; the digits that are left over. -/
def accumulate (significand : Nat) : List Nat → Nat × List Nat
  | [] => (significand, [])
  | d :: rest =>
    if 10 * significand + d < countBound then accumulate (10 * significand + d) rest
    else (significand, d :: rest)

/-- The power `10 ^ e` as a machine number, exact as far as the format allows. -/
def scaleUnit (e : Nat) : Float := Float.ofScientific 1 false e

/-- Divide by `10 ^ e`, in steps of at most `10 ^ 308`. -/
def scaleDown (x : Float) (e : Nat) : Float :=
  if h : e ≤ 308 then x / scaleUnit e
  else if x == 0 then x
  else scaleDown (x / scaleUnit 308) (e - 308)
termination_by e

/-- The number `significand * 10 ^ exponent`, unless it is out of range. -/
def scale (significand : Nat) (exponent : Int) : Option Float :=
  let x := significand.toUInt64.toFloat
  match exponent with
  | .ofNat e =>
    if e ≤ 308 then
      let y := x * scaleUnit e
      if y.isFinite then some y else none
    else if significand = 0 then some x else none
  | .negSucc e => some (scaleDown x (e + 1))

/-- The value of a list of digits. -/
def ofDigits (ds : List Nat) : Nat := ds.foldl (fun n d => 10 * n + d) 0

/-- Attach the sign. -/
def signed (negative : Bool) (x : Float) : Document :=
  .float (Double.ofFloat (if negative then -x else x))

/-- A whole number, which keeps its kind if it fits sixty-four bits; minus zero is no whole
number. -/
def wholeValue (negative : Bool) (n : Nat) : Document :=
  if negative then
    if 0 < n ∧ (n : Int) ≤ integerBound then .integer (-n) else signed true n.toUInt64.toFloat
  else .integer n

/-- The value of a number. -/
def value (n : Numeral) : Document :=
  let (significand, excess) := accumulate 0 n.whole
  match n.fraction, n.exponent, excess with
  | [], none, [] => wholeValue n.negative significand
  | fraction, exponent, excess =>
    let (significand, dropped) := accumulate significand fraction
    let shift : Int := (excess.length : Int) - (fraction.length - dropped.length : Nat)
    let (down, e) := match exponent with
      | none => (false, 0)
      | some (down, ds) => (down, ofDigits ds)
    if 0x80000000 ≤ e then
      if significand = 0 ∨ down then signed n.negative 0 else .unreadable
    else
      match scale significand (if down then shift - e else shift + e) with
      | some x => signed n.negative x
      | none => .unreadable

end Numeral

end Daq.Json
