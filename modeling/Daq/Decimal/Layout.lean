import Daq.Decimal.Shortest
import Daq.Text.Numeral

set_option autoImplicit false

/-!
# Layout of numbers with a fraction

Given the digits of a number, a layout decides between positional and exponent notation. Positional
numbers keep a digit on both sides of the point.

## Main definitions

* `Daq.Layout` — the decisions.
* `Daq.Layout.single`, `Daq.Layout.double` — the text of a number.
-/

namespace Daq

/-- How numbers are laid out. The point of a number stands after as many digits as its position
says; a position of zero puts it before the first digit. -/
structure Layout where
  /-- The least position of the point in positional notation, if there is one. -/
  least : Option Int
  /-- The greatest position of the point in positional notation, if there is one. -/
  greatest : Option Int
  /-- Whether an exponent that is not negative has a sign. -/
  signedExponent : Bool := false
  /-- The text of a value that is no number. -/
  nan : String := "NaN"
  /-- The text of the infinite value. -/
  infinity : String := "inf"

namespace Layout

/-- Digits with a point, and zeros to reach it. -/
def positional (digits : List Char) (point : Int) : List Char :=
  match point with
  | .ofNat 0 => ['0', '.'] ++ digits
  | .ofNat p =>
    if digits.length ≤ p then digits ++ List.replicate (p - digits.length) '0' ++ ['.', '0']
    else digits.take p ++ ['.'] ++ digits.drop p
  | .negSucc p => ['0', '.'] ++ List.replicate (p + 1) '0' ++ digits

/-- One digit before the point and a power of ten. -/
def exponential (l : Layout) (digits : List Char) (point : Int) : List Char :=
  let fraction := match digits.drop 1 with
    | [] => []
    | rest => '.' :: rest
  let sign := if l.signedExponent && 1 ≤ point then ['+'] else []
  digits.take 1 ++ fraction ++ ['e'] ++ sign ++ (toString (point - 1)).toList

/-- The text of a positive decimal. -/
def decimal (l : Layout) (d : Decimal) : List Char :=
  let digits := Nat.toDigits 10 d.significand
  let point := (digits.length : Int) + d.exponent
  let fits := (l.least.all fun e => decide (e ≤ point)) &&
    (l.greatest.all fun e => decide (point ≤ e))
  if fits then positional digits point else l.exponential digits point

/-- The text of a number from its parts. -/
def signed (l : Layout) (negative isNaN isFinite : Bool) (b : Binary) : String :=
  if isNaN then l.nan
  else
    let sign := if negative then ['-'] else []
    let body :=
      if !isFinite then l.infinity.toList
      else if b.significand = 0 then ['0', '.', '0']
      else l.decimal b.shortest
    String.ofList (sign ++ body)

/-- The text of a single. -/
def single (l : Layout) (x : Single) : String :=
  l.signed x.isNegative x.isNaN x.isFinite x.toBinary

/-- The text of a double. -/
def double (l : Layout) (x : Double) : String :=
  l.signed x.isNegative x.isNaN x.isFinite x.toBinary

end Layout

end Daq
