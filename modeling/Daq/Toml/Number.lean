import Daq.Decimal.Shortest
import Daq.Document

set_option autoImplicit false

/-!
# Numbers and dates in TOML text

Digits may be grouped by single underscores between digits. A decimal number does not start with a
zero that another digit follows. Whole numbers fit sixty-four bits with sign; a number with a
fraction or exponent may not be too great. Dates and times are checked and then kept as an opaque
record, since no setting is a date.

## Main definitions

* `Daq.Toml.scalar` — the longest date, number with fraction or whole number at the head of a text.
-/

namespace Daq.Toml

/-- The value of a digit in a base up to sixteen. -/
def digitIn? (base : Nat) (c : Char) : Option Nat :=
  let d :=
    if '0' ≤ c ∧ c ≤ '9' then c.toNat - '0'.toNat
    else if 'a' ≤ c ∧ c ≤ 'f' then c.toNat - 'a'.toNat + 10
    else if 'A' ≤ c ∧ c ≤ 'F' then c.toNat - 'A'.toNat + 10
    else base
  if d < base then some d else none

/-- Digits after a first digit; an underscore has to stand between two digits. -/
def moreDigits (base : Nat) : List Char → Option (List Nat × List Char)
  | '_' :: c :: rest => do
    let d ← digitIn? base c
    let (ds, rest) ← moreDigits base rest
    some (d :: ds, rest)
  | c :: rest =>
    match digitIn? base c with
    | some d => do
      let (ds, rest) ← moreDigits base rest
      some (d :: ds, rest)
    | none => if c = '_' then none else some ([], c :: rest)
  | [] => some ([], [])

/-- At least one digit. -/
def digits (base : Nat) : List Char → Option (List Nat × List Char)
  | c :: rest => do
    let d ← digitIn? base c
    let (ds, rest) ← moreDigits base rest
    some (d :: ds, rest)
  | [] => none

/-- The value of a list of digits. -/
def ofDigits (base : Nat) (ds : List Nat) : Nat := ds.foldl (fun n d => base * n + d) 0

/-- An optional sign; whether it is a minus. -/
def sign : List Char → Bool × List Char
  | '-' :: rest => (true, rest)
  | '+' :: rest => (false, rest)
  | s => (false, s)

/-- Digits that do not start with a superfluous zero. -/
def wholeDigits (s : List Char) : Option (List Nat × List Char) :=
  match s with
  | '0' :: rest => some ([0], rest)
  | s => digits 10 s

/-- The rest of a text that starts with `word`. -/
def after? : List Char → List Char → Option (List Char)
  | [], s => some s
  | c :: word, d :: s => if c = d then after? word s else none
  | _ :: _, [] => none

/-- The double nearest to `significand · 10 ^ exponent`. -/
def nearest (significand : Nat) (exponent : Int) : Float :=
  let point := (digitCount significand : Int) + exponent
  if significand = 0 ∨ point < -400 then 0
  else if 400 < point then 1 / 0
  else match exponent with
    | .ofNat e => Float.ofScientific significand false e
    | .negSucc e => Float.ofScientific significand true (e + 1)

/-- The exponent of a number: a mark, an optional sign and digits. -/
def exponent : List Char → Option (Int × List Char)
  | c :: rest =>
    if c = 'e' ∨ c = 'E' then do
      let (negative, rest) := sign rest
      let (ds, rest) ← digits 10 rest
      let e : Int := ofDigits 10 ds
      some (if negative then -e else e, rest)
    else none
  | [] => none

/-- Fraction and exponent of a number, one of which has to be there. -/
def fractionPart (s : List Char) : Option (List Nat × Int × List Char) :=
  match s with
  | '.' :: rest => do
    let (fraction, rest) ← digits 10 rest
    match rest with
    | c :: _ =>
      if c = 'e' ∨ c = 'E' then do
        let (e, rest) ← exponent rest
        some (fraction, e, rest)
      else some (fraction, 0, rest)
    | [] => some (fraction, 0, rest)
  | s => do
    let (e, rest) ← exponent s
    some ([], e, rest)

/-- A number with a fraction or an exponent. One that is too great is refused unless it is
negative, when it is the infinite value. -/
def fractional (s : List Char) : Option (Document × List Char) := do
  let (negative, s) := sign s
  let (whole, s) ← wholeDigits s
  let (fraction, e, s) ← fractionPart s
  let x := nearest (ofDigits 10 (whole ++ fraction)) (e - fraction.length)
  if x.isInf && !negative then none
  else some (.float (Double.ofFloat (if negative then -x else x)), s)

/-- One of the values that are not finite. -/
def special (s : List Char) : Option (Document × List Char) :=
  let (negative, s) := sign s
  match after? ['i', 'n', 'f'] s, after? ['n', 'a', 'n'] s with
  | some rest, _ => some (.float ⟨if negative then 0xfff0000000000000 else 0x7ff0000000000000⟩, rest)
  | none, some rest =>
    some (.float ⟨if negative then 0xfff8000000000000 else 0x7ff8000000000000⟩, rest)
  | none, none => none

/-- A whole number within sixty-four bits. -/
def bounded (n : Int) (rest : List Char) : Option (Document × List Char) :=
  if -integerBound ≤ n ∧ n < integerBound then some (.integer n, rest) else none

/-- A whole number: hexadecimal, octal or binary with its mark, or decimal with an optional sign. -/
def whole (s : List Char) : Option (Document × List Char) :=
  match s with
  | '0' :: 'x' :: rest => do
    let (ds, rest) ← digits 16 rest
    bounded (ofDigits 16 ds) rest
  | '0' :: 'o' :: rest => do
    let (ds, rest) ← digits 8 rest
    bounded (ofDigits 8 ds) rest
  | '0' :: 'b' :: rest => do
    let (ds, rest) ← digits 2 rest
    bounded (ofDigits 2 ds) rest
  | s => do
    let (negative, s) := sign s
    let (ds, rest) ← wholeDigits s
    let n : Int := ofDigits 10 ds
    bounded (if negative then -n else n) rest

/-- Exactly `n` decimal digits. -/
def fixed : Nat → List Char → Option (Nat × List Char)
  | 0, s => some (0, s)
  | n + 1, c :: rest => do
    let d ← digitIn? 10 c
    let (m, rest) ← fixed n rest
    some (d * powerOfTen n + m, rest)
  | _ + 1, [] => none

/-- Two digits between two bounds. -/
def pair (least greatest : Nat) (s : List Char) : Option (Nat × List Char) := do
  let (n, rest) ← fixed 2 s
  if least ≤ n ∧ n ≤ greatest then some (n, rest) else none

/-- The rest of a text that starts with `c`. -/
def char? (c : Char) : List Char → Option (List Char)
  | d :: rest => if d = c then some rest else none
  | [] => none

/-- The number of days of a month. -/
def daysIn (year month : Nat) : Nat :=
  let leap := year % 4 = 0 ∧ (year % 100 ≠ 0 ∨ year % 400 = 0)
  if month = 2 then (if leap then 29 else 28)
  else if month = 4 ∨ month = 6 ∨ month = 9 ∨ month = 11 then 30
  else 31

/-- The rest after a date. -/
def afterDate (s : List Char) : Option (List Char) := do
  let (year, s) ← fixed 4 s
  let s ← char? '-' s
  let (month, s) ← pair 1 12 s
  let s ← char? '-' s
  let (_, s) ← pair 1 (daysIn year month) s
  some s

/-- The rest after the fraction of a second, if one stands there. -/
def afterFraction (s : List Char) : List Char :=
  match s with
  | '.' :: c :: rest =>
    if (digitIn? 10 c).isSome then rest.dropWhile fun c => (digitIn? 10 c).isSome else s
  | s => s

/-- The rest after a time. -/
def afterTime (s : List Char) : Option (List Char) := do
  let (_, s) ← pair 0 23 s
  let s ← char? ':' s
  let (_, s) ← pair 0 59 s
  let s ← char? ':' s
  let (_, s) ← pair 0 60 s
  some (afterFraction s)

/-- The rest after an offset from universal time, if one stands there. -/
def afterOffset (s : List Char) : Option (List Char) :=
  match s with
  | 'Z' :: rest => some rest
  | 'z' :: rest => some rest
  | c :: rest =>
    if c = '+' ∨ c = '-' then do
      let (_, s) ← pair 0 23 rest
      let s ← char? ':' s
      let (_, s) ← pair 0 59 s
      some s
    else some (c :: rest)
  | [] => some []

/-- The rest after a date, a time, or both. -/
def afterMoment (s : List Char) : Option (List Char) :=
  match afterDate s with
  | none => afterTime s
  | some (c :: rest) =>
    if c = 'T' ∨ c = 't' ∨ c = ' ' then
      match afterTime rest with
      | some rest => afterOffset rest
      | none => some (c :: rest)
    else some (c :: rest)
  | some [] => some []

/-- A date or time; it reads as a record with a member that no setting has. -/
def moment (s : List Char) : Option (Document × List Char) := do
  let rest ← afterMoment s
  some (.record [("$moment", .text (String.ofList (s.take (s.length - rest.length))))], rest)

/-- A date, a number with a fraction, or a whole number. -/
def scalar (s : List Char) : Option (Document × List Char) :=
  match moment s with
  | some r => some r
  | none =>
    match special s with
    | some r => some r
    | none =>
      match fractional s with
      | some r => some r
      | none => whole s

end Daq.Toml
