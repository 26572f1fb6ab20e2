set_option autoImplicit false

/-!
# Text literals in JSON

A literal stands in double quotes. An escape `\uXXXX` names a UTF-16 unit; two escapes that form a
surrogate pair name one character, and a literal with an unpaired surrogate has no value.

## Main definitions

* `Daq.Json.Literal.read` — the literal whose opening quote was just read.
-/

namespace Daq.Json.Literal

/-- The value of a hexadecimal digit. -/
def hexDigit? (c : Char) : Option Nat :=
  if '0' ≤ c ∧ c ≤ '9' then some (c.toNat - '0'.toNat)
  else if 'a' ≤ c ∧ c ≤ 'f' then some (c.toNat - 'a'.toNat + 10)
  else if 'A' ≤ c ∧ c ≤ 'F' then some (c.toNat - 'A'.toNat + 10)
  else none

/-- The number written by four hexadecimal digits. -/
def hex4? (a b c d : Char) : Option Nat := do
  return 4096 * (← hexDigit? a) + 256 * (← hexDigit? b) + 16 * (← hexDigit? c) + (← hexDigit? d)

/-- The character that a one-letter escape stands for. -/
def escaped? : Char → Option Char
  | '"' => some '"'
  | '\\' => some '\\'
  | '/' => some '/'
  | 'b' => some '\x08'
  | 'f' => some '\x0c'
  | 'n' => some '\n'
  | 'r' => some '\r'
  | 't' => some '\t'
  | _ => none

/-- The units of a literal up to its closing quote, and the rest. A plain character is a unit; an
escape gives a unit by its number. -/
def units : List Char → Option (List Nat × List Char)
  | [] => none
  | '"' :: rest => some ([], rest)
  | '\\' :: 'u' :: a :: b :: c :: d :: rest => do
    let n ← hex4? a b c d
    let (us, rest) ← units rest
    some (n :: us, rest)
  | '\\' :: c :: rest => do
    let e ← escaped? c
    let (us, rest) ← units rest
    some (e.toNat :: us, rest)
  | c :: rest =>
    if c = '\\' ∨ c.toNat < 0x20 then none
    else do
      let (us, rest) ← units rest
      some (c.toNat :: us, rest)

/-- The text of a list of units, unless a surrogate is unpaired. -/
def compose : List Nat → Option (List Char)
  | [] => some []
  | [n] => if 0xD800 ≤ n ∧ n < 0xE000 then none else some [Char.ofNat n]
  | n :: m :: rest =>
    if 0xD800 ≤ n ∧ n < 0xDC00 then
      if 0xDC00 ≤ m ∧ m < 0xE000 then
        (compose rest).map (Char.ofNat (0x10000 + 0x400 * (n - 0xD800) + (m - 0xDC00)) :: ·)
      else none
    else if 0xDC00 ≤ n ∧ n < 0xE000 then none
    else (compose (m :: rest)).map (Char.ofNat n :: ·)

/-- The literal after its opening quote: its text, if it has one, and the rest. -/
def read (s : List Char) : Option (Option String × List Char) := do
  let (us, rest) ← units s
  some ((compose us).map String.ofList, rest)

end Daq.Json.Literal
