import Daq.Toml.Number

set_option autoImplicit false

/-!
# Text literals in TOML

A basic literal stands in double quotes and has escapes, a raw one stands in single quotes and has
none. Either may be written over several lines between tripled quotes; then a line break right
after the opening quotes does not count, and a backslash at the end of a line of a basic literal
removes the break and all blanks after it.

## Main definitions

* `Daq.Toml.literal` — the literal at the head of a text.
* `Daq.Toml.lineLiteral` — the same, on a single line.
-/

namespace Daq.Toml

/-- Whether a character may stand in a literal or comment: no control other than the tab. -/
def isPlain (c : Char) : Bool := c == '\t' || (0x20 ≤ c.toNat && c.toNat != 0x7F)

/-- The value of eight or fewer hexadecimal digits. -/
def hexValue? (cs : List Char) : Option Nat := do
  let ds ← cs.mapM (digitIn? 16)
  some (ofDigits 16 ds)

/-- The character with this number, if there is one. -/
def char?OfNat (n : Nat) : Option Char :=
  if n < 0xD800 ∨ (0xE000 ≤ n ∧ n < 0x110000) then some (Char.ofNat n) else none

/-- The character that an escape stands for, and the rest; the backslash was read. -/
def escape : List Char → Option (Char × List Char)
  | 'b' :: rest => some ('\x08', rest)
  | 't' :: rest => some ('\t', rest)
  | 'n' :: rest => some ('\n', rest)
  | 'f' :: rest => some ('\x0c', rest)
  | 'r' :: rest => some ('\r', rest)
  | '"' :: rest => some ('"', rest)
  | '\\' :: rest => some ('\\', rest)
  | 'u' :: a :: b :: c :: d :: rest => do
    let n ← hexValue? [a, b, c, d]
    some (← char?OfNat n, rest)
  | 'U' :: rest => do
    if rest.length < 8 then none
    let n ← hexValue? (rest.take 8)
    some (← char?OfNat n, rest.drop 8)
  | _ => none

/-- A basic literal on one line; the opening quote was read. -/
def basicLine : Nat → List Char → Option (List Char × List Char)
  | 0, _ => none
  | _ + 1, [] => none
  | _ + 1, '"' :: rest => some ([], rest)
  | fuel + 1, '\\' :: rest => do
    let (c, rest) ← escape rest
    let (cs, rest) ← basicLine fuel rest
    some (c :: cs, rest)
  | fuel + 1, c :: rest =>
    if isPlain c then do
      let (cs, rest) ← basicLine fuel rest
      some (c :: cs, rest)
    else none

/-- A raw literal on one line; the opening quote was read. -/
def rawLine : List Char → Option (List Char × List Char)
  | [] => none
  | '\'' :: rest => some ([], rest)
  | c :: rest =>
    if isPlain c then do
      let (cs, rest) ← rawLine rest
      some (c :: cs, rest)
    else none

/-- The rest after a line break. -/
def lineBreak? : List Char → Option (List Char)
  | '\n' :: rest => some rest
  | '\r' :: '\n' :: rest => some rest
  | _ => none

/-- Drop blanks within a line. -/
def skipBlanks : List Char → List Char := List.dropWhile fun c => c == ' ' || c == '\t'

/-- Drop blanks and line breaks. -/
def skipBreaks : Nat → List Char → List Char
  | 0, s => s
  | fuel + 1, s =>
    match lineBreak? (skipBlanks s) with
    | some rest => skipBreaks fuel rest
    | none => skipBlanks s

/-- The end of a literal in tripled quotes, where three quotes `q` stand: up to two more belong to
the literal. -/
def closing (q : Char) (s : List Char) : List Char × List Char :=
  match s with
  | a :: b :: rest =>
    if a = q ∧ b = q then ([q, q], rest) else if a = q then ([q], b :: rest) else ([], s)
  | [a] => if a = q then ([q], []) else ([], s)
  | [] => ([], [])

/-- A basic literal over several lines; the opening quotes were read. -/
def basicLines : Nat → List Char → Option (List Char × List Char)
  | 0, _ => none
  | _ + 1, '"' :: '"' :: '"' :: rest => some (closing '"' rest)
  | fuel + 1, '\\' :: rest =>
    match lineBreak? (skipBlanks rest) with
    | some after => basicLines fuel (skipBreaks after.length after)
    | none => do
      let (c, rest) ← escape rest
      let (cs, rest) ← basicLines fuel rest
      some (c :: cs, rest)
  | fuel + 1, s =>
    match lineBreak? s, s with
    | some rest, _ => do
      let (cs, rest) ← basicLines fuel rest
      some ('\n' :: cs, rest)
    | none, c :: rest =>
      if isPlain c then do
        let (cs, rest) ← basicLines fuel rest
        some (c :: cs, rest)
      else none
    | none, [] => none

/-- A raw literal over several lines; the opening quotes were read. -/
def rawLines : Nat → List Char → Option (List Char × List Char)
  | 0, _ => none
  | _ + 1, '\'' :: '\'' :: '\'' :: rest => some (closing '\'' rest)
  | fuel + 1, s =>
    match lineBreak? s, s with
    | some rest, _ => do
      let (cs, rest) ← rawLines fuel rest
      some ('\n' :: cs, rest)
    | none, c :: rest =>
      if isPlain c then do
        let (cs, rest) ← rawLines fuel rest
        some (c :: cs, rest)
      else none
    | none, [] => none

/-- A text without the line break it may start with. -/
def skipBreak (s : List Char) : List Char := (lineBreak? s).getD s

/-- A literal on a single line. -/
def lineLiteral (s : List Char) : Option (String × List Char) := do
  let (cs, rest) ← match s with
    | '"' :: rest => basicLine (rest.length + 1) rest
    | '\'' :: rest => rawLine rest
    | _ => none
  some (String.ofList cs, rest)

/-- A literal. -/
def literal (s : List Char) : Option (String × List Char) :=
  match s with
  | '"' :: '"' :: '"' :: rest => do
    let (cs, rest) ← basicLines (rest.length + 1) (skipBreak rest)
    some (String.ofList cs, rest)
  | '\'' :: '\'' :: '\'' :: rest => do
    let (cs, rest) ← rawLines (rest.length + 1) (skipBreak rest)
    some (String.ofList cs, rest)
  | s => lineLiteral s

end Daq.Toml
