set_option autoImplicit false

/-!
# UTF-8

Characters as sequences of octets. Reading never fails: each maximal start of a character that is
not continued properly, and each octet that starts no character, is read as the replacement
character.

## Main definitions

* `Daq.Text.Utf8.encode` — the octets of a text.
* `Daq.Text.Utf8.decode` — the text of any octets.
* `Daq.Text.Utf8.decode?` — the text of octets that are well formed.
-/

namespace Daq.Text.Utf8

/-- The character that stands for octets that cannot be read. -/
def replacement : Char := '\ufffd'

/-- The octets of a character. -/
def encodeChar (c : Char) : List Nat :=
  let n := c.toNat
  if n < 0x80 then [n]
  else if n < 0x800 then [0xC0 + n / 0x40, 0x80 + n % 0x40]
  else if n < 0x10000 then [0xE0 + n / 0x1000, 0x80 + n / 0x40 % 0x40, 0x80 + n % 0x40]
  else [0xF0 + n / 0x40000, 0x80 + n / 0x1000 % 0x40, 0x80 + n / 0x40 % 0x40, 0x80 + n % 0x40]

/-- The octets of a text. -/
def encode (s : List Char) : List Nat := s.flatMap encodeChar

/-- A character whose first octets were read. -/
structure Partial where
  /-- The bits read so far. -/
  bits : Nat
  /-- The number of octets still owed. -/
  owed : Nat
  /-- The least next octet. -/
  least : Nat
  /-- The greatest next octet. -/
  greatest : Nat
  deriving DecidableEq

/-- What the first octet of a character says: a whole character, the start of one, or nothing. -/
def start (b : Nat) : List Char × Option Partial :=
  if b < 0x80 then ([Char.ofNat b], none)
  else if 0xC2 ≤ b ∧ b ≤ 0xDF then ([], some ⟨b - 0xC0, 1, 0x80, 0xBF⟩)
  else if b = 0xE0 then ([], some ⟨0, 2, 0xA0, 0xBF⟩)
  else if b = 0xED then ([], some ⟨0xD, 2, 0x80, 0x9F⟩)
  else if 0xE1 ≤ b ∧ b ≤ 0xEF then ([], some ⟨b - 0xE0, 2, 0x80, 0xBF⟩)
  else if b = 0xF0 then ([], some ⟨0, 3, 0x90, 0xBF⟩)
  else if 0xF1 ≤ b ∧ b ≤ 0xF3 then ([], some ⟨b - 0xF0, 3, 0x80, 0xBF⟩)
  else if b = 0xF4 then ([], some ⟨4, 3, 0x80, 0x8F⟩)
  else ([replacement], none)

/-- Read one octet: the characters that are certain now, and the character that was begun. -/
def step (p : Option Partial) (b : Nat) : List Char × Option Partial :=
  match p with
  | none => start b
  | some p =>
    if p.least ≤ b ∧ b ≤ p.greatest then
      let bits := 0x40 * p.bits + (b - 0x80)
      if p.owed = 1 then ([Char.ofNat bits], none) else ([], some ⟨bits, p.owed - 1, 0x80, 0xBF⟩)
    else
      (replacement :: (start b).1, (start b).2)

/-- The text of octets after the start of a character. -/
def decodeFrom (p : Option Partial) : List Nat → List Char
  | [] => if p.isSome then [replacement] else []
  | b :: rest => (step p b).1 ++ decodeFrom (step p b).2 rest

/-- The text of any octets. -/
def decode (octets : List Nat) : List Char := decodeFrom none octets

/-- The text of octets that are well formed, which is to say that they are the octets of a text. -/
def decode? (octets : List Nat) : Option (List Char) :=
  if encode (decode octets) = octets then some (decode octets) else none

end Daq.Text.Utf8
