import Daq.Text.Percent

set_option autoImplicit false

/-!
# Form-encoded pairs

Named values in a query: pairs are separated by ampersands, names from values by the first equals
sign. A space is written as a plus sign; everything but letters, digits and four marks is percent
encoded. Empty pairs do not count.

## Main definitions

* `Daq.Text.Form.encode` — the text of a list of pairs.
* `Daq.Text.Form.decode` — the pairs of a text.
-/

namespace Daq.Text.Form

/-- Whether a character is written as it is. -/
def isKept (c : Char) : Bool := c.isAlphanum || c == '*' || c == '-' || c == '.' || c == '_'

/-- The written form of a character. -/
def encodeChar (c : Char) : List Char :=
  if isKept c then [c] else if c = ' ' then ['+'] else Percent.encodeChar c

/-- The written form of a name or value. -/
def encodeText (s : List Char) : List Char := s.flatMap encodeChar

/-- The written form of a pair. -/
def encodePair (p : List Char × List Char) : List Char :=
  encodeText p.1 ++ '=' :: encodeText p.2

/-- The text of a list of pairs. -/
def encode (pairs : List (List Char × List Char)) : List Char :=
  ['&'].intercalate (pairs.map encodePair)

/-- The name or value that octets stand for: a plus sign is a space, percent signs are read, and the
result is read as UTF-8. -/
def decodeText (octets : List Nat) : List Char :=
  Utf8.decode (Percent.decode (octets.map fun b => if b = 0x2B then 0x20 else b))

/-- The pair that octets stand for; without an equals sign the value is empty. -/
def decodePair (octets : List Nat) : List Char × List Char :=
  (decodeText (octets.takeWhile (· ≠ 0x3D)),
    decodeText ((octets.dropWhile (· ≠ 0x3D)).drop 1))

/-- The pairs of a text. -/
def decode (s : List Char) : List (List Char × List Char) :=
  (((Utf8.encode s).splitOn 0x26).filter fun p => !p.isEmpty).map decodePair

end Daq.Text.Form
