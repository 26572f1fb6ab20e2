set_option autoImplicit false

/-!
# Blanks

The characters with the Unicode property `White_Space`, and their removal at the ends of a text.
Channel names and numerals are trimmed of them.

## Main definitions

* `Daq.Text.isBlank` — membership in `White_Space`.
* `Daq.Text.trimWith` — a text without the characters of a class at its ends.
-/

namespace Daq.Text

/-- The twenty-five code points with the property `White_Space`. -/
def isBlank (c : Char) : Bool :=
  let n := c.toNat
  (9 ≤ n && n ≤ 13) || n == 0x20 || n == 0x85 || n == 0xA0 || n == 0x1680
    || (0x2000 ≤ n && n ≤ 0x200A) || n == 0x2028 || n == 0x2029 || n == 0x202F
    || n == 0x205F || n == 0x3000

/-- Drop the elements at both ends that satisfy `p`. -/
def trimWith (p : Char → Bool) (s : List Char) : List Char :=
  ((s.dropWhile p).reverse.dropWhile p).reverse

end Daq.Text
