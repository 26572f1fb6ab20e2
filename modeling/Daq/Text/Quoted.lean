import Daq.Text.Hidden

set_option autoImplicit false

/-!
# Quoted text

Texts inside diagnostics stand in double quotes; control characters, quotes and backslashes are
escaped so that the diagnostic stays on one line.

## Main definitions

* `Daq.Text.quoted` — a text in quotes.
-/

namespace Daq.Text

/-- The lower-case hexadecimal numeral of `n`. -/
def hexNumeral (n : Nat) : List Char := Nat.toDigits 16 n

/-- The written form of one character. -/
def escapeChar (c : Char) : List Char :=
  match c with
  | '\x00' => ['\\', '0']
  | '\t' => ['\\', 't']
  | '\n' => ['\\', 'n']
  | '\r' => ['\\', 'r']
  | '"' => ['\\', '"']
  | '\\' => ['\\', '\\']
  | c => if isHidden c then ['\\', 'u', '\x7b'] ++ hexNumeral c.toNat ++ ['\x7d'] else [c]

/-- A text in double quotes. -/
def quoted (s : String) : String := String.ofList ('"' :: s.toList.flatMap escapeChar ++ ['"'])

end Daq.Text
