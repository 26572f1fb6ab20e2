import Daq.Decimal.Layout
import Daq.Document
import Daq.Text.Quoted

set_option autoImplicit false

/-!
# Writing JSON

A document is written over several lines, each level indented by two spaces. A number that is not
finite has no JSON form and is written as null.

## Main definitions

* `Daq.Json.render` — the text of a document.
* `Daq.Json.renderLine` — the same on one line.
-/

namespace Daq.Json

/-- A single is written positionally from `1e-6` up to `1e13`. -/
def singleLayout : Layout := { least := some (-5), greatest := some 13, signedExponent := true }

/-- A double is written positionally from `1e-5` up to `1e16`. -/
def doubleLayout : Layout := { least := some (-4), greatest := some 16, signedExponent := true }

/-- The written form of a character in a literal. -/
def escapeChar (c : Char) : List Char :=
  match c with
  | '"' => ['\\', '"']
  | '\\' => ['\\', '\\']
  | '\x08' => ['\\', 'b']
  | '\x0c' => ['\\', 'f']
  | '\n' => ['\\', 'n']
  | '\r' => ['\\', 'r']
  | '\t' => ['\\', 't']
  | c =>
    if c.toNat < 0x20 then
      ['\\', 'u', '0', '0', Nat.digitChar (c.toNat / 16), Nat.digitChar (c.toNat % 16)]
    else [c]

/-- A text literal. -/
def literal (s : String) : String :=
  String.ofList ('"' :: s.toList.flatMap escapeChar ++ ['"'])

/-- A new line at a given level. -/
def newLine (level : Nat) : String :=
  String.ofList ('\n' :: List.replicate (2 * level) ' ')

mutual

/-- The text of a value at a given level. -/
def renderAt (level : Nat) : Document → String
  | .null => "null"
  | .unreadable => "null"
  | .bool b => if b then "true" else "false"
  | .integer n => toString n
  | .float x => if x.isFinite then doubleLayout.double x else "null"
  | .single x => if x.isFinite then singleLayout.single x else "null"
  | .text s => literal s
  | .list [] => "[]"
  | .list (d :: items) =>
    "[" ++ newLine (level + 1) ++ renderAt (level + 1) d ++ renderItems (level + 1) items ++
      newLine level ++ "]"
  | .record [] => "\x7b\x7d"
  | .record ((name, d) :: members) =>
    "\x7b" ++ newLine (level + 1) ++ literal name ++ ": " ++ renderAt (level + 1) d ++
      renderMembers (level + 1) members ++ newLine level ++ "\x7d"

/-- Further items of a list. -/
def renderItems (level : Nat) : List Document → String
  | [] => ""
  | d :: items => "," ++ newLine level ++ renderAt level d ++ renderItems level items

/-- Further members of a record. -/
def renderMembers (level : Nat) : List (String × Document) → String
  | [] => ""
  | (name, d) :: members =>
    "," ++ newLine level ++ literal name ++ ": " ++ renderAt level d ++ renderMembers level members

end

/-- The text of a document. -/
def render (d : Document) : String := renderAt 0 d

/-! ### One line -/

/-- The escape of a sixteen-bit unit. -/
def escapeUnit (n : Nat) : List Char :=
  let digits := Nat.toDigits 16 n
  ['\\', 'u'] ++ List.replicate (4 - digits.length) '0' ++ digits

/-- The written form of a character with nothing but ASCII: above it, one or two units. -/
def escapeAscii (c : Char) : List Char :=
  let n := c.toNat
  if c = '"' then ['\\', '"']
  else if c = '\\' then ['\\', '\\']
  else if 0x20 ≤ n ∧ n < 0x7F then [c]
  else if n < 0x10000 then escapeUnit n
  else
    escapeUnit (0xD800 + (n - 0x10000) / 0x400) ++ escapeUnit (0xDC00 + (n - 0x10000) % 0x400)

/-- A text literal with nothing but ASCII. -/
def asciiLiteral (s : String) : String :=
  String.ofList ('"' :: s.toList.flatMap escapeAscii ++ ['"'])

mutual

/-- The text of a document on one line with nothing but ASCII. -/
def renderLine : Document → String
  | .null => "null"
  | .unreadable => "null"
  | .bool b => if b then "true" else "false"
  | .integer n => toString n
  | .float x => if x.isFinite then doubleLayout.double x else "null"
  | .single x => if x.isFinite then singleLayout.single x else "null"
  | .text s => asciiLiteral s
  | .list items => "[" ++ ",".intercalate (lineItems items) ++ "]"
  | .record members => "\x7b" ++ ",".intercalate (lineMembers members) ++ "\x7d"

/-- The texts of the items of a list. -/
def lineItems : List Document → List String
  | [] => []
  | d :: items => renderLine d :: lineItems items

/-- The texts of the members of a record. -/
def lineMembers : List (String × Document) → List String
  | [] => []
  | (name, d) :: members => (asciiLiteral name ++ ":" ++ renderLine d) :: lineMembers members

end

/-- A record may not have more items than fields, and null stands beside a choice. -/
def convention : Document.Convention where
  extraItems := false
  emptyContents
    | .null => true
    | _ => false

end Daq.Json
