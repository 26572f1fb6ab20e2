import Daq.Json.Literal
import Daq.Json.Number

set_option autoImplicit false

/-!
# Reading JSON

The reader takes one value off the head of a text and leaves the rest. Every step consumes at least
one character, so the length of the text bounds the depth and number of steps.

## Main definitions

* `Daq.Json.read` — the document that a whole text denotes.
-/

namespace Daq.Json

/-- Drop the blanks that may stand between tokens. -/
def skipBlanks : List Char → List Char :=
  List.dropWhile fun c => c == ' ' || c == '\n' || c == '\t' || c == '\r'

/-- The rest of a text that starts with `word`. -/
def after? : List Char → List Char → Option (List Char)
  | [], s => some s
  | c :: word, d :: s => if c = d then after? word s else none
  | _ :: _, [] => none

/-- The members of a record; a record with a member that has no name cannot be read. -/
def recordOf (members : List (Option String × Document)) : Document :=
  match members.mapM fun m => m.1.map fun name => (name, m.2) with
  | some members => .record members
  | none => .unreadable

mutual

/-- A value at the head of a text, and the rest. -/
def value (fuel : Nat) (s : List Char) : Option (Document × List Char) :=
  match fuel with
  | 0 => none
  | fuel + 1 =>
    match skipBlanks s with
    | 'n' :: rest => do some (.null, ← after? ['u', 'l', 'l'] rest)
    | 't' :: rest => do some (.bool true, ← after? ['r', 'u', 'e'] rest)
    | 'f' :: rest => do some (.bool false, ← after? ['a', 'l', 's', 'e'] rest)
    | '"' :: rest => do
      let (text, rest) ← Literal.read rest
      some ((text.map Document.text).getD .unreadable, rest)
    | '[' :: rest =>
      match skipBlanks rest with
      | ']' :: rest => some (.list [], rest)
      | rest => do
        let (items, rest) ← items fuel rest
        some (.list items, rest)
    | '\x7b' :: rest =>
      match skipBlanks rest with
      | '\x7d' :: rest => some (.record [], rest)
      | rest => do
        let (members, rest) ← members fuel rest
        some (recordOf members, rest)
    | s => do
      let (n, rest) ← Numeral.read s
      some (n.value, rest)

/-- The items of a list up to its closing bracket. -/
def items (fuel : Nat) (s : List Char) : Option (List Document × List Char) :=
  match fuel with
  | 0 => none
  | fuel + 1 => do
    let (item, rest) ← value fuel s
    match skipBlanks rest with
    | ']' :: rest => some ([item], rest)
    | ',' :: rest => do
      let (tail, rest) ← items fuel rest
      some (item :: tail, rest)
    | _ => none

/-- The members of a record up to its closing brace. -/
def members (fuel : Nat) (s : List Char) :
    Option (List (Option String × Document) × List Char) :=
  match fuel with
  | 0 => none
  | fuel + 1 =>
    match skipBlanks s with
    | '"' :: rest => do
      let (name, rest) ← Literal.read rest
      match skipBlanks rest with
      | ':' :: rest => do
        let (item, rest) ← value fuel rest
        match skipBlanks rest with
        | '\x7d' :: rest => some ([(name, item)], rest)
        | ',' :: rest => do
          let (tail, rest) ← members fuel rest
          some ((name, item) :: tail, rest)
        | _ => none
      | _ => none
    | _ => none

end

/-- The document that a text denotes: one value, with nothing but blanks around it. -/
def read (text : String) : Option Document :=
  let s := text.toList
  match value (2 * s.length + 2) s with
  | some (d, rest) => if (skipBlanks rest).isEmpty then some d else none
  | none => none

end Daq.Json
