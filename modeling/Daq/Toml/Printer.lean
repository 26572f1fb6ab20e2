import Daq.Decimal.Layout
import Daq.Document
import Daq.Toml.Literal

set_option autoImplicit false

/-!
# Writing TOML

A record is written as the assignments of its plain members, then a section for every member that
is a record or a list of records. A member that is null is left out. Whole numbers have to fit
sixty-four bits with sign; singles are written as the double of the same value.

## Main definitions

* `Daq.Toml.quote` — a text literal in the plainest style that needs no escape.
* `Daq.Toml.render` — the text of a document.
-/

namespace Daq.Toml

/-- Numbers are always written positionally. -/
def layout : Layout := { least := none, greatest := none, nan := "nan" }

/-- The length of the longest run of `q` in a text, after a run of `n`. -/
def longestRun (q : Char) (n : Nat) : List Char → Nat
  | [] => n
  | c :: rest => if c = q then longestRun q (n + 1) rest else max n (longestRun q 0 rest)

/-- Whether a text needs escapes: it has a control other than the tab and the line break. -/
def needsEscape (s : List Char) : Bool := s.any fun c => !isPlain c && c != '\n'

/-- The written form of a character other than the quote in a basic literal, in which line breaks
may stand if `broken`. -/
def escapeChar (broken : Bool) (c : Char) : List Char :=
  match c with
  | '\x08' => ['\\', 'b']
  | '\t' => ['\\', 't']
  | '\n' => if broken then ['\n'] else ['\\', 'n']
  | '\x0c' => ['\\', 'f']
  | '\r' => ['\\', 'r']
  | '\\' => ['\\', '\\']
  | c =>
    if isPlain c then [c]
    else ['\\', 'u', '0', '0', (Nat.digitChar (c.toNat / 16)).toUpper,
      (Nat.digitChar (c.toNat % 16)).toUpper]

/-- The written form of a text in a basic literal in which up to `allowed` quotes may stand side by
side and, if `broken`, line breaks may stand; `run` quotes stand before. -/
def escapeBasic (allowed : Nat) (broken : Bool) (run : Nat) : List Char → List Char
  | [] => []
  | c :: rest =>
    if c = '"' then
      if allowed < run + 1 then ['\\', '"'] ++ escapeBasic allowed broken 0 rest
      else c :: escapeBasic allowed broken (run + 1) rest
    else escapeChar broken c ++ escapeBasic allowed broken 0 rest

/-- A basic literal on one line. -/
def quoteBasic (s : List Char) : List Char := ['"'] ++ escapeBasic 0 false 0 s ++ ['"']

/-- The break after the opening quotes of a literal that has line breaks. -/
def opening (s : List Char) : List Char := if s.contains '\n' then ['\n'] else []

/-- A basic literal in tripled quotes. -/
def quoteBasicLines (s : List Char) : List Char :=
  ['"', '"', '"'] ++ opening s ++ escapeBasic 2 true 0 s ++ ['"', '"', '"']

/-- A raw literal on one line. -/
def quoteRaw (s : List Char) : List Char := ['\''] ++ s ++ ['\'']

/-- A raw literal in tripled quotes. -/
def quoteRawLines (s : List Char) : List Char :=
  ['\'', '\'', '\''] ++ opening s ++ s ++ ['\'', '\'', '\'']

/-- A text literal: basic if nothing has to be escaped, else raw, else in tripled quotes, else with
escapes. -/
def quote (text : String) : String :=
  let s := text.toList
  let broken := s.contains '\n'
  let doubles := longestRun '"' 0 s
  let singles := longestRun '\'' 0 s
  let plain := !needsEscape s
  String.ofList <|
    if plain && !s.contains '\\' && doubles = 0 && !broken then quoteBasic s
    else if plain && singles = 0 && !broken then quoteRaw s
    else if plain && !s.contains '\\' && doubles ≤ 2 then quoteBasicLines s
    else if plain && singles ≤ 2 then quoteRawLines s
    else if broken then quoteBasicLines s
    else quoteBasic s

/-- A name: bare if it can be, else a literal. -/
def renderName (name : String) : String :=
  let s := name.toList
  if !s.isEmpty && s.all fun c => c.isAlphanum || c == '_' || c == '-' then name
  else quote name

/-- Whether a value gets a section of its own. -/
def isSection : Document → Bool
  | .record _ => true
  | .list (.record _ :: _) => true
  | _ => false

mutual

/-- The text of a value on a line. -/
def renderValue : Document → Option String
  | .null => none
  | .unreadable => none
  | .bool b => some (if b then "true" else "false")
  | .integer n => if -integerBound ≤ n ∧ n < integerBound then some (toString n) else none
  | .float x => some (layout.double x)
  | .single x => some (layout.double x.widen)
  | .text s => some (quote s)
  | .list items => do some ("[" ++ ", ".intercalate (← renderValues items) ++ "]")
  | .record members => do
    some ("\x7b " ++ ", ".intercalate (← renderPairs members) ++ " \x7d")

/-- The texts of the items of a list. -/
def renderValues : List Document → Option (List String)
  | [] => some []
  | d :: rest => do some ((← renderValue d) :: (← renderValues rest))

/-- The assignments of the members of a record. -/
def renderPairs : List (String × Document) → Option (List String)
  | [] => some []
  | (name, d) :: rest => do
    some ((renderName name ++ " = " ++ (← renderValue d)) :: (← renderPairs rest))

end

/-- The members of a record that are written as assignments. -/
def plainMembers (members : List (String × Document)) : List (String × Document) :=
  members.filter fun m => match m.2 with
    | .null => false
    | d => !isSection d

/-- The assignments of a record, one on a line. -/
def renderLines (members : List (String × Document)) : Option String := do
  let pairs ← renderPairs (plainMembers members)
  some (String.join (pairs.map fun p => p ++ "\n"))

/-- A dotted key. -/
def renderPath (path : List String) : String := ".".intercalate (path.map renderName)

mutual

/-- The sections of the members of the record at `path`. -/
def renderSections (path : List String) : List (String × Document) → Option String
  | [] => some ""
  | (name, d) :: rest => do
    some ((← renderSection (path ++ [name]) d) ++ (← renderSections path rest))

/-- The section of a value at `path`. -/
def renderSection (path : List String) : Document → Option String
  | .record members => do
    some ("\n[" ++ renderPath path ++ "]\n" ++ (← renderLines members) ++
      (← renderSections path members))
  | .list (.record members :: rest) => do
    some ("\n[[" ++ renderPath path ++ "]]\n" ++ (← renderLines members) ++
      (← renderSections path members) ++ (← renderTables path rest))
  | _ => some ""

/-- The sections of further records of a list at `path`. -/
def renderTables (path : List String) : List Document → Option String
  | [] => some ""
  | .record members :: rest => do
    some ("\n[[" ++ renderPath path ++ "]]\n" ++ (← renderLines members) ++
      (← renderSections path members) ++ (← renderTables path rest))
  | _ :: _ => none

end

/-- The text of a document that is a record, unless a number does not fit. -/
def render : Document → Option String
  | .record members => do some ((← renderLines members) ++ (← renderSections [] members))
  | _ => none

/-- A record given as a list may have more items than fields, and an empty list or record stands
beside a choice. -/
def convention : Document.Convention where
  extraItems := true
  emptyContents
    | .list [] => true
    | .record [] => true
    | _ => false

end Daq.Toml
