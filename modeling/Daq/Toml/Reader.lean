import Daq.Toml.Literal
import Daq.Toml.Tree

set_option autoImplicit false

/-!
# Reading TOML

A text is a sequence of lines: assignments, headers of tables and headers of lists of tables. The
reader keeps the tree of what was defined so far and the path of the table that assignments go to.

## Main definitions

* `Daq.Toml.read` — the document that a whole text denotes.
-/

namespace Daq.Toml

/-- Lists and inline tables may be nested less deeply than this, and keys may have fewer names. -/
def depthBound : Nat := 80

/-- Whether a character may stand in a bare name. -/
def isBare (c : Char) : Bool := c.isAlphanum || c == '_' || c == '-'

/-- A name: bare or a literal on one line. -/
def name (s : List Char) : Option (String × List Char) :=
  match s with
  | '"' :: _ => lineLiteral s
  | '\'' :: _ => lineLiteral s
  | s =>
    match s.takeWhile isBare with
    | [] => none
    | cs => some (String.ofList cs, s.dropWhile isBare)

/-- The names of a dotted key; blanks may stand around the dots. -/
def names : Nat → List Char → Option (List String × List Char)
  | 0, _ => none
  | fuel + 1, s => do
    let (n, rest) ← name (skipBlanks s)
    match skipBlanks rest with
    | '.' :: rest => do
      let (ns, rest) ← names fuel rest
      some (n :: ns, rest)
    | rest => some ([n], rest)

/-- A dotted key as a path and a last name. -/
def key (s : List Char) : Option (List String × String × List Char) := do
  let (ns, rest) ← names (s.length + 1) s
  if depthBound ≤ ns.length then none
  else some (ns.dropLast, ← ns.getLast?, rest)

/-- The rest after a comment, if one stands there. -/
def skipComment : List Char → List Char
  | '#' :: rest => rest.dropWhile isPlain
  | s => s

/-- The rest after the end of a line: blanks, a comment and a line break or the end of the text. -/
def lineEnd (s : List Char) : Option (List Char) :=
  match skipComment (skipBlanks s) with
  | [] => some []
  | s => lineBreak? s

/-- Drop blanks, comments and line breaks between the items of a list. A comment has to end with
its line. -/
def skipLines : Nat → List Char → List Char
  | 0, s => s
  | fuel + 1, s =>
    match lineBreak? (skipComment (skipBlanks s)) with
    | some rest => skipLines fuel rest
    | none => skipBlanks s

mutual

/-- A value, nested less deeply than `depth` allows. -/
def value (fuel depth : Nat) (s : List Char) : Option (Document × List Char) :=
  match fuel with
  | 0 => none
  | fuel + 1 =>
    match s with
    | '"' :: _ => (literal s).map fun r => (.text r.1, r.2)
    | '\'' :: _ => (literal s).map fun r => (.text r.1, r.2)
    | 't' :: rest => (after? ['r', 'u', 'e'] rest).map fun r => (.bool true, r)
    | 'f' :: rest => (after? ['a', 'l', 's', 'e'] rest).map fun r => (.bool false, r)
    | '[' :: rest =>
      if depthBound ≤ depth + 1 then none
      else do
        let (ds, rest) ← items fuel (depth + 1) rest
        some (.list ds, rest)
    | '\x7b' :: rest =>
      if depthBound ≤ depth + 1 then none
      else
        match skipBlanks rest with
        | '\x7d' :: rest => some (.record [], rest)
        | rest => do
          let (t, rest) ← assignments fuel (depth + 1) Tree.root rest
          some (t.toDocument, rest)
    | s => scalar s

/-- The items of a list up to its closing bracket; a comma may follow the last one. -/
def items (fuel depth : Nat) (s : List Char) : Option (List Document × List Char) :=
  match fuel with
  | 0 => none
  | fuel + 1 =>
    match skipLines s.length s with
    | ']' :: rest => some ([], rest)
    | s => do
      let (d, rest) ← value fuel depth s
      match skipLines rest.length rest with
      | ']' :: rest => some ([d], rest)
      | ',' :: rest => do
        let (ds, rest) ← items fuel depth rest
        some (d :: ds, rest)
      | _ => none

/-- The assignments of an inline table up to its closing brace, all on one line. -/
def assignments (fuel depth : Nat) (t : Tree) (s : List Char) : Option (Tree × List Char) :=
  match fuel with
  | 0 => none
  | fuel + 1 => do
    let (path, last, rest) ← key s
    match rest with
    | '=' :: rest => do
      let (d, rest) ← value fuel depth (skipBlanks rest)
      let t ← t.assign? path last d
      match skipBlanks rest with
      | '\x7d' :: rest => some (t, rest)
      | ',' :: rest => assignments fuel depth t rest
      | _ => none
    | _ => none

end

/-- What was read so far. -/
structure State where
  /-- Everything that was defined. -/
  tree : Tree
  /-- The path of the table that assignments go to. -/
  current : List String

/-- The assignment on a line. -/
def assignment (st : State) (s : List Char) : Option (State × List Char) := do
  let (path, last, rest) ← key s
  match rest with
  | '=' :: rest => do
    let rest := skipBlanks rest
    let (d, rest) ← value (2 * rest.length + 2) 0 rest
    let rest ← lineEnd rest
    let tree ← st.tree.at? false (Tree.assign? path last d) st.current
    some (⟨tree, st.current⟩, rest)
  | _ => none

/-- The header on a line; its opening bracket was read. -/
def header (st : State) (s : List Char) : Option (State × List Char) :=
  match s with
  | '[' :: rest => do
    let (path, last, rest) ← key rest
    let rest ← after? [']', ']'] rest
    let rest ← lineEnd rest
    let tree ← st.tree.at? false (Tree.append? last) path
    some (⟨tree, path ++ [last]⟩, rest)
  | rest => do
    let (path, last, rest) ← key rest
    let rest ← after? [']'] rest
    let rest ← lineEnd rest
    let tree ← st.tree.at? false (Tree.open? last) path
    some (⟨tree, path ++ [last]⟩, rest)

/-- The lines of a text. -/
def lines : Nat → State → List Char → Option Tree
  | 0, _, _ => none
  | fuel + 1, st, s =>
    match skipBlanks s with
    | [] => some st.tree
    | '[' :: rest => do
      let (st, rest) ← header st rest
      lines fuel st rest
    | '#' :: rest => do
      let rest ← lineEnd ('#' :: rest)
      lines fuel st rest
    | s =>
      match lineBreak? s with
      | some rest => lines fuel st rest
      | none => do
        let (st, rest) ← assignment st s
        lines fuel st rest

/-- A text without a byte order mark at its head. -/
def skipMark : List Char → List Char
  | c :: rest => if c.toNat = 0xFEFF then rest else c :: rest
  | [] => []

/-- The document that a text denotes. -/
def read (text : String) : Option Document :=
  let s := skipMark text.toList
  (lines (s.length + 1) ⟨.root, []⟩ s).map Tree.toDocument

end Daq.Toml
