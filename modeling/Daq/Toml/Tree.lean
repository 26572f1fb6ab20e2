import Daq.Document

set_option autoImplicit false

/-!
# Tables under construction

A text defines its tables piece by piece: by headers, by headers of lists of tables and by dotted
keys. A tree remembers how each table came about, because a table may be defined only once, and a
dotted key may only extend tables that dotted keys made.

## Main definitions

* `Daq.Toml.Tree` — values, tables and lists of tables.
* `Daq.Toml.Tree.at?` — change a table reached by a path of names.
* `Daq.Toml.Tree.assign?` — define a value under a dotted key.
* `Daq.Toml.Tree.toDocument` — the finished document.
-/

namespace Daq.Toml

/-- A value or table that a text has defined so far. -/
inductive Tree where
  /-- A value, whose contents are complete. -/
  | value (d : Document)
  /-- A table; whether it exists only as a part of a longer name, and whether that name was a
  dotted key. -/
  | table (implied dotted : Bool) (members : List (String × Tree))
  /-- A list of tables. -/
  | tables (items : List Tree)
  deriving Inhabited

namespace Tree

/-- The table at the top of a text. -/
def root : Tree := .table false false []

/-- The member called `name`. -/
def find? (name : String) : List (String × Tree) → Option Tree
  | [] => none
  | (n, t) :: rest => if n = name then some t else find? name rest

/-- Replace the member called `name`, or append it. -/
def put (name : String) (t : Tree) : List (String × Tree) → List (String × Tree)
  | [] => [(name, t)]
  | (n, u) :: rest => if n = name then (n, t) :: rest else (n, u) :: put name t rest

/-- Remove the member called `name`. -/
def remove (name : String) (members : List (String × Tree)) : List (String × Tree) :=
  members.filter fun m => m.1 ≠ name

/-- Change the last table of a list. -/
def onLast? (f : Tree → Option Tree) : List Tree → Option (List Tree)
  | [] => none
  | [t] => (f t).map fun t => [t]
  | t :: rest => (onLast? f rest).map (t :: ·)

/-- Change the table that a path of names leads to. Missing tables are made on the way; of a list of
tables the last one is meant. A dotted path may not enter a table that a header defined. -/
def at? (dotted : Bool) (f : Tree → Option Tree) : List String → Tree → Option Tree
  | [], t => f t
  | name :: path, .table implied dotted' members => do
    let t ← match (find? name members).getD (.table true dotted []) with
      | .value _ => none
      | .tables items => (onLast? (at? dotted f path) items).map Tree.tables
      | .table implied' dotted'' members' =>
        if dotted && !implied' then none
        else at? dotted f path (.table implied' dotted'' members')
    some (.table implied dotted' (put name t members))
  | _ :: _, _ => none

/-- Define a value in a table. The table has to come from a dotted key exactly if the value was
given by one. -/
def define? (viaPath : Bool) (name : String) (d : Document) : Tree → Option Tree
  | .table implied dotted members =>
    if dotted ≠ viaPath ∨ (find? name members).isSome then none
    else some (.table implied dotted (put name (.value d) members))
  | _ => none

/-- Define a value under a dotted key, given by its path and last name. -/
def assign? (path : List String) (name : String) (d : Document) (t : Tree) : Option Tree :=
  at? (!path.isEmpty) (define? (!path.isEmpty) name d) path t

/-- Open the table that a header names: it may not exist yet, save as a part of longer header
names. -/
def open? (name : String) : Tree → Option Tree
  | .table implied dotted members =>
    match find? name members with
    | none => some (.table implied dotted (put name (.table false false []) members))
    | some (.table true false inner) =>
      some (.table implied dotted (put name (.table false false inner) (remove name members)))
    | some _ => none
  | _ => none

/-- Append a table to the list of tables that a header names. -/
def append? (name : String) : Tree → Option Tree
  | .table implied dotted members =>
    match (find? name members).getD (.tables []) with
    | .tables items =>
      some (.table implied dotted (put name (.tables (items ++ [.table false false []])) members))
    | _ => none
  | _ => none

mutual

/-- The finished document. -/
def toDocument : Tree → Document
  | .value d => d
  | .table _ _ members => .record (toMembers members)
  | .tables items => .list (toItems items)

/-- The finished members of a table. -/
def toMembers : List (String × Tree) → List (String × Document)
  | [] => []
  | (name, t) :: rest => (name, toDocument t) :: toMembers rest

/-- The finished tables of a list. -/
def toItems : List Tree → List Document
  | [] => []
  | t :: rest => toDocument t :: toItems rest

end

end Tree

end Daq.Toml
