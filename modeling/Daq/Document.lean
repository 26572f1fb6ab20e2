import Daq.Number

set_option autoImplicit false

/-!
# Documents

A document is what a structured text says before anyone knows which record it describes: numbers,
texts, lists and records. Both file formats are read into documents and written from them.

## Main definitions

* `Daq.Document` — the values.
* `Daq.Document.Convention` — what a format admits beyond records with members.
* `Daq.Document.fields` — the fields of a record, given by name or by position.
-/

namespace Daq

/-- A structured value. -/
inductive Document where
  /-- The explicit absence of a value. -/
  | null
  /-- A well-formed literal without a value, such as a number beyond every range. It may be skipped
  but not read. -/
  | unreadable
  /-- A truth value. -/
  | bool (value : Bool)
  /-- A whole number. -/
  | integer (value : Int)
  /-- A number with a fraction or exponent. -/
  | float (value : Double)
  /-- A number of single precision; read back, it is a `float`. -/
  | single (value : Single)
  /-- A text. -/
  | text (value : String)
  /-- A list of values. -/
  | list (items : List Document)
  /-- Named members, in the order of the text. -/
  | record (members : List (String × Document))
  deriving Inhabited

namespace Document

/-- What a format admits beyond the plain reading of a record or choice. -/
structure Convention where
  /-- Whether a record given as a list may have more items than the record has fields. -/
  extraItems : Bool
  /-- Whether this value may stand beside the name of a choice without contents. -/
  emptyContents : Document → Bool

/-- The values of all members called `name`. -/
def membersNamed (name : String) (members : List (String × Document)) : List Document :=
  members.filterMap fun m => if m.1 = name then some m.2 else none

/-- The one value called `name`, if any; a name that occurs twice is refused. -/
def soleMember? (members : List (String × Document)) (name : String) :
    Option (Option Document) :=
  match membersNamed name members with
  | [] => some none
  | [d] => some (some d)
  | _ => none

/-- Values for `n` fields by position; missing ones are absent. -/
def positional (n : Nat) (items : List Document) : List (Option Document) :=
  (List.range n).map fun i => items[i]?

/-- The values of the named fields of a record. Members with other names do not matter; a record
may also be given as the list of its fields. -/
def fields (c : Convention) (names : List String) : Document → Option (List (Option Document))
  | .record members => names.mapM (soleMember? members)
  | .list items =>
    if items.length ≤ names.length ∨ c.extraItems then some (positional names.length items)
    else none
  | _ => none

/-- The name of a choice without contents, given alone or as the only member of a record. -/
def choice (c : Convention) : Document → Option String
  | .text name => some name
  | .record [(name, contents)] => if c.emptyContents contents then some name else none
  | _ => none

/-- A truth value. -/
def toBool : Document → Option Bool
  | .bool b => some b
  | _ => none

/-- A text. -/
def toText : Document → Option String
  | .text s => some s
  | _ => none

/-- A count below `2 ^ 64`. -/
def toCount : Document → Option Nat
  | .integer n => if 0 ≤ n ∧ n < countBound then some n.toNat else none
  | _ => none

/-- A signed integer of sixty-four bits. -/
def toInteger : Document → Option Int
  | .integer n => if -integerBound ≤ n ∧ n < integerBound then some n else none
  | _ => none

/-- A single; integers are rounded directly, wider numbers from their double. -/
def toSingle : Document → Option Single
  | .integer n =>
    if 0 ≤ n then some (Single.ofUInt64 n.toNat.toUInt64) else some (Single.ofInt64 n.toInt64)
  | .float x => some x.narrow
  | .single x => some x
  | _ => none

/-- A double. -/
def toDouble : Document → Option Double
  | .integer n => some (Double.ofInt n)
  | .float x => some x
  | .single x => some x.widen
  | _ => none

/-- Every item of a list, read by `f`. -/
def toListOf {α : Type} (f : Document → Option α) : Document → Option (List α)
  | .list items => items.mapM f
  | _ => none

/-- A value that may be null. -/
def toOptional {α : Type} (f : Document → Option α) : Document → Option (Option α)
  | .null => some none
  | d => (f d).map some

/-- A field that takes a default when it is absent. -/
def orDefault {α : Type} (default : α) (f : Document → Option α) : Option Document → Option α
  | none => some default
  | some d => f d

/-- A field that has to be there. -/
def required {α : Type} (f : Document → Option α) (field : Option Document) : Option α :=
  field.bind f

/-- The document of a value that may be absent. -/
def ofOptional {α : Type} (f : α → Document) : Option α → Document
  | none => .null
  | some a => f a

/-- The document of a count. -/
def ofCount (n : Nat) : Document := .integer n

end Document

end Daq
