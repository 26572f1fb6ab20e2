import Daq.Table
import Daq.Text.Quoted
import Daq.Text.Utf8

set_option autoImplicit false

/-!
# Paths and files

A path is a text whose components are separated by slashes. Files are kept by their paths; a
directory is there as soon as a file is in it, and can be made unless a file stands in its way.

## Main definitions

* `Daq.Path.extension?`, `Daq.Path.join`, `Daq.Path.quoted` — operations on paths.
* `Daq.Files` — plain files with their octets.
* `Daq.Files.read?`, `Daq.Files.write?` — access by path.
-/

namespace Daq

namespace Path

/-- The components of a path; empty ones and those that stay in place do not count. -/
def components (path : String) : List (List Char) :=
  (path.toList.splitOn '/').filter fun c => c ≠ [] && c ≠ ['.']

/-- The last component, unless it leads upward. -/
def fileName? (path : String) : Option (List Char) :=
  (components path).getLast?.filter (· ≠ ['.', '.'])

/-- The text behind the last point of a file name; a point at the very beginning does not count. -/
def extension? (path : String) : Option (List Char) := do
  let name ← fileName? path
  let reversed := name.reverse
  match reversed.dropWhile (· ≠ '.') with
  | [] => none
  | [_] => none
  | _ => some (reversed.takeWhile (· ≠ '.')).reverse

/-- Whether the text of a path can only mean a directory. -/
def isDirectory (path : String) : Bool :=
  match (path.toList.splitOn '/').getLast? with
  | some last => last == [] || last == ['.'] || last == ['.', '.']
  | none => true

/-- Whether a path starts at the root. -/
def isAbsolute (path : String) : Bool := path.toList.head? == some '/'

/-- A path followed by one more component. -/
def join (path component : String) : String :=
  if path = "" || path.toList.getLast? == some '/' then path ++ component
  else path ++ "/" ++ component

/-- A path in double quotes. Unlike in other texts single quotes are escaped, too. -/
def quoted (path : String) : String :=
  let escape (c : Char) := if c = '\'' then ['\\', '\''] else Text.escapeChar c
  String.ofList ('"' :: path.toList.flatMap escape ++ ['"'])

end Path

/-- Plain files by the text of their components. -/
structure Files where
  /-- The octets of each file. -/
  contents : Table String (List Nat) := .empty

namespace Files

/-- The text that stands for a path: its components, joined by slashes. -/
def nameOf (components : List (List Char)) : String :=
  String.ofList (['/'].intercalate components)

/-- The octets of a file. -/
def read? (f : Files) (path : String) : Option (List Nat) :=
  if Path.isDirectory path then none else f.contents.get? (nameOf (Path.components path))

/-- The text of a file in UTF-8. -/
def readText? (f : Files) (path : String) : Option String :=
  (f.read? path).bind fun octets => (Text.Utf8.decode? octets).map String.ofList

/-- Whether a file or directory stands at a path. -/
def occupies (f : Files) (components : List (List Char)) : Bool :=
  f.contents.keys.any fun name =>
    components == (Path.components name).take components.length

/-- Whether the directory of a path is there or can be made: no plain file stands in its way. -/
def hasRoomFor (f : Files) (path : String) : Bool :=
  let above := (Path.components path).dropLast
  (List.range above.length).all fun n => !f.contents.contains (nameOf (above.take (n + 1)))

/-- Write a file and make its directory; none if that is not possible. -/
def write? (f : Files) (path : String) (octets : List Nat) : Option Files :=
  let components := Path.components path
  let name := nameOf components
  if Path.isDirectory path || !f.hasRoomFor path ||
      (f.occupies components && !f.contents.contains name) then none
  else some { contents := f.contents.insert name octets }

end Files

end Daq
