import Daq.Text.Percent

set_option autoImplicit false

/-!
# References with an absolute path

A reference that starts with a slash is resolved to a path and a query. Tabs and line breaks do not
count, nor do blanks and controls at the end. Dot segments are removed, characters that may not
stand in a path are percent encoded, and a fragment is dropped. A reference that starts with two
slashes names an authority first; the authority is checked and then of no account.

## Main definitions

* `Daq.Text.Reference.resolve` — path and query of a reference.
* `Daq.Text.Reference.Fault` — what can be wrong with an authority.
* `Daq.Text.Reference.pathOf` — the path of a list of segments, without dot segments.
-/

namespace Daq.Text.Reference

/-- What is wrong with an authority. -/
inductive Fault where
  /-- User information or a port without a host. -/
  | emptyHost
  /-- A port that is no number below `2 ^ 16`. -/
  | invalidPort
  /-- A bracketed host that is no IPv6 address. -/
  | invalidAddress
  /-- A character that may not stand in a host. -/
  | invalidCharacter
  deriving DecidableEq, Repr

/-- The fault in words. -/
def Fault.message : Fault → String
  | .emptyHost => "empty host"
  | .invalidPort => "invalid port number"
  | .invalidAddress => "invalid IPv6 address"
  | .invalidCharacter => "invalid domain character"

/-! ## Paths -/

/-- Whether a character is percent encoded in a path. -/
def isEncoded (c : Char) : Bool :=
  c.toNat ≤ 0x20 || 0x7F ≤ c.toNat ||
    ['"', '#', '<', '>', '?', '`', '\x7b', '\x7d'].contains c

/-- The written form of a path segment. -/
def encodeSegment (s : List Char) : List Char :=
  s.flatMap fun c => if isEncoded c then Percent.encodeChar c else [c]

/-- Reads a dot, plain or percent encoded, off the head of a segment. -/
def dot? : List Char → Option (List Char)
  | '.' :: rest => some rest
  | '%' :: '2' :: 'e' :: rest => some rest
  | '%' :: '2' :: 'E' :: rest => some rest
  | _ => none

/-- Whether a segment is a single dot. -/
def isSingleDot (s : List Char) : Bool := dot? s == some []

/-- Whether a segment is two dots. -/
def isDoubleDot (s : List Char) : Bool := (dot? s).any isSingleDot

/-- Whether a segment is a letter and a colon or bar, up to a backslash or its end. Two dots do not
remove such a segment. -/
def isDrive : List Char → Bool
  | a :: b :: rest => a.isAlpha && (b == ':' || b == '|') && rest.head?.all (· == '\\')
  | _ => false

/-- The directories above a directory, innermost first. -/
def parent : List (List Char) → List (List Char)
  | [] => []
  | s :: rest => if isDrive s then s :: rest else rest

/-- The segments of a path without dot segments: `dirs` are the directories so far, innermost
first, and the list ends with the segment after the last slash. -/
def normalize (dirs : List (List Char)) : List (List Char) → List (List Char)
  | [] => dirs.reverse
  | [s] =>
    if isDoubleDot s then (parent dirs).reverse ++ [[]]
    else if isSingleDot s then dirs.reverse ++ [[]]
    else dirs.reverse ++ [s]
  | s :: rest =>
    if isDoubleDot s then normalize (parent dirs) rest
    else if isSingleDot s then normalize dirs rest
    else normalize (s :: dirs) rest

/-- The path of the segments that stand between and after slashes. -/
def pathOf (segments : List (List Char)) : List Char :=
  (normalize [] (segments.map encodeSegment)).flatMap ('/' :: ·)

/-- The path of a text that starts after the leading slash. -/
def pathAfterSlash (s : List Char) : List Char := pathOf (s.splitOn '/')

/-! ## Authorities -/

/-- Whether a character may not stand in a host. -/
def isForbidden (c : Char) : Bool :=
  ['\x00', '\t', '\n', '\r', ' ', '#', '/', ':', '<', '>', '?', '@', '[', '\\', ']', '^', '|'].contains c

/-- The value of a decimal digit. -/
def digit? (c : Char) : Option Nat :=
  if '0' ≤ c ∧ c ≤ '9' then some (c.toNat - '0'.toNat) else none

/-- Whether a text is a number below 256 without leading zeros. -/
def isByte (s : List Char) : Bool :=
  match s.mapM digit? with
  | some (d :: ds) =>
    (ds.isEmpty || d != 0) && decide ((d :: ds).foldl (fun n d => 10 * n + d) 0 < 256)
  | _ => false

/-- Whether a text is four numbers below 256 with dots between them. -/
def isFourBytes (s : List Char) : Bool :=
  let parts := s.splitOn '.'
  parts.length == 4 && parts.all isByte

/-- The hexadecimal digits at the head of a text, at most four, and the rest. -/
def hexGroup : Nat → List Char → Nat × List Char
  | 0, s => (0, s)
  | _ + 1, [] => (0, [])
  | n + 1, c :: rest =>
    if (Percent.hexValue? c.toNat).isSome then
      let (k, rest) := hexGroup n rest
      (k + 1, rest)
    else (0, c :: rest)

/-- Whether a text continues an IPv6 address of which `pieces` pieces were read; `compressed` says
whether the double colon was seen. -/
def isAddressFrom : Nat → Nat → Bool → List Char → Bool
  | 0, _, _, _ => false
  | _ + 1, pieces, compressed, [] => compressed || pieces == 8
  | fuel + 1, pieces, compressed, c :: rest =>
    if 8 ≤ pieces then false
    else if c = ':' then
      if compressed then false else isAddressFrom fuel (pieces + 1) true rest
    else
      match hexGroup 4 (c :: rest) with
      | (_, []) => isAddressFrom fuel (pieces + 1) compressed []
      | (k, d :: rest') =>
        if d = '.' then
          k != 0 && decide (pieces ≤ 6) && isFourBytes (c :: rest) &&
            (compressed || pieces + 2 == 8)
        else if d = ':' then
          if rest'.isEmpty then false else isAddressFrom fuel (pieces + 1) compressed rest'
        else false

/-- Whether a text is an IPv6 address. -/
def isAddress (s : List Char) : Bool :=
  match s with
  | [] => false
  | [_] => false
  | ':' :: ':' :: rest => isAddressFrom (rest.length + 1) 1 true rest
  | ':' :: _ => false
  | s => isAddressFrom (s.length + 1) 0 false s

/-- Check a host. -/
def checkHost (s : List Char) : Except Fault Unit :=
  match s with
  | '[' :: rest =>
    if rest.getLast? = some ']' ∧ isAddress rest.dropLast then .ok () else .error .invalidAddress
  | s => if s.any isForbidden then .error .invalidCharacter else .ok ()

/-- The characters of a host at the head of a text, and the rest. A colon ends it unless it stands
in brackets. -/
def spanHost (bracketed : Bool) : List Char → List Char × List Char
  | [] => ([], [])
  | c :: rest =>
    if (c = ':' ∧ !bracketed) ∨ c = '/' ∨ c = '?' ∨ c = '#' then ([], c :: rest)
    else
      let bracketed := if c = '[' then true else if c = ']' then false else bracketed
      let (host, rest) := spanHost bracketed rest
      (c :: host, rest)

/-- The rest after the digits of a port of which the number `n` was read. -/
def afterPort (n : Nat) : List Char → Except Fault (List Char)
  | [] => .ok []
  | c :: rest =>
    match digit? c with
    | some d => if 10 * n + d < 0x10000 then afterPort (10 * n + d) rest else .error .invalidPort
    | none =>
      if c = '/' ∨ c = '\\' ∨ c = '?' ∨ c = '#' then .ok (c :: rest) else .error .invalidPort

/-- Whether a character ends an authority. -/
def endsAuthority (c : Char) : Bool := c == '/' || c == '?' || c == '#'

/-- User information and the text after its at sign; the last at sign of the authority counts. -/
def splitUser (s : List Char) : Option (List Char) × List Char :=
  let authority := s.takeWhile fun c => !endsAuthority c
  if authority.contains '@' then
    let host := (authority.reverse.takeWhile (· ≠ '@')).reverse
    let user := authority.take (authority.length - host.length - 1)
    (some user, host ++ s.dropWhile fun c => !endsAuthority c)
  else (none, s)

/-- The rest after an authority. -/
def afterAuthority (s : List Char) : Except Fault (List Char) := do
  let (user, s) := splitUser s
  if user = some [] ∧ s.head?.any endsAuthority then .error .emptyHost
  let (host, rest) := spanHost false s
  checkHost host
  let named := user.any fun u => !(u == [] || u == [':'])
  match rest with
  | ':' :: rest =>
    if host = [] then .error .emptyHost
    else afterPort 0 rest
  | rest => if host = [] ∧ named then .error .emptyHost else .ok rest

/-! ## References -/

/-- A resolved reference. -/
structure Target where
  /-- The path; it is empty or starts with a slash. -/
  path : List Char
  /-- The query, without the question mark. -/
  query : List Char
  deriving DecidableEq

/-- The characters of a text that count. -/
def significant (s : List Char) : List Char :=
  (s.reverse.dropWhile fun c => c.toNat ≤ 0x20).reverse.filter fun c =>
    !(c == '\t' || c == '\n' || c == '\r')

/-- Whether a character ends a path. -/
def endsPath (c : Char) : Bool := c == '?' || c == '#'

/-- The query of a text that starts where the path ends. -/
def queryOf (s : List Char) : List Char :=
  match s with
  | '?' :: rest => rest.takeWhile (· ≠ '#')
  | _ => []

/-- Split off the query and resolve the path by `path`. -/
def target (path : List Char → List Char) (s : List Char) : Target :=
  ⟨path (s.takeWhile fun c => !endsPath c), queryOf (s.dropWhile fun c => !endsPath c)⟩

/-- The path of a text after an authority, which need not start with a slash. -/
def pathAfterAuthority (s : List Char) : List Char :=
  match s with
  | [] => []
  | '/' :: rest => pathAfterSlash rest
  | s => pathAfterSlash s

/-- Path and query of a reference that starts with a slash. Two slashes start an authority; so do
several slashes and backslashes in any mixture, all of which stand before it. -/
def resolve (text : List Char) : Except Fault Target :=
  let s := significant text
  let isSlash := fun c => c == '/' || c == '\\'
  if (s.takeWhile isSlash).length ≤ 1 then .ok (target pathAfterSlash (s.drop 1))
  else do
    let rest ← afterAuthority <| match s with
      | '/' :: '/' :: rest => rest
      | s => s.dropWhile isSlash
    .ok (target pathAfterAuthority rest)

end Daq.Text.Reference
