import Daq.Filter
import Daq.Text.Form
import Daq.Text.Reference

set_option autoImplicit false

/-!
# Topics

A topic addresses a service by its path and carries parameters. As a text it is a reference with a
form-encoded query.

## Main definitions

* `Daq.Topic` — path and parameters.
* `Daq.Topic.parse`, `Daq.Topic.render` — reading and writing.
* `Daq.Topic.ofFilter` — the topic that asks for a filter.
-/

namespace Daq

open Std Text

/-- The address of a service with parameters. -/
structure Topic where
  /-- The path of the service. -/
  path : String
  /-- The parameters. -/
  params : Params := .empty
  deriving DecidableEq

namespace Topic

/-- The parameters of a query; the last value of a name counts. -/
def paramsOfQuery (query : List Char) : Params :=
  Table.ofList ((Form.decode query).map fun p => (String.ofList p.1, String.ofList p.2))

/-- Read a topic. It has to start with a slash. -/
def parse (text : String) : Except AcqError Topic :=
  if text.toList.head? = some '/' then
    match Reference.resolve text.toList with
    | .ok target => .ok ⟨String.ofList target.path, paramsOfQuery target.query⟩
    | .error fault => .error (.invalidArgument ("topic '" ++ text ++ "': " ++ fault.message))
  else .error (.invalidArgument ("topic '" ++ text ++ "' must start with '/'"))

/-- The query of parameters. -/
def queryOf (params : Params) : List Char :=
  Form.encode (params.toList.map fun p => (p.1.toList, p.2.toList))

/-- The text of a topic; without parameters there is no query. -/
def render (t : Topic) : String :=
  if t.params.isEmpty then t.path
  else String.ofList (t.path.toList ++ '?' :: queryOf t.params)

/-- The topic that asks for a filter. -/
def ofFilter (path : String) (f : Filter) : Topic := ⟨path, f.toParams⟩

/-- Pairs are compared by name, then by value. -/
def comparePair : String × String → String × String → Ordering :=
  compareLex (compareOn fun p => p.1) (compareOn fun p => p.2)

/-- The order of pairs is transitive. -/
instance : TransCmp comparePair := inferInstanceAs (TransCmp (compareLex _ _))

/-- Pairs that compare as equal are equal. -/
instance : LawfulEqCmp comparePair where
  eq_of_compare {p q} h := by
    simp only [comparePair, compareLex, compareOn, Ordering.then_eq_eq] at h
    exact Prod.ext (LawfulEqOrd.eq_of_compare h.1) (LawfulEqOrd.eq_of_compare h.2)

/-- Parameters are compared pair by pair in the order of the names; of two lists that agree as far
as they go, the shorter one comes first. -/
def compareParams (s t : Topic) : Ordering :=
  List.compareLex comparePair s.params.entries t.params.entries

/-- The order of parameters is transitive, as the order of lists of pairs is. -/
instance : TransCmp compareParams :=
  have pairs : TransCmp (List.compareLex comparePair) := inferInstance
  { eq_swap := pairs.eq_swap
    isLE_trans := pairs.isLE_trans }

/-- Topics are compared by path, then by their parameters. -/
def order : Topic → Topic → Ordering := compareLex (compareOn fun t => t.path) compareParams

/-- Topics are ordered. -/
instance : Ord Topic := ⟨order⟩

/-- The order of topics is transitive. -/
instance : TransOrd Topic := inferInstanceAs (TransCmp (compareLex _ _))

/-- Topics that compare as equal have the same path and the same parameters. -/
instance : LawfulEqOrd Topic where
  eq_of_compare {s t} h := by
    replace h : order s t = .eq := h
    simp only [order, compareParams, compareLex, compareOn, Ordering.then_eq_eq] at h
    obtain ⟨path, params⟩ := s
    obtain ⟨path', params'⟩ := t
    obtain rfl := LawfulEqOrd.eq_of_compare (α := String) h.1
    have pairs : LawfulEqCmp (List.compareLex comparePair) := inferInstance
    have := Table.ext_entries (pairs.eq_of_compare h.2)
    simp_all

end Topic

end Daq
