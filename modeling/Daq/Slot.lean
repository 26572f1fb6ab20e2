set_option autoImplicit false

/-!
# Graph slots

A slot hands over graphs from clients to the worker. It holds at most one graph; a graph that is
set while another one waits takes its place.

## Main definitions

* `Daq.Slot` — the waiting graph, if any.
* `Daq.Slot.set`, `Daq.Slot.take` — the two ends.
-/

namespace Daq

/-- The place of a waiting graph. -/
structure Slot (γ : Type) where
  /-- The graph that waits. -/
  pending : Option γ := none

namespace Slot

variable {γ : Type}

/-- Put a graph in; the graph that it takes the place of, and the slot afterwards. -/
def set (s : Slot γ) (g : γ) : Option γ × Slot γ := (s.pending, ⟨some g⟩)

/-- Take the graph out. -/
def take (s : Slot γ) : Option γ × Slot γ := (s.pending, ⟨none⟩)

/-- Whether a graph waits. -/
def isPending (s : Slot γ) : Bool := s.pending.isSome

/-- The text of a slot in diagnostics. -/
def render (s : Slot γ) : String :=
  "GraphSlot \x7b pending: " ++ (if s.isPending then "true" else "false") ++ " \x7d"

end Slot

end Daq
