import Daq.Graph.Generator
import Daq.Graph.Manual
import Daq.Graph.Replay
import Daq.Proofs.Hub.Evolution
import Daq.Scheduler

set_option autoImplicit false

/-!
# Graphs as producers

A graph gets at the hub through its sinks and the directory only. Whatever it does when it is
started, works, is stopped or given up is therefore a sequence of acts, and every step of an
execution thread is an evolution of the hub.

## Main definitions

* `Daq.LawfulGraph` — a kind of graph that only acts through its sinks.

## Main results

* `Daq.Scheduler.evolves_step` — a step of an execution thread is an evolution.
* `Daq.Scheduler.evolves_launch` — so is the start of a graph, however it ends.
* The graphs on command, the replays and the generators are lawful, and so is either of two lawful
  kinds.
-/

namespace Daq

/-- A kind of graph that changes a hub by acts only. -/
class LawfulGraph (γ : Type) [FlowGraph γ] : Prop where
  /-- What a start does. -/
  start_acts : ∀ (g : γ) (h h' : Hub), FlowGraph.start g h = some h' →
    ∃ acts, h' = h.performAll acts
  /-- What a round of work does. -/
  work_acts : ∀ (g : γ) (h : Hub), ∃ acts, (FlowGraph.work g h).2.2 = h.performAll acts
  /-- What a stop does. -/
  stop_acts : ∀ (g : γ) (h : Hub), ∃ acts, (FlowGraph.stop g h).2.2 = h.performAll acts
  /-- What giving up the graph does. -/
  discard_acts : ∀ (g : γ) (h : Hub), ∃ acts, FlowGraph.discard g h = h.performAll acts

namespace Hub

/-- Stopping several sinks is one act each. -/
lemma stopAll_eq (h : Hub) (sinks : List Nat) :
    h.stopAll sinks = h.performAll (sinks.map .stop) := by
  unfold stopAll performAll
  rw [List.foldl_map]
  rfl

/-- Registering several sinks is one act each. -/
lemma registerAll_eq (h : Hub) (sinks : List Nat) :
    h.registerAll sinks = h.performAll (sinks.map .register) := by
  unfold registerAll performAll
  rw [List.foldl_map]
  rfl

end Hub

/-! ### The graphs of the library -/

namespace ManualGraph

/-- A block for a signal is one push for each of its sinks. -/
lemma publish_eq (g : ManualGraph) (h : Hub) (d : Delivery) :
    g.publish h d = h.performAll ((g.sinksOf d.signal).map fun sink => .push sink d.block) := by
  unfold publish Hub.performAll
  rw [List.foldl_map]
  rfl

/-- Several blocks are several pushes. -/
lemma foldl_publish_acts (g : ManualGraph) (ds : List Delivery) (h : Hub) :
    ∃ acts, ds.foldl g.publish h = h.performAll acts := by
  induction ds generalizing h with
  | nil => exact ⟨[], rfl⟩
  | cons d ds ih =>
    obtain ⟨acts, hacts⟩ := ih (g.publish h d)
    rw [List.foldl_cons, hacts, publish_eq, ← Hub.performAll_append]
    exact ⟨_, rfl⟩

/-- A graph that is fed by hand acts by registering, pushing and stopping its sinks. -/
instance : LawfulGraph ManualGraph where
  start_acts g h h' hs := by
    simp only [FlowGraph.start] at hs
    split at hs
    · cases hs
    · cases hs
      exact ⟨_, h.registerAll_eq g.sinks⟩
  work_acts g h := by
    simp only [FlowGraph.work, work]
    split
    · exact ⟨_, g.publish_eq h _⟩
    · exact ⟨[], rfl⟩
  stop_acts g h := by
    obtain ⟨acts, hacts⟩ := g.foldl_publish_acts g.tail h
    simp only [FlowGraph.stop, stop]
    rw [hacts, Hub.stopAll_eq, ← Hub.performAll_append]
    exact ⟨_, rfl⟩
  discard_acts g h := ⟨_, h.stopAll_eq g.sinks⟩

end ManualGraph

namespace ReplayGraph

/-- A replay acts by registering, feeding and stopping its sink. -/
instance : LawfulGraph ReplayGraph where
  start_acts g h h' hs := by
    cases hs
    exact ⟨[.register g.sink], rfl⟩
  work_acts g h := by
    simp only [FlowGraph.work, work]
    split
    · exact ⟨[], rfl⟩
    · split
      · rename_i b rest _
        exact ⟨[.push g.sink b], rfl⟩
      · exact ⟨[], rfl⟩
  stop_acts g h := ⟨[.stop g.sink], rfl⟩
  discard_acts g h := ⟨[.stop g.sink], rfl⟩

end ReplayGraph

namespace GeneratorGraph

/-- A chunk is at most one push. -/
lemma produce_acts (g : Generator) (budget : Nat) (h : Hub) :
    ∃ acts, (g.produce budget h).2.2 = h.performAll acts := by
  simp only [Generator.produce]
  split
  · exact ⟨[], rfl⟩
  · exact ⟨[.push g.sink _], rfl⟩

/-- A round of several generators is a sequence of pushes. -/
lemma round_acts (elapsed : Double) (gs : List Generator) (h : Hub) :
    ∃ acts, (round elapsed h gs).hub = h.performAll acts := by
  induction gs generalizing h with
  | nil => exact ⟨[], rfl⟩
  | cons g gs ih =>
    obtain ⟨first, hfirst⟩ := produce_acts g (g.budgetAt elapsed) h
    obtain ⟨rest, hrest⟩ := ih (g.produce (g.budgetAt elapsed) h).2.2
    refine ⟨first ++ rest, ?_⟩
    rw [Hub.performAll_append, ← hfirst, ← hrest]
    rfl

/-- Generators act by registering, feeding and stopping their sinks. -/
instance : LawfulGraph GeneratorGraph where
  start_acts g h h' hs := by
    cases hs
    exact ⟨_, h.registerAll_eq g.sinks⟩
  work_acts g h := round_acts g.elapsed g.generators h
  stop_acts g h := ⟨_, h.stopAll_eq g.sinks⟩
  discard_acts g h := ⟨_, h.stopAll_eq g.sinks⟩

end GeneratorGraph

/-- Either of two graphs acts as it does on its own. -/
instance {α β : Type} [FlowGraph α] [FlowGraph β] [LawfulGraph α] [LawfulGraph β] :
    LawfulGraph (α ⊕ β) where
  start_acts g h h' hs := by
    cases g with
    | inl a => exact LawfulGraph.start_acts a h h' hs
    | inr b => exact LawfulGraph.start_acts b h h' hs
  work_acts g h := by
    cases g with
    | inl a => exact LawfulGraph.work_acts a h
    | inr b => exact LawfulGraph.work_acts b h
  stop_acts g h := by
    cases g with
    | inl a => exact LawfulGraph.stop_acts a h
    | inr b => exact LawfulGraph.stop_acts b h
  discard_acts g h := by
    cases g with
    | inl a => exact LawfulGraph.discard_acts a h
    | inr b => exact LawfulGraph.discard_acts b h

/-! ### Execution threads -/

section Lawful

variable {γ : Type} [FlowGraph γ] [LawfulGraph γ]

/-- Giving up a graph is an evolution. -/
lemma Hub.evolves_discard (g : γ) (h : Hub) : h.Evolves (FlowGraph.discard g h) := by
  obtain ⟨acts, hacts⟩ := LawfulGraph.discard_acts g h
  rw [hacts]
  exact h.evolves_performAll acts

namespace Scheduler

/-- **A step of an execution thread is an evolution of the hub.** -/
theorem evolves_step (s : Scheduler γ) (h : Hub) : h.Evolves (s.step h).2 := by
  unfold step
  split
  · split
    · exact .refl h
    · obtain ⟨acts, hacts⟩ := LawfulGraph.work_acts s.graph h
      dsimp only
      rw [hacts]
      exact h.evolves_performAll acts
  · obtain ⟨acts, hacts⟩ := LawfulGraph.stop_acts s.graph h
    dsimp only
    rw [hacts]
    exact h.evolves_performAll acts
  · exact Hub.evolves_discard s.graph h
  · exact .refl h

end Scheduler

/-- The hub after an attempt to start a graph. -/
def Launch.hub : Launch γ → Hub
  | .started _ h => h
  | .refused _ h => h
  | .crashed h => h

/-- **Starting a graph is an evolution of the hub, however it ends.** -/
theorem Scheduler.evolves_launch (refusal : Option String) (g : γ) (h : Hub) :
    h.Evolves (Scheduler.launch refusal g h).hub := by
  unfold Scheduler.launch
  split
  · exact Hub.evolves_discard g h
  · rename_i h' hs
    obtain ⟨acts, rfl⟩ := LawfulGraph.start_acts g h h' hs
    split
    · exact (h.evolves_performAll acts).trans (Hub.evolves_discard g _)
    · exact h.evolves_performAll acts

end Lawful

end Daq
