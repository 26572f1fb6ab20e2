import Daq.Proofs.Worker.Reports
import Daq.Proofs.Worker.Ticks
import Mathlib.Data.List.Sort

set_option autoImplicit false

/-!
# Handing over graphs

Clients hand over graphs to a worker by way of its slot, in which the last write wins. Here the graphs
are numbered in the order in which they are set, and a register beside the scene says what has become
of each: it waits, it was discarded because another took its place, or it was taken, and of those
that were taken, which were started. The register is kept by looking at the slot and at the graph
that is held, before and after each move.

## Main definitions

* `Daq.Stage.inHand?` — the graph that was taken and is not started yet.
* `Daq.Station.Transfer` — what a step does to the graphs that are on their way.
* `Daq.Register` — what has become of the graphs that were set.
* `Daq.Register.Kept` — the register goes with a station.
* `Daq.Scene.register` — the register after several moves.

## Main results

* `Daq.Scene.transfer_perform` — what every move does.
* `Daq.Scene.kept_perform` — every move keeps the register right.
* `Daq.Scene.taken_of_heeds` — after a stop was read nothing is taken any more.
* `Daq.Scene.handoff_exact` — what becomes of the graphs that are set.
-/

namespace Daq

variable {γ : Type}

/-- The graph that is to take the place of the one that runs. -/
def Aim.graph? : Aim γ → Option γ
  | .replace g => some g
  | _ => none

/-- The graph that was taken from the slot and is not started yet. -/
def Stage.inHand? : Stage γ → Option γ
  | .chosen aim => aim.graph?
  | .asking aim => aim.graph?
  | .flushing aim _ => aim.graph?
  | .drained aim _ => aim.graph?
  | .joining aim => aim.graph?
  | .settled aim => aim.graph?
  | .starting g => some g
  | _ => none

/-- Whether a tick is at a point where it may take a graph from the slot. -/
def Stage.mayTake : Stage γ → Bool
  | .begun stop => !stop
  | .passed stop => !stop
  | _ => false

namespace Station

/-- What a step does to the graphs that are on their way. -/
inductive Transfer (s t : Station γ) : Prop where
  /-- No graph is taken or started; the one in hand may be given up. -/
  | keep (slot : t.worker.slot.pending = s.worker.slot.pending)
      (hand : ∀ g, t.worker.stage.inHand? = some g → s.worker.stage.inHand? = some g)
      (scheduler : s.worker.scheduler = none → t.worker.scheduler = none)
  /-- The graph that waits is taken. -/
  | take (g : γ) (stage : s.worker.stage.mayTake = true) (pending : s.worker.slot.pending = some g)
      (slot : t.worker.slot.pending = none) (hand : t.worker.stage.inHand? = some g)
      (scheduler : t.worker.scheduler = s.worker.scheduler)
  /-- The graph in hand is started. -/
  | start (x : Scheduler γ) (stage : s.worker.stage = .starting x.graph)
      (slot : t.worker.slot.pending = s.worker.slot.pending)
      (scheduler : t.worker.scheduler = some x) (empty : t.worker.stage.inHand? = none)

section Step

variable {s : Station γ}

/-- What leaves slot and graph alone and takes nothing in hand. -/
lemma Transfer.aside {t : Station γ} (slot : t.worker.slot = s.worker.slot)
    (hand : t.worker.stage.inHand? = none ∨ t.worker.stage.inHand? = s.worker.stage.inHand?)
    (scheduler : t.worker.scheduler = s.worker.scheduler) : s.Transfer t := by
  refine .keep (congrArg Slot.pending slot) ?_ (fun h => scheduler.trans h)
  intro g hg
  rcases hand with hand | hand
  · cases hand.symm.trans hg
  · exact hand.symm.trans hg

/-- The beginning of a tick. -/
lemma transfer_begun {stop : Bool} (h : s.worker.stage = .begun stop) :
    s.Transfer (s.stepBegun stop) := by
  unfold stepBegun
  split
  · cases stop with
    | true =>
      exact .aside (Worker.slot_transition _ _) (.inl rfl) (Worker.scheduler_transition _ _)
    | false =>
      simp only [Bool.false_eq_true, if_false, withWorker, Slot.take]
      cases hpending : s.worker.slot.pending with
      | none => exact .keep hpending.symm (fun g hg => by cases hg) fun hx => hx
      | some g => exact .take g (by rw [h]; rfl) hpending rfl rfl rfl
  · exact .aside rfl (.inl rfl) rfl
  · exact .aside rfl (.inl rfl) rfl

/-- A look at the slot. -/
lemma transfer_passed {stop : Bool} (h : s.worker.stage = .passed stop) :
    s.Transfer (s.stepPassed stop) := by
  unfold stepPassed
  cases stop with
  | true => exact .aside rfl (.inl rfl) rfl
  | false =>
    simp only [Bool.false_eq_true, if_false, withWorker, Slot.take]
    cases hpending : s.worker.slot.pending with
    | none => exact .keep hpending.symm (fun g hg => by cases hg) fun hx => hx
    | some g => exact .take g (by rw [h]; rfl) hpending rfl rfl rfl

/-- What follows from the look at the slot. -/
lemma transfer_chosen {aim : Aim γ} (h : s.worker.stage = .chosen aim) :
    s.Transfer (s.stepChosen aim) := by
  have hsame : (Stage.asking aim).inHand? = s.worker.stage.inHand? := by
    rw [h]
    rfl
  simp only [stepChosen, withWorker]
  split
  · exact .aside rfl (.inr hsame) rfl
  · split
    · exact .aside rfl (.inl rfl) rfl
    · exact .aside (Worker.slot_transition _ _) (.inr hsame) (Worker.scheduler_transition _ _)
  · exact .aside (Worker.slot_transition _ _) (.inr hsame) (Worker.scheduler_transition _ _)

/-- What follows without a graph. -/
lemma transfer_settled {aim : Aim γ} (h : s.worker.stage = .settled aim) :
    s.Transfer (s.stepSettled aim) := by
  cases aim with
  | keep => exact .aside (Worker.slot_transition _ _) (.inl rfl) (Worker.scheduler_transition _ _)
  | replace g =>
    exact .aside (Worker.slot_transition _ _) (.inr (by rw [h]; rfl))
      (Worker.scheduler_transition _ _)
  | shutDown =>
    exact .aside (Worker.slot_transition _ _) (.inl rfl) (Worker.scheduler_transition _ _)

/-- What the loop over ticks does between ticks. -/
lemma transfer_resume : s.Transfer s.resume := by
  unfold resume
  split
  · split
    · exact .aside rfl (.inl rfl) rfl
    · exact .aside rfl (.inl rfl) rfl
  · exact .aside (Worker.slot_transition _ _) (.inl rfl) (Worker.scheduler_transition _ _)
  · exact .aside rfl (.inr rfl) rfl

variable [FlowGraph γ]

/-- Waiting for the execution thread. -/
lemma transfer_joining {aim : Aim γ} (h : s.worker.stage = .joining aim) :
    s.Transfer (s.stepJoining aim) := by
  unfold stepJoining
  split
  · exact .aside rfl (.inr rfl) rfl
  · refine .keep rfl ?_ fun _ => rfl
    intro g hg
    rw [h]
    exact hg
  · unfold giveUp
    split <;> exact .keep rfl (fun g hg => by cases hg) fun _ => rfl

/-- The start of a graph, however it ends. -/
lemma transfer_starting {g : γ} (h : s.worker.stage = .starting g) :
    s.Transfer (s.stepStarting g) := by
  unfold stepStarting
  split
  · rename_i x hub hlaunch
    have hx := Scheduler.eq_of_launch hlaunch
    refine .start x ?_ (congrArg Slot.pending (Worker.slot_transition _ _))
      (Worker.scheduler_transition _ _) rfl
    rw [h, hx]
  · exact .aside rfl (.inl rfl) rfl
  · exact .aside rfl (.inl rfl) rfl

/-- **What the next step of the lifecycle thread does** to the graphs that are on their way. -/
theorem transfer_step : s.Transfer s.step := by
  unfold step
  split
  · rename_i p _ _
    cases p <;> exact .aside rfl (.inr rfl) rfl
  · split
    · exact .aside rfl (.inr rfl) rfl
    · exact transfer_begun ‹_›
    · exact transfer_passed ‹_›
    · exact transfer_chosen ‹_›
    · rename_i aim h
      refine .keep rfl ?_ ?_
      · intro g hg
        rw [h]
        exact hg
      · intro hx
        simp only [stepAsking, withWorker, hx, Option.map_none]
    · rename_i aim passes h
      refine .keep rfl ?_ fun hx => hx
      intro g hg
      rw [h]
      change (if (s.reconcile true).1 then Stage.drained aim (passes + 1)
        else .flushing aim (passes + 1)).inHand? = some g at hg
      split at hg <;> exact hg
    · rename_i aim passes h
      refine .keep rfl ?_ fun hx => hx
      intro g hg
      rw [h]
      exact hg
    · exact transfer_joining ‹_›
    · exact transfer_settled ‹_›
    · exact transfer_starting ‹_›
    · exact .aside rfl (.inl rfl) rfl
    · exact .aside rfl (.inr rfl) rfl
    · exact .aside rfl (.inr rfl) rfl

end Step

end Station

namespace Scene

/-- The graph that a move sets. -/
def Move.graph? : Move γ → Option γ
  | .setGraph g => some g
  | _ => none

/-- Going on with a pass takes and starts nothing. -/
lemma transfer_walkOn {s : Scene γ} {w : Walk} (h : s.Paced) (hw : s.walk = some w) :
    s.station.Transfer (s.walkOn w).station := by
  have hslot : (s.walkOn w).station.worker.slot.pending = s.station.worker.slot.pending := by
    obtain ⟨_, _, hworker⟩ := s.worker_walkOn w
    rw [hworker]
  refine .keep hslot ?_ (s.scheduler_walkOn w).trans
  intro g hg
  unfold walkOn at hg
  split at hg
  · rename_i _ x _
    exact (congrArg Stage.inHand? (stage_eq_of_control (control_proceed s w x))).symm.trans hg
  · exact hg
  · -- The pass may end a drain, which has the same aim.
    change (s.station.worker.stage.afterPass w.finished).inHand? = some g at hg
    rcases (Station.pass?_eq_some (h w hw)).2 with ⟨stop, hstage, -⟩ | ⟨aim, passes, hstage⟩
    · rw [hstage] at hg
      cases hg
    · rw [hstage] at hg ⊢
      unfold Stage.afterPass at hg
      dsimp only at hg
      split at hg <;> exact hg

variable [FlowGraph γ]

/-- **What every move does** to the graphs that are on their way: a client sets one, or the lifecycle
thread makes a step. -/
theorem transfer_perform {s : Scene γ} (h : s.Paced) (m : Move γ) :
    (∃ g, m = .setGraph g) ∨ m.graph? = none ∧ s.station.Transfer (s.perform m).station := by
  cases m with
  | setGraph g => exact .inl ⟨g, rfl⟩
  | advance =>
    refine .inr ⟨rfl, ?_⟩
    simp only [perform, advance]
    split
    · exact transfer_walkOn h ‹_›
    · split
      · exact .aside rfl (.inr rfl) rfl
      · exact Station.transfer_step
  | tick =>
    refine .inr ⟨rfl, ?_⟩
    simp only [perform, withStation, tick]
    split
    · exact .aside rfl (.inl rfl) rfl
    · exact .aside rfl (.inr rfl) rfl
  | resume =>
    refine .inr ⟨rfl, ?_⟩
    simp only [perform, withStation]
    split
    · exact Station.transfer_resume
    · exact .aside rfl (.inr rfl) rfl
  | execute =>
    refine .inr ⟨rfl, ?_⟩
    simp only [perform, withStation, Station.execute]
    cases hx : s.station.worker.scheduler with
    | none => exact .aside rfl (.inr rfl) rfl
    | some x => exact .keep rfl (fun g hg => hg) fun hnone => by cases hx.symm.trans hnone
  | conclude g phase =>
    refine .inr ⟨rfl, .keep rfl (fun g hg => hg) ?_⟩
    intro hx
    simp only [perform, withStation, conclude, Station.withWorker, hx, Option.map_none]
  | _ => exact .inr ⟨rfl, .aside rfl (.inr rfl) rfl⟩

end Scene

/-! ### The register -/

/-- What has become of the graphs that were set, which are numbered in the order in which they were
set. -/
structure Register (γ : Type) where
  /-- The graphs set. -/
  set : List γ := []
  /-- The graph that waits. -/
  waiting : Option Nat := none
  /-- The graphs whose place another one took while they waited. -/
  discarded : List Nat := []
  /-- The graphs taken. -/
  taken : List Nat := []
  /-- The graphs that came to be held: the last one that was taken, each time. -/
  started : List Nat := []
  /-- These graphs themselves. -/
  launched : List γ := []

namespace Register

/-- Note that a graph was set. -/
def noteSet (r : Register γ) (g : γ) : Register γ :=
  { r with
    set := r.set ++ [g]
    waiting := some r.set.length
    discarded := r.discarded ++ r.waiting.toList }

/-- Note that the slot was emptied. -/
def noteTaken (r : Register γ) : Register γ :=
  { r with taken := r.taken ++ r.waiting.toList, waiting := none }

/-- Note that a graph came to be held. -/
def noteStarted (r : Register γ) (g : γ) : Register γ :=
  { r with started := r.started ++ r.taken.getLast?.toList, launched := r.launched ++ [g] }

/-- Note what is seen of a step: whether the slot was emptied, and whether a graph came to be held. -/
def note (r : Register γ) (s t : Station γ) : Register γ :=
  let r := if s.worker.slot.isPending && !t.worker.slot.isPending then r.noteTaken else r
  match s.worker.scheduler, t.worker.scheduler with
  | none, some x => r.noteStarted x.graph
  | _, _ => r

/-- The register goes with a station. -/
structure Kept (r : Register γ) (s : Station γ) : Prop where
  /-- The graph that waits is in the slot. -/
  pending : s.worker.slot.pending = r.waiting.bind fun n => r.set[n]?
  /-- It is the one that was set last. -/
  newest : ∀ n, r.waiting = some n → n + 1 = r.set.length
  /-- A graph that was discarded is an older one. -/
  older : ∀ n ∈ r.discarded, n + 1 < r.set.length
  /-- Every graph that was set waits, was discarded or was taken, and only one of these. -/
  parted : (r.taken ++ r.discarded ++ r.waiting.toList).Perm (List.range r.set.length)
  /-- Graphs are taken in the order in which they are set. -/
  rising : r.taken.Pairwise (· < ·)
  /-- Graphs are started in the order in which they are taken. -/
  started : r.started.Sublist r.taken
  /-- A graph in hand was taken last, and was not started before. -/
  hand : ∀ g, s.worker.stage.inHand? = some g →
    ∃ before n, r.taken = before ++ [n] ∧ r.set[n]? = some g ∧ r.started.Sublist before
  /-- The graphs started are those with the numbers noted. -/
  launched : r.launched.map some = r.started.map fun n => r.set[n]?

/-- A list is read off by its positions. -/
lemma filterMap_range (gs : List γ) : (List.range gs.length).filterMap (fun n => gs[n]?) = gs := by
  induction gs using List.reverseRecOn with
  | nil => rfl
  | append_singleton gs g ih =>
    have hbefore : (List.range gs.length).filterMap (fun n => (gs ++ [g])[n]?) =
        (List.range gs.length).filterMap (fun n => gs[n]?) :=
      List.filterMap_congr fun n hn => List.getElem?_append_left (List.mem_range.mp hn)
    rw [List.length_append, List.length_singleton, List.range_succ, List.filterMap_append, hbefore,
      ih]
    simp

namespace Kept

variable {r : Register γ} {s t : Station γ}

/-- Only graphs that were set are taken. -/
lemma lt_of_taken (h : r.Kept s) {n : Nat} (hn : n ∈ r.taken) : n < r.set.length := by
  have hall := h.parted.mem_iff.mp (List.mem_append_left _ (List.mem_append_left _ hn))
  exact List.mem_range.mp hall

/-- A graph that was taken does not wait, and was not discarded. -/
lemma nodup (h : r.Kept s) : (r.taken ++ r.discarded ++ r.waiting.toList).Nodup :=
  h.parted.nodup_iff.mpr List.nodup_range

/-- **A graph waits exactly if the one that was set last was not taken.** -/
lemma isPending_iff (h : r.Kept s) :
    s.worker.slot.isPending = true ↔ 0 < r.set.length ∧ r.set.length - 1 ∉ r.taken := by
  have hnodup := h.nodup
  constructor
  · intro hpending
    obtain ⟨g, hg⟩ := Option.isSome_iff_exists.mp hpending
    rw [h.pending] at hg
    obtain ⟨n, hn, -⟩ := Option.bind_eq_some_iff.mp hg
    have hnewest := h.newest n hn
    obtain rfl : n = r.set.length - 1 := by omega
    rw [hn, Option.toList_some] at hnodup
    refine ⟨by omega, fun htaken => ?_⟩
    exact (List.nodup_append.mp hnodup).2.2 _ (List.mem_append_left _ htaken) _
      (List.mem_singleton_self _) rfl
  · rintro ⟨hpos, htaken⟩
    have hall := h.parted.mem_iff.mpr (List.mem_range.mpr (Nat.sub_one_lt_of_lt hpos))
    rcases List.mem_append.mp hall with hall | hwaiting
    · rcases List.mem_append.mp hall with hall | hdiscarded
      · exact absurd hall htaken
      · have hlt := h.older _ hdiscarded
        omega
    · unfold Slot.isPending
      rw [h.pending, Option.mem_toList.mp hwaiting, Option.bind_some,
        List.getElem?_eq_getElem (Nat.sub_one_lt_of_lt hpos)]
      rfl

/-- The graphs started are some of those that were set, in the order in which they were set. -/
lemma launched_sublist (h : r.Kept s) : r.launched.Sublist r.set := by
  have hset : (List.range r.set.length).filterMap (fun n => r.set[n]?) = r.set := filterMap_range _
  have hlaunched : r.started.filterMap (fun n => r.set[n]?) = r.launched := by
    have hmap := congrArg (List.filterMap id) h.launched
    rw [List.filterMap_map, List.filterMap_map] at hmap
    exact hmap.symm.trans List.filterMap_some
  have hrange : r.started.Sublist (List.range r.set.length) := by
    have hrising := h.rising.sublist h.started
    refine List.sublist_of_subperm_of_pairwise (r := (· < ·)) ?_ hrising List.pairwise_lt_range
    refine List.Nodup.subperm (hrising.imp Nat.ne_of_lt) fun n hn => ?_
    exact List.mem_range.mpr (h.lt_of_taken (h.started.subset hn))
  have hread := hrange.filterMap fun n => r.set[n]?
  rw [hlaunched, hset] at hread
  exact hread

/-- A graph is set. -/
lemma noteSet (h : r.Kept s) {g : γ} (hpending : t.worker.slot.pending = some g)
    (hstage : t.worker.stage = s.worker.stage) : (r.noteSet g).Kept t where
  pending := by simp [hpending, Register.noteSet]
  newest := by
    intro n hn
    cases hn
    simp [Register.noteSet]
  older := by
    intro n hn
    have hlength : (r.noteSet g).set.length = r.set.length + 1 := by simp [Register.noteSet]
    rcases List.mem_append.mp hn with hn | hn
    · have hlt := h.older n hn
      omega
    · have hlt := h.newest n (Option.mem_toList.mp hn)
      omega
  parted := by
    simp only [Register.noteSet, List.length_append, List.length_singleton, List.range_succ,
      Option.toList_some]
    rw [← List.append_assoc]
    exact h.parted.append_right _
  rising := h.rising
  started := h.started
  hand := by
    intro g' hg'
    rw [hstage] at hg'
    obtain ⟨before, n, htaken, hn, hbefore⟩ := h.hand g' hg'
    obtain ⟨hlt, -⟩ := List.getElem?_eq_some_iff.mp hn
    refine ⟨before, n, htaken, ?_, hbefore⟩
    rw [Register.noteSet, List.getElem?_append_left hlt]
    exact hn
  launched := by
    refine h.launched.trans (List.map_congr_left fun n hn => ?_)
    rw [Register.noteSet, List.getElem?_append_left (h.lt_of_taken (h.started.subset hn))]

/-- The number of the graph that waits. -/
lemma exists_waiting (h : r.Kept s) {g : γ} (hpending : s.worker.slot.pending = some g) :
    ∃ n, r.waiting = some n ∧ r.set[n]? = some g := by
  rw [h.pending] at hpending
  exact Option.bind_eq_some_iff.mp hpending

/-- The graph that waits is taken. -/
lemma noteTaken (h : r.Kept s) {g : γ} (hpending : s.worker.slot.pending = some g)
    (hslot : t.worker.slot.pending = none) (hhand : t.worker.stage.inHand? = some g) :
    r.noteTaken.Kept t := by
  obtain ⟨n, hn, hg⟩ := h.exists_waiting hpending
  have htaken : r.noteTaken.taken = r.taken ++ [n] := by rw [Register.noteTaken, hn, Option.toList_some]
  have hnodup := h.nodup
  rw [hn, Option.toList_some] at hnodup
  exact
    { pending := hslot
      newest := by
        intro m hm
        cases hm
      older := h.older
      parted := by
        have hparted := h.parted
        rw [hn, Option.toList_some] at hparted
        rw [htaken]
        simp only [Register.noteTaken, Option.toList_none, List.append_nil]
        refine .trans ?_ hparted
        rw [List.append_assoc, List.append_assoc]
        exact List.perm_append_comm.append_left _
      rising := by
        rw [htaken, List.pairwise_append]
        refine ⟨h.rising, List.pairwise_singleton _ _, ?_⟩
        intro m hm n' hn'
        obtain rfl := List.mem_singleton.mp hn'
        have hne : m ≠ n' := by
          rintro rfl
          exact (List.nodup_append.mp hnodup).2.2 m (List.mem_append_left _ hm) m
            (List.mem_singleton_self m) rfl
        have hlt := h.lt_of_taken hm
        have hnewest := h.newest _ hn
        omega
      started := by
        rw [htaken]
        exact h.started.trans (List.sublist_append_left _ _)
      hand := by
        intro g' hg'
        cases hhand.symm.trans hg'
        exact ⟨r.taken, n, htaken, hg, h.started⟩
      launched := h.launched }

/-- The graph in hand is started. -/
lemma noteStarted (h : r.Kept s) {g : γ} (hhand : s.worker.stage.inHand? = some g)
    (hslot : t.worker.slot.pending = s.worker.slot.pending)
    (hempty : t.worker.stage.inHand? = none) : (r.noteStarted g).Kept t := by
  obtain ⟨before, n, htaken, hn, hbefore⟩ := h.hand g hhand
  have hstarted : (r.noteStarted g).started = r.started ++ [n] := by
    rw [Register.noteStarted, htaken, List.getLast?_concat, Option.toList_some]
  exact
    { pending := hslot.trans h.pending
      newest := h.newest
      older := h.older
      parted := h.parted
      rising := h.rising
      started := by
        rw [hstarted, Register.noteStarted, htaken]
        exact hbefore.append_right [n]
      hand := by
        intro g' hg'
        cases hempty.symm.trans hg'
      launched := by
        rw [hstarted, List.map_append, List.map_singleton]
        simp only [Register.noteStarted, List.map_append, List.map_singleton, hn, h.launched] }

/-- A graph in hand may be given up. -/
lemma keep (h : r.Kept s) (hslot : t.worker.slot.pending = s.worker.slot.pending)
    (hhand : ∀ g, t.worker.stage.inHand? = some g → s.worker.stage.inHand? = some g) : r.Kept t :=
  { h with
    pending := hslot.trans h.pending
    hand := fun g hg => h.hand g (hhand g hg) }

end Kept

section Note

variable {r : Register γ} {s t : Station γ}

/-- Nothing is noted where the slot stays as it is and no graph comes to be held. -/
lemma note_of_keep (slot : t.worker.slot.pending = s.worker.slot.pending)
    (scheduler : s.worker.scheduler = none → t.worker.scheduler = none) : r.note s t = r := by
  unfold note Slot.isPending
  simp only [slot, Bool.and_not_self, Bool.false_eq_true, if_false]
  cases hx : s.worker.scheduler with
  | none => rw [scheduler hx]
  | some x => rfl

/-- An emptied slot is noted. -/
lemma note_of_take {g : γ} (pending : s.worker.slot.pending = some g)
    (slot : t.worker.slot.pending = none) (scheduler : t.worker.scheduler = s.worker.scheduler) :
    r.note s t = r.noteTaken := by
  unfold note Slot.isPending
  rw [pending, slot, scheduler]
  cases s.worker.scheduler <;> rfl

/-- A graph that comes to be held is noted. -/
lemma note_of_start {x : Scheduler γ} (slot : t.worker.slot.pending = s.worker.slot.pending)
    (free : s.worker.scheduler = none) (scheduler : t.worker.scheduler = some x) :
    r.note s t = r.noteStarted x.graph := by
  unfold note Slot.isPending
  simp only [slot, Bool.and_not_self, Bool.false_eq_true, if_false, free, scheduler]

/-- **What is taken is the graph that was set last**, at a point where a tick may take one. -/
lemma Kept.taken_note (h : r.Kept s) (htransfer : s.Transfer t)
    (hfree : ∀ g, s.worker.stage = .starting g → s.worker.scheduler = none) :
    (r.note s t).taken = r.taken ∨ s.worker.stage.mayTake = true ∧
      ∃ n g, n + 1 = r.set.length ∧ (r.note s t).taken = r.taken ++ [n] ∧ r.set[n]? = some g ∧
        s.worker.slot.pending = some g ∧ t.worker.stage.inHand? = some g := by
  cases htransfer with
  | keep slot hand scheduler => exact .inl (by rw [note_of_keep slot scheduler])
  | take g stage pending slot hand scheduler =>
    obtain ⟨n, hn, hg⟩ := h.exists_waiting pending
    refine .inr ⟨stage, n, g, h.newest n hn, ?_, hg, pending, hand⟩
    rw [note_of_take pending slot scheduler, Register.noteTaken, hn, Option.toList_some]
  | start x stage slot scheduler empty =>
    exact .inl (by rw [note_of_start slot (hfree _ stage) scheduler, Register.noteStarted])

/-- **A step keeps the register right**, if no graph is held when another is started. -/
theorem Kept.note (h : r.Kept s) (htransfer : s.Transfer t)
    (hfree : ∀ g, s.worker.stage = .starting g → s.worker.scheduler = none) :
    (r.note s t).Kept t := by
  cases htransfer with
  | keep slot hand scheduler =>
    rw [note_of_keep slot scheduler]
    exact h.keep slot hand
  | take g stage pending slot hand scheduler =>
    rw [note_of_take pending slot scheduler]
    exact h.noteTaken pending slot hand
  | start x stage slot scheduler empty =>
    rw [note_of_start slot (hfree _ stage) scheduler]
    exact h.noteStarted (by rw [stage]; rfl) slot empty

end Note

/-- Enter a move into the register. -/
def enter (r : Register γ) (s t : Station γ) : Scene.Move γ → Register γ
  | .setGraph g => r.noteSet g
  | _ => r.note s t

/-- What is seen of a step says nothing of graphs that are set. -/
lemma note_apart (r : Register γ) (s t : Station γ) :
    (r.note s t).set = r.set ∧ (r.note s t).discarded = r.discarded := by
  unfold note
  dsimp only
  split <;> split <;> exact ⟨rfl, rfl⟩

/-- What is seen of a step says whether a graph came to be held. -/
lemma length_note (r : Register γ) (s t : Station γ) :
    (r.note s t).launched.length = r.launched.length +
      if s.worker.scheduler.isSome = false ∧ t.worker.scheduler.isSome = true then 1 else 0 := by
  have htaken : (if s.worker.slot.isPending && !t.worker.slot.isPending then r.noteTaken
      else r).launched = r.launched := by
    split <;> rfl
  unfold note
  dsimp only
  generalize (if s.worker.slot.isPending && !t.worker.slot.isPending then r.noteTaken else r) = r'
    at htaken ⊢
  cases s.worker.scheduler with
  | none =>
    cases t.worker.scheduler with
    | none => simp [htaken]
    | some x => simp [noteStarted, htaken]
  | some x => simp [htaken]

/-- A move that sets no graph is entered as what is seen of it. -/
lemma enter_of_graph? {r : Register γ} {s t : Station γ} {m : Scene.Move γ}
    (hm : m.graph? = none) : r.enter s t m = r.note s t := by
  cases m with
  | setGraph g => cases hm
  | _ => rfl

end Register

namespace Scene

variable [FlowGraph γ]

/-- The register after several moves. -/
def register (s : Scene γ) (r : Register γ) : List (Move γ) → Register γ
  | [] => r
  | m :: moves => (s.perform m).register (r.enter s.station (s.perform m).station m) moves

variable {s : Scene γ} {r : Register γ}

/-- One more move. -/
lemma register_concat (moves : List (Move γ)) (m : Move γ) :
    s.register r (moves ++ [m]) =
      (s.register r moves).enter (s.run moves).station ((s.run moves).perform m).station m := by
  induction moves generalizing s r with
  | nil => rfl
  | cons n moves ih => exact ih

omit [FlowGraph γ] in
/-- Before a graph is started, none is held. -/
lemma free_of_starting (hsane : s.control.Sane) {g : γ} (hstage : s.stage = .starting g) :
    s.station.worker.scheduler = none := by
  unfold Control.Sane at hsane
  rw [show s.control.stage = .starting g from hstage] at hsane
  exact Option.not_isSome_iff_eq_none.mp (Bool.not_eq_true _ ▸ hsane.2)

/-- **Every move keeps the register right.** -/
theorem kept_perform (hpaced : s.Paced) (hsane : s.control.Sane) (h : r.Kept s.station)
    (m : Move γ) : (r.enter s.station (s.perform m).station m).Kept (s.perform m).station := by
  rcases transfer_perform hpaced m with ⟨g, rfl⟩ | ⟨hnone, htransfer⟩
  · exact h.noteSet rfl rfl
  · rw [Register.enter_of_graph? hnone]
    exact h.note htransfer fun g hg => free_of_starting hsane hg

/-- The register of a worker goes with the scene. -/
theorem kept_run (config : WorkerConfig) (moves : List (Move γ)) :
    ((start config).register {} moves).Kept ((start config).run moves).station := by
  induction moves using List.reverseRecOn with
  | nil =>
    exact
      { pending := rfl
        newest := fun n hn => by cases hn
        older := fun n hn => by cases hn
        parted := .refl _
        rising := .nil
        started := List.Sublist.refl _
        hand := fun g hg => by cases hg
        launched := rfl }
  | append_singleton moves m ih =>
    rw [register_concat, run_append]
    exact kept_perform (paced_run paced_start moves) (sane_run paced_start sane_start moves) ih m

end Scene

/-! ### After a stop was read -/

namespace Control.Shift

variable {c c' : Control γ}

/-- A graph may be taken in a tick that has just begun, or in one in which it could be taken before. -/
lemma mayTake (h : Shift c c') (hc : c'.stage.mayTake = true) :
    c.stage.mayTake = true ∨ c'.stage = .begun false := by
  cases h with
  | stay c => exact .inl hc
  | begin last stop st g n =>
    cases stop with
    | true => cases hc
    | false => exact .inr rfl
  | pass stop g n => exact .inl hc
  | _ => cases hc

/-- A tick begins between ticks. -/
lemma begun (h : Shift c c') {stop : Bool} (hc : c'.stage = .begun stop) :
    c.stage = .begun stop ∨ ∃ last, c.stage = .resting last := by
  cases h with
  | stay c => exact .inl hc
  | begin last stop st g n => exact .inr ⟨last, rfl⟩
  | _ => cases hc

end Control.Shift

namespace Scene

variable [FlowGraph γ] {s : Scene γ}

/-- A tick that begins reads the stop flag. -/
lemma begun_perform (h : s.Paced) {m : Move γ} {stop : Bool}
    (hstage : (s.perform m).stage = .begun stop) :
    s.stage = .begun stop ∨ stop = s.station.worker.stopRequested := by
  have hforeign : m.isForeign = true → s.stage = .begun stop := fun hm =>
    (stage_eq_of_control (s.apart_perform hm).control).symm.trans hstage
  cases m with
  | advance =>
    rcases (shift_perform h .advance).begun hstage with hbefore | ⟨last, hresting⟩
    · exact .inl hbefore
    · -- Between ticks the lifecycle thread only makes known what is still to be.
      have hresting' : s.station.worker.stage = .resting last := hresting
      have hdue : s.station.pass? = none := by simp [Station.pass?, hresting']
      rw [perform_advance_of_pass? h hdue] at hstage
      have hsame : s.station.step.worker.stage = s.station.worker.stage := by
        by_cases hout : s.station.worker.outbox = []
        · simp only [Station.step, hout, hresting']
        · exact Station.stage_step_of_outbox hout
      cases hresting'.symm.trans (hsame.symm.trans hstage)
  | tick =>
    simp only [perform, withStation, tick] at hstage
    split at hstage
    · cases hstage
      exact .inr rfl
    · exact .inl hstage
  | resume =>
    simp only [perform, withStation] at hstage
    split at hstage
    · unfold Station.resume at hstage
      split at hstage
      · split at hstage
        · cases hstage
        · cases hstage
          exact .inr rfl
      · cases hstage
      · exact .inl hstage
    · exact .inl hstage
  | _ => exact .inl (hforeign rfl)

/-- A stop that was requested stays requested. -/
lemma stopRequested_perform (m : Move γ) (h : s.station.worker.stopRequested = true) :
    (s.perform m).station.worker.stopRequested = true := by
  cases m with
  | advance =>
    simp only [perform, advance]
    split
    · rename_i w _
      obtain ⟨_, _, hworker⟩ := s.worker_walkOn w
      rw [hworker]
      exact h
    · split
      · exact h
      · by_cases hout : s.station.worker.outbox = []
        · exact (Station.frame_step hout).stopRequested.trans h
        · obtain ⟨p, rest, hout⟩ := List.exists_cons_of_ne_nil hout
          simp only [Station.step, hout]
          cases p <;> exact h
  | tick =>
    simp only [perform, withStation, tick]
    split <;> exact h
  | resume =>
    simp only [perform, withStation]
    split
    · exact s.station.frame_resume.stopRequested.trans h
    · exact h
  | execute =>
    simp only [perform, withStation, Station.execute]
    split <;> exact h
  | requestStop => rfl
  | _ => exact h

/-- A stop was requested, and the tick under way, if any, knows of it. -/
def Heeds (s : Scene γ) : Prop :=
  s.station.worker.stopRequested = true ∧ s.stage.mayTake = false

/-- **A stop that was read is heeded ever after.** -/
lemma Heeds.perform (h : s.Heeds) (hpaced : s.Paced) (m : Move γ) : (s.perform m).Heeds := by
  obtain ⟨hstop, htake⟩ := h
  refine ⟨stopRequested_perform m hstop, ?_⟩
  by_contra hne
  have hmay : (s.perform m).stage.mayTake = true := by simpa using hne
  rcases (shift_perform hpaced m).mayTake hmay with hbefore | hbegun
  · cases htake.symm.trans hbefore
  · rcases begun_perform hpaced hbegun with hbefore | hread
    · rw [hbefore] at htake
      cases htake
    · cases hread.trans hstop

/-- A stop that a tick has read was requested. -/
lemma stopRequested_of_begun {config : WorkerConfig} {moves : List (Move γ)}
    (hstage : ((start config).run moves).stage = .begun true) :
    ((start config).run moves).station.worker.stopRequested = true := by
  induction moves using List.reverseRecOn with
  | nil => cases hstage
  | append_singleton moves m ih =>
    rw [run_append] at hstage ⊢
    apply stopRequested_perform
    rcases begun_perform (paced_run paced_start moves) hstage with hbefore | hread
    · exact ih hbefore
    · exact hread.symm

/-- A tick that has read that a stop was requested heeds it. -/
lemma heeds_of_begun {config : WorkerConfig} {moves : List (Move γ)}
    (hstage : ((start config).run moves).stage = .begun true) :
    ((start config).run moves).Heeds := by
  refine ⟨stopRequested_of_begun hstage, ?_⟩
  rw [hstage]
  rfl

section Final

/-- What a move takes: the graph that was set last, or none. -/
lemma taken_concat (config : WorkerConfig) (moves : List (Move γ)) (m : Move γ) :
    let s := (start config).run moves
    let r := (start config).register {} moves
    ((start config).register {} (moves ++ [m])).taken = r.taken ∨ s.stage.mayTake = true ∧
      ∃ n g, n + 1 = r.set.length ∧
        ((start config).register {} (moves ++ [m])).taken = r.taken ++ [n] ∧ r.set[n]? = some g ∧
        s.station.worker.slot.pending = some g ∧ (s.perform m).stage.inHand? = some g := by
  intro s r
  have hpaced : s.Paced := paced_run paced_start moves
  have hsane : s.control.Sane := sane_run paced_start sane_start moves
  have hkept : r.Kept s.station := kept_run config moves
  rw [register_concat]
  rcases transfer_perform hpaced m with ⟨g, rfl⟩ | ⟨hnone, htransfer⟩
  · exact .inl rfl
  · rw [Register.enter_of_graph? hnone]
    exact hkept.taken_note htransfer fun g hg => free_of_starting hsane hg

variable {config : WorkerConfig} {moves : List (Move γ)}

/-- **Once a tick has read that a stop was requested, nothing is taken any more.** -/
lemma taken_of_heeds (h : ((start config).run moves).Heeds) (more : List (Move γ)) :
    ((start config).register {} (moves ++ more)).taken =
      ((start config).register {} moves).taken := by
  have hall : ((start config).run (moves ++ more)).Heeds ∧
      ((start config).register {} (moves ++ more)).taken =
        ((start config).register {} moves).taken := by
    induction more using List.reverseRecOn with
    | nil =>
      rw [List.append_nil]
      exact ⟨h, rfl⟩
    | append_singleton more m ih =>
      obtain ⟨hheeds, hsame⟩ := ih
      rw [← List.append_assoc, run_append]
      refine ⟨hheeds.perform (paced_run paced_start _) m, ?_⟩
      rcases taken_concat config (moves ++ more) m with hkept | ⟨hmay, -⟩
      · exact hkept.trans hsame
      · cases hheeds.2.symm.trans hmay
  exact hall.2

/-- The register lists the graphs that were set. -/
lemma set_register : ((start config).register {} moves).set = moves.filterMap Move.graph? := by
  induction moves using List.reverseRecOn with
  | nil => rfl
  | append_singleton moves m ih =>
    rw [register_concat, List.filterMap_append, ← ih]
    cases hm : m.graph? with
    | none => simp [Register.enter_of_graph? hm, Register.note_apart, hm]
    | some g =>
      obtain rfl : m = .setGraph g := by
        cases m with
        | setGraph g' => exact congrArg _ (Option.some.inj hm)
        | _ => cases hm
      rfl

/-- No graph is started without being noted. -/
lemma generation_register :
    ((start config).run moves).control.generation =
      ((start config).register {} moves).launched.length := by
  induction moves using List.reverseRecOn with
  | nil => rfl
  | append_singleton moves m ih =>
    have hpaced : ((start config : Scene γ).run moves).Paced := paced_run paced_start moves
    have hsane : ((start config : Scene γ).run moves).control.Sane :=
      sane_run paced_start sane_start moves
    rw [register_concat, run_append, (shift_perform hpaced m).generation hsane, ih]
    cases hm : m.graph? with
    | none =>
      rw [Register.enter_of_graph? hm, Register.length_note]
      rfl
    | some g =>
      cases m with
      | setGraph g' =>
        rw [(apart_perform _ (m := .setGraph g') rfl).control]
        simp [Register.enter, Register.noteSet]
      | _ => cases hm

/-- A graph that was discarded stays so. -/
lemma discarded_register {n : Nat} (hn : n ∈ ((start config).register {} moves).discarded)
    (more : List (Move γ)) : n ∈ ((start config).register {} (moves ++ more)).discarded := by
  induction more using List.reverseRecOn with
  | nil => rwa [List.append_nil]
  | append_singleton more m ih =>
    rw [← List.append_assoc, register_concat]
    cases hm : m.graph? with
    | none =>
      rw [Register.enter_of_graph? hm, (Register.note_apart _ _ _).2]
      exact ih
    | some g =>
      cases m with
      | setGraph g' => exact List.mem_append_left _ ih
      | _ => cases hm

/-- **A graph whose place another one takes is never started.** -/
lemma not_started_of_replaced {g : γ}
    (hpending : ((start config).run moves).station.worker.slot.isPending = true)
    (more : List (Move γ)) :
    ((start config).register {} moves).set.length - 1 ∉
      ((start config).register {} (moves ++ .setGraph g :: more)).started := by
  have hkept := kept_run config moves
  obtain ⟨g', hg'⟩ := Option.isSome_iff_exists.mp hpending
  obtain ⟨n, hn, -⟩ := hkept.exists_waiting hg'
  have hnewest := hkept.newest n hn
  have hdiscarded : n ∈ ((start config).register {} (moves ++ [.setGraph g])).discarded := by
    rw [register_concat]
    exact List.mem_append_right _ (Option.mem_toList.mpr hn)
  have hlast := discarded_register hdiscarded more
  have hlater := kept_run config (moves ++ [.setGraph g] ++ more)
  have hnodup := (List.nodup_append.mp hlater.nodup).1
  rw [show moves ++ .setGraph g :: more = moves ++ [.setGraph g] ++ more by simp,
    show ((start config).register {} moves).set.length - 1 = n by omega]
  intro hstarted
  exact (List.nodup_append.mp hnodup).2.2 n (hlater.started.subset hstarted) n hlast rfl

end Final

/-- **What becomes of the graphs that clients set**, whatever anyone does and in whatever order:
* every graph that was set waits, was discarded, or was taken, and only one of these, and the one
  that waits is in the slot;
* the graphs started, as many as the generation says, are some of those that were set, in the order in
  which they were set; they were taken before, and no one is started twice;
* a step takes nothing, or the graph that was set last, and has it in hand;
* a client is told that its graph takes the place of another one exactly if the one that was set last
  was not taken, and then that one is never started;
* once a tick has read that a stop was requested, nothing is taken any more.

**Proof sketch.** Every move sets a graph, takes the one that waits, starts the one in hand, or does
none of these, and each keeps the register right. -/
theorem handoff_exact (config : WorkerConfig) (moves : List (Move γ)) :
    let s := (start config).run moves
    let r := (start config).register {} moves
    r.set = moves.filterMap Move.graph? ∧
    (r.taken ++ r.discarded ++ r.waiting.toList).Perm (List.range r.set.length) ∧
    s.station.worker.slot.pending = r.waiting.bind (fun n => r.set[n]?) ∧
    s.station.worker.generation = r.launched.length ∧
    r.launched.map some = r.started.map (fun n => r.set[n]?) ∧ r.launched.Sublist r.set ∧
    r.started.Nodup ∧ r.started.Sublist r.taken ∧ r.taken.Pairwise (· < ·) ∧
    (∀ m, ((start config).register {} (moves ++ [m])).taken = r.taken ∨
      s.stage.mayTake = true ∧ ∃ n g, n + 1 = r.set.length ∧
        ((start config).register {} (moves ++ [m])).taken = r.taken ++ [n] ∧ r.set[n]? = some g ∧
        s.station.worker.slot.pending = some g ∧ (s.perform m).stage.inHand? = some g) ∧
    (∀ g, ((s.station.setGraph g).1 = true ↔ 0 < r.set.length ∧ r.set.length - 1 ∉ r.taken) ∧
      ((s.station.setGraph g).1 = true → ∀ more, r.set.length - 1 ∉
        ((start config).register {} (moves ++ .setGraph g :: more)).started)) ∧
    ∀ i, (past config moves i).stage = .begun true →
      r.taken = ((start config).register {} (moves.take i)).taken := by
  intro s r
  have hkept : r.Kept s.station := kept_run config moves
  refine ⟨set_register, hkept.parted, hkept.pending, generation_register, hkept.launched,
    hkept.launched_sublist, ?_, hkept.started, hkept.rising, taken_concat config moves, ?_, ?_⟩
  · exact (hkept.rising.sublist hkept.started).imp Nat.ne_of_lt
  · intro g
    exact ⟨hkept.isPending_iff, not_started_of_replaced⟩
  · intro i hbegun
    have hsame := taken_of_heeds (heeds_of_begun hbegun) (moves.drop i)
    rw [List.take_append_drop] at hsame
    exact hsame

end Scene

end Daq
