import Daq.Proofs.Worker.Lifecycle

set_option autoImplicit false

/-!
# What a move does to tables and sinks

A move does one of four things. It leaves the tables as they are while the producers act; it begins
a pass; it takes a pass one step on; or it lets go of all pollers, when the drain of a graph is
over. The lifecycle thread has two more occasions to let go of all pollers, when a tick fails and
when a graph fails to start, but then the tables are empty already.

## Main definitions

* `Daq.Scene.Orderly` — passes, states and tables go with the stage.
* `Daq.Scene.Deed` — what a move does.

## Main results

* `Daq.Scene.Orderly.deed` — every move does one of the four things.
* `Daq.Scene.Orderly.run` — every run keeps a scene orderly.
-/

namespace Daq

variable {γ : Type}

namespace Worker

/-- Making something known does not move the lifecycle thread. -/
@[simp]
lemma stage_publish (w : Worker γ) (p : Publication) : (w.publish p).stage = w.stage := by
  cases p <;> rfl

/-- Making something known does not touch the tables. -/
@[simp]
lemma reconciler_publish (w : Worker γ) (p : Publication) :
    (w.publish p).reconciler = w.reconciler := by
  cases p <;> rfl

/-- A transition does not touch the tables. -/
@[simp]
lemma reconciler_transition (w : Worker γ) (target : WorkerState) :
    (w.transition target).reconciler = w.reconciler := by
  rw [transition_eq]

end Worker

namespace Reconciler

/-- Letting go of no poller does nothing. -/
lemma clear_of_isEmpty {r : Reconciler} (hr : r.isEmpty = true) (h : Hub) : r.clear h = (r, h) := by
  simp only [isEmpty, Table.isEmpty, Bool.and_eq_true, List.isEmpty_iff] at hr
  have hstreams : r.streams = .empty := Table.ext_entries hr.1
  have hcaptures : r.captures = .empty := Table.ext_entries hr.2
  have hpollers : r.pollers = [] := by
    rw [pollers, hstreams, hcaptures]
    rfl
  rw [clear, hpollers, List.foldl_nil, ← hstreams, ← hcaptures]

/-- A poller that is held is in the tables. -/
lemma isEmpty_of_held? {r : Reconciler} {k : PollerKey} {e : Entry} (he : r.held? k = some e) :
    r.isEmpty = false := by
  by_contra hne
  have hempty : r.isEmpty = true := by simpa using hne
  have hclear : (r.clear {}).1 = r := by rw [clear_of_isEmpty hempty]
  rw [← hclear, held?_clear] at he
  cases he

end Reconciler

/-- Whether the flush passes have ended and the execution thread is still to be joined. -/
def Stage.isLate : Stage γ → Bool
  | .drained _ _ => true
  | .joining _ => true
  | _ => false

namespace Station

/-- What a step of the lifecycle thread outside of passes does to tables and sinks. -/
inductive Aside (s t : Station γ) : Prop where
  /-- The tables are left as they are. -/
  | same (hub : s.hub.Evolves t.hub) (reconciler : t.worker.reconciler = s.worker.reconciler)
      (joining : ∀ aim, t.worker.stage = .joining aim → s.worker.stage = .joining aim)
      (drained : ∀ aim n, t.worker.stage = .drained aim n → s.worker.stage = .drained aim n)
  /-- All pollers are let go, when the drain is over. -/
  | cleared (aim : Aim γ) (passes : Nat) (stage : s.worker.stage = .drained aim passes)
      (stage' : t.worker.stage = .joining aim)
      (clear : s.worker.reconciler.clear s.hub = (t.worker.reconciler, t.hub))
  /-- All pollers are let go, when something failed. -/
  | failed (stage : (∃ x, s.worker.stage = .starting x) ∨ ∃ e, s.worker.stage = .resting (.error e))
      (hub : Hub) (evolves : s.hub.Evolves hub)
      (clear : s.worker.reconciler.clear hub = (t.worker.reconciler, t.hub))
      (late : t.worker.stage.isLate = false)

/-- What is left alone between the last flush pass and the end of the thread. -/
lemma Aside.other {s t : Station γ} (hub : s.hub.Evolves t.hub)
    (reconciler : t.worker.reconciler = s.worker.reconciler) (late : t.worker.stage.isLate = false) :
    s.Aside t := by
  refine .same hub reconciler ?_ ?_
  · intro aim h
    rw [h] at late
    cases late
  · intro aim n h
    rw [h] at late
    cases late

section Step

variable {s : Station γ}

/-- What the loop over ticks does between ticks. -/
lemma aside_resume : s.Aside s.resume := by
  unfold resume
  split
  · split
    · exact .other (.refl _) rfl rfl
    · exact .other (.refl _) rfl rfl
  · rename_i e hstage
    refine .failed (.inr ⟨e, hstage⟩) s.hub (.refl _) ?_ rfl
    refine Prod.ext ?_ rfl
    exact (Worker.reconciler_transition s.clear.worker .shuttingDown).symm
  · exact .same (.refl _) rfl (fun _ h => h) fun _ _ h => h

variable [FlowGraph γ] [LawfulGraph γ]

/-- The start of a graph, however it ends. -/
lemma aside_starting {x : γ} (h : s.worker.stage = .starting x) : s.Aside (s.stepStarting x) := by
  have hev := Scheduler.evolves_launch s.refusal x s.hub
  unfold stepStarting
  split
  · rename_i hlaunch
    rw [hlaunch] at hev
    exact .other hev (Worker.reconciler_transition _ _) rfl
  · rename_i hlaunch
    rw [hlaunch] at hev
    exact .other hev rfl rfl
  · rename_i hub hlaunch
    rw [hlaunch] at hev
    exact .failed (.inl ⟨x, h⟩) hub hev rfl rfl

/-- Waiting for the execution thread. -/
lemma aside_joining {aim : Aim γ} : s.Aside (s.stepJoining aim) := by
  unfold stepJoining
  split
  · exact .same (.refl _) rfl (fun _ h => h) fun _ _ h => h
  · exact .other (.refl _) rfl rfl
  · unfold giveUp
    split
    · exact .other (Hub.evolves_discard _ s.hub) rfl rfl
    · exact .other (.refl _) rfl rfl

/-- **What the next step of the lifecycle thread does** where no pass is due. -/
lemma aside_step (hdue : s.pass? = none) : s.Aside s.step := by
  unfold step
  split
  · refine .same (.refl _) (Worker.reconciler_publish _ _) ?_ ?_
    · intro aim h
      simpa only [withWorker, Worker.stage_publish] using h
    · intro aim n h
      simpa only [withWorker, Worker.stage_publish] using h
  · rename_i hout
    split
    · exact .same (.refl _) rfl (fun _ h => h) fun _ _ h => h
    · rename_i stop hstage
      unfold stepBegun
      split
      · split
        · exact .other (.refl _) (Worker.reconciler_transition _ _) rfl
        · simp only [Slot.take]
          cases s.worker.slot.pending with
          | none => exact .other (.refl _) rfl rfl
          | some x => exact .other (.refl _) rfl rfl
      · rename_i hstate
        simp [pass?, hout, hstage, hstate] at hdue
      · exact .other (.refl _) rfl rfl
    · unfold stepPassed
      split
      · exact .other (.refl _) rfl rfl
      · exact .other (.refl _) rfl rfl
    · simp only [stepChosen, withWorker]
      split
      · exact .other (.refl _) rfl rfl
      · split
        · exact .other (.refl _) rfl rfl
        · exact .other (.refl _) (Worker.reconciler_transition _ _) rfl
      · exact .other (.refl _) (Worker.reconciler_transition _ _) rfl
    · exact .other (.refl _) rfl rfl
    · rename_i aim passes hstage
      simp [pass?, hout, hstage] at hdue
    · rename_i aim passes hstage
      exact .cleared aim passes hstage rfl rfl
    · exact aside_joining
    · rename_i aim _
      cases aim with
      | keep => exact .other (.refl _) (Worker.reconciler_transition _ _) rfl
      | replace x => exact .other (.refl _) (Worker.reconciler_transition _ _) rfl
      | shutDown => exact .other (.refl _) (Worker.reconciler_transition _ _) rfl
    · exact aside_starting ‹_›
    · exact .other (.refl _) rfl rfl
    · exact .same (.refl _) rfl (fun _ h => h) fun _ _ h => h
    · exact .same (.refl _) rfl (fun _ h => h) fun _ _ h => h

end Step

end Station

namespace Scene

/-- Passes, states and tables go with the stage. -/
structure Orderly (s : Scene γ) : Prop where
  /-- A pass is under way only where one is due. -/
  paced : s.Paced
  /-- State and graph suit the stage. -/
  sane : s.control.Sane
  /-- The tables are empty unless a graph is held, and before its thread is joined. -/
  tables : s.reconciler.isEmpty = false → s.control.holds = true ∧ ∀ aim, s.stage ≠ .joining aim

/-- What a move does to tables and sinks. -/
inductive Deed (s : Scene γ) : Move γ → Scene γ → Prop where
  /-- The tables and the pass are left as they are. -/
  | aside {m : Move γ} {s' : Scene γ} (still : m = .advance → s.walk = none)
      (walk : s'.walk = s.walk) (hub : s.hub.Evolves s'.hub) (reconciler : s'.reconciler = s.reconciler)
      (joining : ∀ aim, s'.stage = .joining aim → s.stage = .joining aim)
      (drained : ∀ aim n, s'.stage = .drained aim n → s.stage = .drained aim n) : Deed s m s'
  /-- A pass begins. -/
  | begin (flush : Bool) (still : s.walk = none) (due : s.station.pass? = some flush) :
      Deed s .advance (s.beginWalk flush)
  /-- A pass goes on. -/
  | onward (w : Walk) (walk : s.walk = some w) : Deed s .advance (s.walkOn w)
  /-- All pollers are let go. -/
  | clear {s' : Scene γ} (aim : Aim γ) (passes : Nat) (still : s.walk = none) (still' : s'.walk = none)
      (stage : s.stage = .drained aim passes) (stage' : s'.stage = .joining aim)
      (clear : s.reconciler.clear s.hub = (s'.reconciler, s'.hub)) : Deed s .advance s'

/-- What is left alone between the last flush pass and the end of the thread. -/
lemma Deed.other {s s' : Scene γ} {m : Move γ} (still : m = .advance → s.walk = none)
    (walk : s'.walk = s.walk) (hub : s.hub.Evolves s'.hub)
    (reconciler : s'.reconciler = s.reconciler) (late : s'.stage.isLate = false) : s.Deed m s' := by
  refine .aside still walk hub reconciler ?_ ?_
  · intro aim h
    rw [h] at late
    cases late
  · intro aim n h
    rw [h] at late
    cases late

section Orderly

variable {s : Scene γ}

/-- The scene before the first tick is orderly. -/
lemma orderly_start (config : WorkerConfig) : (start config : Scene γ).Orderly where
  paced := by
    intro w hw
    cases hw
  sane := by
    constructor
    · intro h
      cases h
    · intro h
      cases h
  tables := by
    intro h
    cases h

/-- A graph is held where a pass is due, and its thread is not yet to be joined. -/
lemma Orderly.holds_of_due (hs : s.Orderly) {flush : Bool} (h : s.station.pass? = some flush) :
    s.control.holds = true ∧ (∀ aim, s.stage ≠ .joining aim) ∧
      ∀ aim passes, s.stage ≠ .drained aim passes := by
  have hsane := hs.sane
  unfold Control.Sane at hsane
  rcases (Station.pass?_eq_some h).2 with ⟨stop, hstage, hstate⟩ | ⟨aim, passes, hstage⟩
  · have hstage' : s.control.stage = .begun stop := hstage
    rw [hstage'] at hsane
    refine ⟨hsane.mpr hstate, ?_, ?_⟩
    · intro aim haim
      cases hstage'.symm.trans haim
    · intro aim passes haim
      cases hstage'.symm.trans haim
  · have hstage' : s.control.stage = .flushing aim passes := hstage
    rw [hstage'] at hsane
    refine ⟨hsane.2, ?_, ?_⟩
    · intro aim haim
      cases hstage'.symm.trans haim
    · intro aim passes haim
      cases hstage'.symm.trans haim

/-- No pass is under way when the flush passes have ended. -/
lemma Orderly.walk_of_drained (hs : s.Orderly) {aim : Aim γ} {passes : Nat}
    (hstage : s.stage = .drained aim passes) : s.walk = none := by
  by_contra hne
  obtain ⟨w, hw⟩ := Option.ne_none_iff_exists'.mp hne
  exact (hs.holds_of_due (hs.paced w hw)).2.2 aim passes hstage

/-- Where something failed, the tables are empty. -/
lemma Orderly.isEmpty_of_failed (hs : s.Orderly)
    (h : (∃ x, s.stage = .starting x) ∨ ∃ e, s.stage = .resting (.error e)) :
    s.reconciler.isEmpty = true := by
  by_contra hne
  have hholds := (hs.tables (by simpa using hne)).1
  have hsane := hs.sane
  unfold Control.Sane at hsane
  rcases h with ⟨x, hstage⟩ | ⟨e, hstage⟩
  · have hstage' : s.control.stage = .starting x := hstage
    rw [hstage'] at hsane
    exact Bool.false_ne_true (hsane.2.symm.trans hholds)
  · have hstage' : s.control.stage = .resting (.error e) := hstage
    rw [hstage'] at hsane
    exact Bool.false_ne_true (hsane.2.symm.trans hholds)

/-- What a step outside of passes does, in an orderly scene. -/
lemma Orderly.deed_of_aside (hs : s.Orderly) {t : Station γ} {m : Move γ}
    (still : m = .advance → s.walk = none)
    (hm : m = .advance ∨ ∀ aim passes, s.stage ≠ .drained aim passes)
    (h : s.station.Aside t) : s.Deed m { s with station := t } := by
  cases h with
  | same hub reconciler joining drained =>
    exact .aside still rfl hub reconciler joining drained
  | cleared aim passes stage stage' clear =>
    rcases hm with rfl | hm
    · exact .clear aim passes (still rfl) (still rfl) stage stage' clear
    · exact absurd stage (hm aim passes)
  | failed stage hub evolves clear late =>
    -- Letting go of all pollers does nothing here: there are none.
    have hnone := Reconciler.clear_of_isEmpty (hs.isEmpty_of_failed stage) hub
    obtain ⟨hreconciler, rfl⟩ := Prod.mk.inj (hnone.symm.trans clear)
    exact .other still rfl evolves hreconciler.symm late

variable [FlowGraph γ] [LawfulGraph γ]

/-- What others do to the sinks is done by producers. -/
lemma evolves_of_isForeign (s : Scene γ) {m : Move γ} (hm : m.isForeign = true) :
    s.hub.Evolves (s.perform m).hub := by
  cases m with
  | advance => cases hm
  | tick => cases hm
  | resume => cases hm
  | execute =>
    simp only [perform, withStation, Station.execute]
    cases s.station.worker.scheduler with
    | none => exact .refl _
    | some x => exact x.evolves_step s.hub
  | conclude g phase => exact .refl _
  | act a => exact s.hub.evolves_perform a
  | setGraph g =>
    simp only [perform, withStation, Station.setGraph, Slot.set]
    cases s.station.worker.slot.pending with
    | none => exact .refl _
    | some old => exact Hub.evolves_discard old s.hub
  | requestStop => exact .refl _
  | refuse why => exact .refl _
  | subscribe t => exact .refl _
  | unsubscribe id => exact .refl _
  | receive id => exact .refl _

/-- **What a move does to tables and sinks.** -/
theorem Orderly.deed (hs : s.Orderly) (m : Move γ) : s.Deed m (s.perform m) := by
  have hforeign : m.isForeign = true → m ≠ .advance → s.Deed m (s.perform m) := by
    intro hm hne
    have hstage := stage_eq_of_control (s.apart_perform hm).control
    exact .aside (fun h => absurd h hne) (s.apart_perform hm).walk (s.evolves_of_isForeign hm)
      (s.apart_perform hm).reconciler (fun _ h => hstage.symm.trans h) fun _ _ h =>
        hstage.symm.trans h
  have hsame : m ≠ .advance → s.Deed m s := fun hne =>
    .aside (fun h => absurd h hne) rfl (.refl _) rfl (fun _ h => h) fun _ _ h => h
  cases m with
  | advance =>
    simp only [perform, advance]
    split
    · exact .onward _ ‹_›
    · rename_i hwalk
      split
      · exact .begin _ hwalk ‹_›
      · exact hs.deed_of_aside (fun _ => hwalk) (.inl rfl) (Station.aside_step ‹_›)
  | tick =>
    simp only [perform, withStation, tick]
    split
    · refine .other ?_ rfl (.refl _) rfl rfl
      intro h
      cases h
    · apply hsame
      intro h
      cases h
  | resume =>
    simp only [perform, withStation]
    split
    · rename_i hrest
      refine hs.deed_of_aside ?_ (.inr ?_) Station.aside_resume
      · intro h
        cases h
      · intro aim passes hstage
        change s.station.worker.stage = _ at hstage
        rw [Worker.isAtRest, hstage] at hrest
        cases hrest
    · apply hsame
      intro h
      cases h
  | _ =>
    apply hforeign rfl
    intro h
    cases h

/-- **Every move keeps a scene orderly.** -/
theorem Orderly.perform (hs : s.Orderly) (m : Move γ) : (s.perform m).Orderly where
  paced := paced_perform hs.paced m
  sane := (shift_perform hs.paced m).sane hs.sane
  tables := by
    have hshift := shift_perform hs.paced m
    -- A graph that was held is held as long as its thread is not to be joined.
    have hholds : s.control.holds = true → (∀ aim, s.stage ≠ .joining aim) →
        (s.perform m).control.holds = true := by
      intro hg hjoin
      by_contra hne
      obtain ⟨aim, haim⟩ := hshift.joining hg (by simpa using hne)
      exact hjoin aim haim
    have hdeed := hs.deed m
    generalize s.perform m = s' at hshift hholds hdeed
    intro hempty
    cases hdeed with
    | aside still walk hub reconciler joining drained =>
      rw [reconciler] at hempty
      obtain ⟨hg, hjoin⟩ := hs.tables hempty
      exact ⟨hholds hg hjoin, fun aim haim => hjoin aim (joining aim haim)⟩
    | begin flush still due =>
      obtain ⟨hg, hjoin, -⟩ := hs.holds_of_due due
      exact ⟨hg, hjoin⟩
    | onward w walk =>
      obtain ⟨hg, hjoin, hdrained⟩ := hs.holds_of_due (hs.paced w walk)
      refine ⟨hholds hg hjoin, ?_⟩
      intro aim haim
      rcases hshift.cleared haim with hstage | ⟨passes, hstage⟩
      · exact hjoin aim hstage
      · exact hdrained aim passes hstage
    | clear aim passes still still' stage stage' clear =>
      have hcleared : s'.reconciler = (s.reconciler.clear s.hub).1 := by rw [clear]
      rw [hcleared] at hempty
      cases hempty

/-- **Every run keeps a scene orderly.** -/
theorem Orderly.run (hs : s.Orderly) (moves : List (Move γ)) : (s.run moves).Orderly := by
  induction moves generalizing s with
  | nil => exact hs
  | cons m moves ih => exact ih (hs.perform m)

end Orderly

end Scene

end Daq
