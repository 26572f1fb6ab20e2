import Daq.Proofs.Worker.Scene

set_option autoImplicit false

/-!
# The course of the lifecycle thread

Of everything that a worker holds, four things decide over the course of its lifecycle thread: the
stage, the state, whether a graph is held, and how many were started. All that anyone may do to
them is listed here once; what holds of the lifecycle in every run follows from the list.

## Main definitions

* `Daq.Control` — what decides over the course.
* `Daq.Control.Shift` — the list of changes.
* `Daq.Scene.Paced` — passes are made where passes are due.

## Main results

* `Daq.Worker.transition_eq` — what a transition changes.
* `Daq.Station.shift_step` — the next step of the lifecycle thread is on the list.
* `Daq.Scene.shift_perform` — so is every move, at whatever point of a pass it is made.
-/

namespace Daq

variable {γ : Type}

/-- What decides over the course of a lifecycle thread. -/
structure Control (γ : Type) where
  /-- Where the lifecycle thread is. -/
  stage : Stage γ
  /-- The state. -/
  state : WorkerState
  /-- Whether a graph is held. -/
  holds : Bool
  /-- The number of graphs started. -/
  generation : Nat

namespace Control

/-- The changes in the course of a lifecycle thread. -/
inductive Shift : Control γ → Control γ → Prop where
  /-- Nothing changes. -/
  | stay (c : Control γ) : Shift c c
  /-- A tick begins. -/
  | begin (last : Except AcqError Unit) (stop : Bool) (st : WorkerState) (g : Bool) (n : Nat) :
      Shift ⟨.resting last, st, g, n⟩ ⟨.begun stop, st, g, n⟩
  /-- The loop over ticks ends. -/
  | finish (g : Bool) (n : Nat) :
      Shift ⟨.resting (.ok ()), .shuttingDown, g, n⟩ ⟨.over (.ok ()), .shuttingDown, g, n⟩
  /-- The loop over ticks fails. -/
  | fail (e : AcqError) (st : WorkerState) (g : Bool) (n : Nat) :
      Shift ⟨.resting (.error e), st, g, n⟩ ⟨.over (.error e), .shuttingDown, g, n⟩
  /-- Without a graph, a stop is obeyed at once. -/
  | obey (g : Bool) (n : Nat) : Shift ⟨.begun true, .idle, g, n⟩ ⟨.closing, .shuttingDown, g, n⟩
  /-- Without a graph, none waits. -/
  | idle (g : Bool) (n : Nat) : Shift ⟨.begun false, .idle, g, n⟩ ⟨.closing, .idle, g, n⟩
  /-- Without a graph, the waiting one is taken. -/
  | take (x : γ) (g : Bool) (n : Nat) :
      Shift ⟨.begun false, .idle, g, n⟩ ⟨.starting x, .idle, g, n⟩
  /-- A pass is made. -/
  | pass (stop : Bool) (g : Bool) (n : Nat) :
      Shift ⟨.begun stop, .running, g, n⟩ ⟨.passed stop, .running, g, n⟩
  /-- In any other state a tick does nothing. -/
  | skip (stop : Bool) (st : WorkerState) (g : Bool) (n : Nat) (hidle : st ≠ .idle)
      (hrunning : st ≠ .running) : Shift ⟨.begun stop, st, g, n⟩ ⟨.closing, st, g, n⟩
  /-- A stop was requested. -/
  | choose (st : WorkerState) (g : Bool) (n : Nat) :
      Shift ⟨.passed true, st, g, n⟩ ⟨.chosen .shutDown, st, g, n⟩
  /-- No stop was requested. -/
  | look (aim : Aim γ) (st : WorkerState) (g : Bool) (n : Nat) :
      Shift ⟨.passed false, st, g, n⟩ ⟨.chosen aim, st, g, n⟩
  /-- The graph to be drained is missing. -/
  | missing (aim : Aim γ) (st : WorkerState) (n : Nat) :
      Shift ⟨.chosen aim, st, false, n⟩ ⟨.settled aim, st, false, n⟩
  /-- The graph runs on. -/
  | goOn (st : WorkerState) (n : Nat) :
      Shift ⟨.chosen .keep, st, true, n⟩ ⟨.closing, st, true, n⟩
  /-- The graph is to be drained. -/
  | drain (aim : Aim γ) (st : WorkerState) (n : Nat) :
      Shift ⟨.chosen aim, st, true, n⟩ ⟨.asking aim, .draining, true, n⟩
  /-- The graph is asked to stop. -/
  | ask (aim : Aim γ) (st : WorkerState) (g : Bool) (n : Nat) :
      Shift ⟨.asking aim, st, g, n⟩ ⟨.flushing aim 0, st, g, n⟩
  /-- After a flush pass some poller has not ended. -/
  | flush (aim : Aim γ) (passes : Nat) (st : WorkerState) (g : Bool) (n : Nat) :
      Shift ⟨.flushing aim passes, st, g, n⟩ ⟨.flushing aim (passes + 1), st, g, n⟩
  /-- After a flush pass every poller has ended. -/
  | drained (aim : Aim γ) (passes : Nat) (st : WorkerState) (g : Bool) (n : Nat) :
      Shift ⟨.flushing aim passes, st, g, n⟩ ⟨.drained aim (passes + 1), st, g, n⟩
  /-- All pollers are let go. -/
  | clear (aim : Aim γ) (passes : Nat) (st : WorkerState) (g : Bool) (n : Nat) :
      Shift ⟨.drained aim passes, st, g, n⟩ ⟨.joining aim, st, g, n⟩
  /-- The execution thread was joined. -/
  | join (aim : Aim γ) (st : WorkerState) (n : Nat) :
      Shift ⟨.joining aim, st, true, n⟩ ⟨.settled aim, st, false, n⟩
  /-- The execution thread was joined, and had failed. -/
  | panicked (aim : Aim γ) (e : AcqError) (st : WorkerState) (n : Nat) :
      Shift ⟨.joining aim, st, true, n⟩ ⟨.resting (.error e), st, false, n⟩
  /-- There is no graph any more. -/
  | settle (st : WorkerState) (g : Bool) (n : Nat) :
      Shift ⟨.settled .keep, st, g, n⟩ ⟨.closing, .idle, g, n⟩
  /-- The next graph is to be started. -/
  | replace (x : γ) (st : WorkerState) (g : Bool) (n : Nat) :
      Shift ⟨.settled (.replace x), st, g, n⟩ ⟨.starting x, .replacing, g, n⟩
  /-- The end. -/
  | shutDown (st : WorkerState) (g : Bool) (n : Nat) :
      Shift ⟨.settled .shutDown, st, g, n⟩ ⟨.closing, .shuttingDown, g, n⟩
  /-- A graph was started. -/
  | start (x : γ) (st : WorkerState) (g : Bool) (n : Nat) :
      Shift ⟨.starting x, st, g, n⟩ ⟨.closing, .running, true, n + 1⟩
  /-- No thread could be made for a graph. -/
  | refused (x : γ) (e : AcqError) (st : WorkerState) (g : Bool) (n : Nat) :
      Shift ⟨.starting x, st, g, n⟩ ⟨.resting (.error e), st, g, n⟩
  /-- A graph failed when it was started. -/
  | crash (x : γ) (st : WorkerState) (g : Bool) (n : Nat) :
      Shift ⟨.starting x, st, g, n⟩ ⟨.crashed, st, g, n⟩
  /-- A tick ends. -/
  | close (st : WorkerState) (g : Bool) (n : Nat) :
      Shift ⟨.closing, st, g, n⟩ ⟨.resting (.ok ()), st, g, n⟩

end Control

namespace Worker

/-- What decides over the course of the lifecycle thread of a worker. -/
def control (w : Worker γ) : Control γ := ⟨w.stage, w.state, w.scheduler.isSome, w.generation⟩

/-- Making something known does not change the course. -/
@[simp]
lemma control_publish (w : Worker γ) (p : Publication) : (w.publish p).control = w.control := by
  cases p <;> rfl

/-- Reporting an event does not change the course. -/
@[simp]
lemma control_emit (w : Worker γ) (e : WorkerEvent) : (w.emit e).control = w.control := rfl

/-- Where the lifecycle thread stands is part of the course. -/
@[simp]
lemma control_enter (w : Worker γ) (stage : Stage γ) :
    (w.enter stage).control = { w.control with stage } := rfl

/-- **A transition changes the state and what is to be made known, and nothing else.** -/
lemma transition_eq (w : Worker γ) (target : WorkerState) :
    w.transition target =
      { w with
        state := target
        outbox := w.outbox ++
          if w.state = target then []
          else [.stats, .state target, .event (.stateChanged w.state target)] } := by
  unfold transition
  split
  · rename_i h
    rw [← h, List.append_nil]
  · rfl

/-- A transition ends in its target, whether or not it is made known. -/
@[simp]
lemma control_transition (w : Worker γ) (target : WorkerState) :
    (w.transition target).control = { w.control with state := target } := by
  rw [transition_eq]
  rfl

/-- What decides over the course, as far as stage and state are known. -/
lemma control_eq {w : Worker γ} {stage : Stage γ} {state : WorkerState} (hstage : w.stage = stage)
    (hstate : w.state = state) :
    w.control = ⟨stage, state, w.scheduler.isSome, w.generation⟩ := by
  rw [← hstage, ← hstate]
  rfl

end Worker

namespace Station

open Control

/-! ### One step of the lifecycle thread -/

section Step

variable {s : Station γ}

/-- The beginning of a tick is on the list. -/
lemma shift_begun {stop : Bool} (h : s.worker.stage = .begun stop) :
    Shift s.worker.control (s.stepBegun stop).worker.control := by
  unfold stepBegun
  split
  · rename_i hidle
    rw [Worker.control_eq h hidle]
    cases stop with
    | true =>
      simp only [if_true, withWorker, Worker.control_enter, Worker.control_transition]
      exact .obey _ _
    | false =>
      simp only [Bool.false_eq_true, if_false, withWorker, Slot.take]
      cases s.worker.slot.pending with
      | none =>
        simp only [Option.elim_none, Worker.control, hidle]
        exact .idle _ _
      | some x =>
        simp only [Option.elim_some, Worker.control, hidle]
        exact .take x _ _
  · rename_i hrunning
    rw [Worker.control_eq h hrunning]
    simp only [reconcile, withWorker, Worker.enter, Worker.control, hrunning]
    exact .pass stop _ _
  · rename_i hidle hrunning
    rw [Worker.control_eq h rfl]
    exact .skip stop _ _ _ hidle hrunning

/-- A look at the slot is on the list. -/
lemma shift_passed {stop : Bool} (h : s.worker.stage = .passed stop) :
    Shift s.worker.control (s.stepPassed stop).worker.control := by
  rw [Worker.control_eq h rfl]
  unfold stepPassed
  cases stop with
  | true => exact .choose _ _ _
  | false => exact .look _ _ _ _

/-- What follows from the look at the slot is on the list. -/
lemma shift_chosen {aim : Aim γ} (h : s.worker.stage = .chosen aim) :
    Shift s.worker.control (s.stepChosen aim).worker.control := by
  have hdrain : ∀ x, s.worker.scheduler = some x →
      Shift s.worker.control ((s.worker.transition .draining).enter (.asking aim)).control := by
    intro x hx
    rw [Worker.control_enter, Worker.control_transition, Worker.control_eq h rfl, hx]
    exact .drain aim _ _
  simp only [stepChosen, withWorker]
  cases hx : s.worker.scheduler with
  | none =>
    dsimp only
    rw [Worker.control_enter, Worker.control_eq h rfl, hx]
    exact .missing aim _ _
  | some x =>
    cases aim with
    | keep =>
      dsimp only
      split
      · rw [Worker.control_enter, Worker.control_eq h rfl, hx]
        exact .goOn _ _
      · exact hdrain x hx
    | replace y => exact hdrain x hx
    | shutDown => exact hdrain x hx

/-- Asking the graph to stop is on the list. -/
lemma shift_asking {aim : Aim γ} (h : s.worker.stage = .asking aim) :
    Shift s.worker.control (s.stepAsking aim).worker.control := by
  rw [Worker.control_eq h rfl]
  simp only [stepAsking, withWorker, Worker.control, Option.isSome_map]
  exact .ask aim _ _ _

/-- A flush pass is on the list. -/
lemma shift_flushing {aim : Aim γ} {passes : Nat} (h : s.worker.stage = .flushing aim passes) :
    Shift s.worker.control (s.stepFlushing aim passes).worker.control := by
  rw [Worker.control_eq h rfl]
  change Shift _ ((s.reconcile true).2.worker.enter
    (if (s.reconcile true).1 then .drained aim (passes + 1) else .flushing aim (passes + 1))).control
  cases (s.reconcile true).1 with
  | true => exact .drained aim passes _ _ _
  | false => exact .flush aim passes _ _ _

/-- What follows without a graph is on the list. -/
lemma shift_settled {aim : Aim γ} (h : s.worker.stage = .settled aim) :
    Shift s.worker.control (s.stepSettled aim).worker.control := by
  cases aim with
  | keep =>
    simp only [stepSettled, withWorker, Worker.control_enter, Worker.control_transition,
      Worker.control_eq h rfl]
    exact .settle _ _ _
  | replace x =>
    simp only [stepSettled, withWorker, Worker.control_enter, Worker.control_transition,
      Worker.control_eq h rfl]
    exact .replace x _ _ _
  | shutDown =>
    simp only [stepSettled, withWorker, Worker.control_enter, Worker.control_transition,
      Worker.control_eq h rfl]
    exact .shutDown _ _ _

/-- What the loop over ticks does between ticks is on the list. -/
lemma shift_resume (s : Station γ) : Shift s.worker.control s.resume.worker.control := by
  unfold resume
  split
  · rename_i h
    split
    · rename_i hstate
      rw [Worker.control_eq h hstate]
      simp only [withWorker, Worker.control, hstate]
      exact .finish _ _
    · rw [Worker.control_eq h rfl]
      exact .begin _ _ _ _ _
  · rename_i e h
    rw [Worker.control_eq h rfl]
    have hover : ∀ w : Worker γ, ∀ outbox,
        ({ w with outbox, stage := .over (.error e) } : Worker γ).control =
          { w.control with stage := .over (.error e) } := fun _ _ => rfl
    simp only [withWorker, hover, Worker.control_emit, Worker.control_transition]
    exact .fail e _ _ _
  · exact .stay _

variable [FlowGraph γ]

/-- Waiting for the execution thread is on the list. -/
lemma shift_joining {aim : Aim γ} (h : s.worker.stage = .joining aim) :
    Shift s.worker.control (s.stepJoining aim).worker.control := by
  have hsome : ∀ {y : Except AcqError Unit}, s.worker.scheduler.bind Scheduler.joined? = some y →
      s.worker.control = ⟨.joining aim, s.worker.state, true, s.worker.generation⟩ := by
    intro y hy
    obtain ⟨x, hx, -⟩ := Option.bind_eq_some_iff.mp hy
    rw [Worker.control_eq h rfl, hx]
    rfl
  unfold stepJoining
  split
  · exact .stay _
  · rename_i hok
    rw [hsome hok]
    exact .join _ _ _
  · rename_i e herror
    rw [hsome herror]
    unfold giveUp
    split <;> exact .panicked _ e _ _

/-- The start of a graph is on the list, however it ends. -/
lemma shift_starting {x : γ} (h : s.worker.stage = .starting x) :
    Shift s.worker.control (s.stepStarting x).worker.control := by
  rw [Worker.control_eq h rfl]
  unfold stepStarting
  split
  · simp only [withWorker, Worker.control_enter, Worker.control_emit, Worker.control_transition]
    exact .start x _ _ _
  · exact .refused x _ _ _ _
  · exact .crash x _ _ _

/-- **The next step of the lifecycle thread is on the list.** -/
theorem shift_step (s : Station γ) : Shift s.worker.control s.step.worker.control := by
  unfold step
  split
  · rename_i p rest _
    simp only [withWorker, Worker.control_publish]
    exact .stay s.worker.control
  · split
    · exact .stay _
    · exact shift_begun ‹_›
    · exact shift_passed ‹_›
    · exact shift_chosen ‹_›
    · exact shift_asking ‹_›
    · exact shift_flushing ‹_›
    · rename_i h
      rw [Worker.control_eq h rfl]
      exact .clear _ _ _ _ _
    · exact shift_joining ‹_›
    · exact shift_settled ‹_›
    · exact shift_starting ‹_›
    · rename_i h
      rw [Worker.control_eq h rfl]
      exact .close _ _ _
    · exact .stay _
    · exact .stay _

end Step

/-- Where a pass is due. -/
lemma pass?_eq_some {s : Station γ} {flush : Bool} (h : s.pass? = some flush) :
    s.worker.outbox = [] ∧
      ((∃ stop, s.worker.stage = .begun stop ∧ s.worker.state = .running) ∨
        ∃ aim passes, s.worker.stage = .flushing aim passes) := by
  unfold pass? at h
  split at h
  · rename_i stop hout hstage
    split at h
    · exact ⟨hout, .inl ⟨stop, hstage, ‹_›⟩⟩
    · cases h
  · rename_i aim passes hout hstage
    exact ⟨hout, .inr ⟨aim, passes, hstage⟩⟩
  · cases h

/-- Where a pass is due, the lifecycle thread does not rest. -/
lemma isAtRest_of_pass? {s : Station γ} {flush : Bool} (h : s.pass? = some flush) :
    s.worker.isAtRest = false := by
  unfold Worker.isAtRest
  rcases (pass?_eq_some h).2 with ⟨stop, hstage, -⟩ | ⟨aim, passes, hstage⟩ <;> rw [hstage]

/-- Whether a pass is due depends on what is still to be made known, the stage and the state. -/
lemma pass?_congr {s t : Station γ} (hout : t.worker.outbox = s.worker.outbox)
    (hstage : t.worker.stage = s.worker.stage) (hstate : t.worker.state = s.worker.state) :
    t.pass? = s.pass? := by
  unfold pass?
  rw [hout, hstage, hstate]

end Station

namespace Scene

open Control

/-! ### Every move -/

/-- What decides over the course of the lifecycle thread. -/
def control (s : Scene γ) : Control γ := s.station.worker.control

/-- A pass is under way only where one is due. -/
def Paced (s : Scene γ) : Prop := ∀ w, s.walk = some w → s.station.pass? = some w.flush

/-- What leaves alone the pass and whether one is due. -/
lemma Paced.of_eq {s s' : Scene γ} (h : s.Paced) (hwalk : s'.walk = s.walk)
    (hpass : s'.station.pass? = s.station.pass?) : s'.Paced := by
  intro w hw
  rw [hpass]
  exact h w (hwalk ▸ hw)

section Pass

variable {s : Scene γ} {w : Walk}

/-- Going on with a visit does not change the course. -/
lemma control_proceed (s : Scene γ) (w : Walk) (x : Stop) : (s.proceed w x).control = s.control := by
  unfold proceed
  dsimp only
  split
  · rfl
  · split
    · rfl
    · split <;> rfl
  · rfl
  · unfold hand
    split <;> rfl

/-- Going on with a visit goes on with the pass. -/
lemma paced_proceed (x : Stop) (h : s.Paced) (hw : s.walk = some w) : (s.proceed w x).Paced := by
  have hpass := h w hw
  unfold proceed
  dsimp only
  split
  · rintro v ⟨⟩
    exact hpass
  · split
    · rintro v ⟨⟩
      exact hpass
    · split
      · rintro v ⟨⟩
        exact hpass
      · rintro v ⟨⟩
        exact hpass
  · rintro v ⟨⟩
    exact hpass
  · unfold hand
    split
    · exact h
    · rintro v ⟨⟩
      exact hpass

/-- The end of a pass is on the list. -/
lemma shift_endWalk (w : Walk) {flush : Bool} (h : s.station.pass? = some flush) :
    Shift s.control (s.endWalk w).control := by
  have hend : (s.endWalk w).control = { s.control with stage := s.stage.afterPass w.finished } := rfl
  rw [hend, control]
  rcases (Station.pass?_eq_some h).2 with ⟨stop, hstage, hstate⟩ | ⟨aim, passes, hstage⟩
  · rw [Worker.control_eq hstage hstate, stage, hstage]
    exact .pass stop _ _
  · rw [Worker.control_eq hstage rfl, stage, hstage]
    unfold Stage.afterPass
    dsimp only
    split
    · exact .drained aim passes _ _ _
    · exact .flush aim passes _ _ _

/-- The next step of a pass is on the list. -/
lemma shift_walkOn (h : s.Paced) (hw : s.walk = some w) : Shift s.control (s.walkOn w).control := by
  unfold walkOn
  split
  · rw [control_proceed]
    exact .stay _
  · exact .stay _
  · exact shift_endWalk w (h w hw)

/-- After the next step of a pass, a pass is under way only where one is due. -/
lemma paced_walkOn (h : s.Paced) (hw : s.walk = some w) : (s.walkOn w).Paced := by
  unfold walkOn
  split
  · exact paced_proceed _ h hw
  · rintro v ⟨⟩
    exact h w hw
  · rintro v ⟨⟩

end Pass

/-- Whether a move is not one of the lifecycle thread. -/
def Move.isForeign : Move γ → Bool
  | .advance => false
  | .tick => false
  | .resume => false
  | _ => true

/-- What is left alone by the moves of others. -/
structure Apart (s s' : Scene γ) : Prop where
  /-- The pass is as before. -/
  walk : s'.walk = s.walk
  /-- The tables are as before. -/
  reconciler : s'.reconciler = s.reconciler
  /-- What is still to be made known is as before. -/
  outbox : s'.station.worker.outbox = s.station.worker.outbox
  /-- The course of the lifecycle thread is as before. -/
  control : s'.control = s.control

/-- The stage is part of the course. -/
lemma stage_eq_of_control {s s' : Scene γ} (h : s'.control = s.control) : s'.stage = s.stage :=
  congrArg Control.stage h

/-- Whether a pass is due is left alone by the moves of others. -/
lemma Apart.pass? {s s' : Scene γ} (h : s.Apart s') : s'.station.pass? = s.station.pass? :=
  Station.pass?_congr h.outbox (congrArg Control.stage h.control) (congrArg Control.state h.control)

variable [FlowGraph γ]

/-- **Others leave alone the course of the lifecycle thread**, the tables and the pass. -/
lemma apart_perform (s : Scene γ) {m : Move γ} (hm : m.isForeign = true) :
    s.Apart (s.perform m) := by
  cases m with
  | advance => cases hm
  | tick => cases hm
  | resume => cases hm
  | execute =>
    simp only [perform, withStation, Station.execute]
    cases hx : s.station.worker.scheduler with
    | none => exact ⟨rfl, rfl, rfl, rfl⟩
    | some x =>
      refine ⟨rfl, rfl, rfl, ?_⟩
      simp only [Scene.control, Worker.control, hx, Option.isSome_some]
  | conclude g phase =>
    refine ⟨rfl, rfl, rfl, ?_⟩
    simp only [perform, withStation, conclude, Station.withWorker, Scene.control, Worker.control,
      Option.isSome_map]
  | act a => exact ⟨rfl, rfl, rfl, rfl⟩
  | setGraph g => exact ⟨rfl, rfl, rfl, rfl⟩
  | requestStop => exact ⟨rfl, rfl, rfl, rfl⟩
  | refuse why => exact ⟨rfl, rfl, rfl, rfl⟩
  | subscribe t => exact ⟨rfl, rfl, rfl, rfl⟩
  | unsubscribe id => exact ⟨rfl, rfl, rfl, rfl⟩
  | receive id => exact ⟨rfl, rfl, rfl, rfl⟩

/-- **Every move is on the list.** -/
theorem shift_perform {s : Scene γ} (h : s.Paced) (m : Move γ) :
    Shift s.control (s.perform m).control := by
  have hforeign : m.isForeign = true → Shift s.control (s.perform m).control := by
    intro hm
    rw [(s.apart_perform hm).control]
    exact .stay _
  cases m with
  | advance =>
    simp only [perform, advance]
    split
    · exact shift_walkOn h ‹_›
    · split
      · exact .stay _
      · exact s.station.shift_step
  | tick =>
    simp only [perform, withStation, tick]
    split
    · rename_i last hstage _
      rw [control, Worker.control_eq hstage rfl]
      exact .begin _ _ _ _ _
    · exact .stay _
  | resume =>
    simp only [perform, withStation]
    split
    · exact s.station.shift_resume
    · exact .stay _
  | _ => exact hforeign rfl

/-- **A pass is under way only where one is due**, whatever anyone does. -/
theorem paced_perform {s : Scene γ} (h : s.Paced) (m : Move γ) : (s.perform m).Paced := by
  have hforeign : m.isForeign = true → (s.perform m).Paced := fun hm =>
    h.of_eq (s.apart_perform hm).walk (s.apart_perform hm).pass?
  cases m with
  | advance =>
    simp only [perform, advance]
    split
    · exact paced_walkOn h ‹_›
    · split
      · rename_i flush hpass
        rintro v ⟨⟩
        exact hpass
      · rename_i hwalk _ _
        intro v hv
        rw [hwalk] at hv
        cases hv
  | tick =>
    -- A tick is begun between ticks only, and a pass is made within one.
    simp only [perform, withStation, tick]
    split
    · rename_i last hstage _
      intro v hv
      rcases (Station.pass?_eq_some (h v hv)).2 with ⟨stop, hother, -⟩ | ⟨aim, passes, hother⟩
      · rw [hother] at hstage
        cases hstage
      · rw [hother] at hstage
        cases hstage
    · exact h
  | resume =>
    simp only [perform, withStation]
    split
    · rename_i hrest
      intro v hv
      rw [Station.isAtRest_of_pass? (h v hv)] at hrest
      cases hrest
    · exact h
  | _ => exact hforeign rfl

end Scene

end Daq
