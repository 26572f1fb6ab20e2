import Daq.Proofs.Scheduler
import Daq.Proofs.Worker.Control

set_option autoImplicit false

/-!
# What a worker makes known

A worker makes known its statistics, its state and its events one after the other, and it decides on
what to make known where the course of its lifecycle thread changes. What a change gives rise to
depends on stage, state and generation before and after it, and on nothing else. So what was made
known in a run, followed by what is still to be made known, is told by the course of the run.

## Main definitions

* `Daq.Control.issues`, `Daq.Control.news` — what a change in the course gives rise to, and the
  events among it.
* `Daq.Station.Frame` — what a step leaves alone.
* `Daq.Scene.publications` — what is made known in a run.
* `Daq.Scene.reports` — the events among it, whether or not there was room for them.
* `Daq.Scene.due`, `Daq.Scene.decided` — the events still to be made known, and all events that the
  course of a run gave rise to.

## Main results

* `Daq.Station.outbox_step` — a step of the lifecycle thread decides on what its change gives rise to.
* `Daq.Scene.published_append_outbox` — so does every move.
* `Daq.Scene.reports_append_due` — reports and what is due are what the course gave rise to.
* `Daq.Scene.events_run` — the events of a run are offered to the channel, in order.
-/

namespace Daq

variable {γ : Type}

/-- The event of a publication, if it is one. -/
def Publication.event? : Publication → Option WorkerEvent
  | .event e => some e
  | _ => none

namespace Control

variable [FlowGraph γ]

/-- What a change in the course gives rise to. A change of the state is made known first. -/
def issues (c c' : Control γ) : List Publication :=
  (if c.state = c'.state then []
    else [.stats, .state c'.state, .event (.stateChanged c.state c'.state)]) ++
  match c.stage, c'.stage with
  | .drained _ passes, .joining _ => [.event (.drainCompleted c.generation passes)]
  | .joining _, .settled _ => [.event (.graphStopped c.generation)]
  | .starting x, .closing => [.event (.graphStarted c'.generation (FlowGraph.name x))]
  | .closing, .resting _ => [.stats]
  | .resting (.ok _), .over _ => [.stats]
  | .resting (.error e), .over _ => [.event (.failed e.message), .stats]
  | _, _ => []

/-- The events that a change in the course gives rise to. -/
def news (c c' : Control γ) : List WorkerEvent := (c.issues c').filterMap Publication.event?

/-- Where nothing changes, nothing is made known. -/
@[simp]
lemma issues_self (c : Control γ) : c.issues c = [] := by
  obtain ⟨stage, state, holds, generation⟩ := c
  unfold issues
  rw [if_pos rfl, List.nil_append]
  cases stage with
  | resting last => cases last <;> rfl
  | _ => rfl

end Control

namespace Worker

/-- What a transition adds to what is to be made known. -/
lemma outbox_transition (w : Worker γ) (target : WorkerState) :
    (w.transition target).outbox = w.outbox ++
      if w.state = target then []
      else [.stats, .state target, .event (.stateChanged w.state target)] := by
  rw [transition_eq]

/-- Making something known does not change what is to be made known. -/
@[simp]
lemma outbox_publish (w : Worker γ) (p : Publication) : (w.publish p).outbox = w.outbox := by
  cases p <;> rfl

section Transition

variable (w : Worker γ) (target : WorkerState)

/-- A transition reports no event. -/
@[simp]
lemma events_transition : (w.transition target).events = w.events := by
  rw [transition_eq]

/-- A transition leaves the graph that was asked for where it is. -/
@[simp]
lemma slot_transition : (w.transition target).slot = w.slot := by
  rw [transition_eq]

/-- A transition leaves the scheduler as it is. -/
@[simp]
lemma scheduler_transition : (w.transition target).scheduler = w.scheduler := by
  rw [transition_eq]

/-- A transition is no request to stop. -/
@[simp]
lemma stopRequested_transition : (w.transition target).stopRequested = w.stopRequested := by
  rw [transition_eq]

end Transition

end Worker

namespace Station

open Control

/-! ### One step of the lifecycle thread -/

section Step

variable [FlowGraph γ] {s : Station γ}

/-- The beginning of a tick. -/
lemma outbox_begun {stop : Bool} (hout : s.worker.outbox = []) (h : s.worker.stage = .begun stop) :
    (s.stepBegun stop).worker.outbox =
      s.worker.control.issues (s.stepBegun stop).worker.control := by
  unfold stepBegun
  split
  · rename_i hidle
    rw [Worker.control_eq h hidle]
    cases stop with
    | true =>
      simp [withWorker, Worker.enter, Worker.transition, Worker.control, issues, hidle, hout]
    | false =>
      simp only [Bool.false_eq_true, if_false, withWorker, Slot.take]
      cases s.worker.slot.pending with
      | none => simp [Worker.control, issues, hidle, hout]
      | some x => simp [Worker.control, issues, hidle, hout]
  · rename_i hrunning
    rw [Worker.control_eq h hrunning]
    simp [reconcile, withWorker, Worker.enter, Worker.control, issues, hrunning, hout]
  · rw [Worker.control_eq h rfl]
    simp [withWorker, Worker.enter, Worker.control, issues, hout]

/-- A look at the slot. -/
lemma outbox_passed {stop : Bool} (hout : s.worker.outbox = []) (h : s.worker.stage = .passed stop) :
    (s.stepPassed stop).worker.outbox =
      s.worker.control.issues (s.stepPassed stop).worker.control := by
  rw [Worker.control_eq h rfl]
  unfold stepPassed
  cases stop with
  | true => simp [withWorker, Worker.enter, Worker.control, issues, hout]
  | false => simp [withWorker, Slot.take, Worker.control, issues, hout]

/-- What follows from the look at the slot. -/
lemma outbox_chosen {aim : Aim γ} (hout : s.worker.outbox = []) (h : s.worker.stage = .chosen aim) :
    (s.stepChosen aim).worker.outbox =
      s.worker.control.issues (s.stepChosen aim).worker.control := by
  have hdrain : ((s.worker.transition .draining).enter (.asking aim)).outbox =
      s.worker.control.issues ((s.worker.transition .draining).enter (.asking aim)).control := by
    rw [Worker.control_enter, Worker.control_transition, Worker.control_eq h rfl]
    simp [Worker.enter, Worker.outbox_transition, issues, hout]
  have hkeep : ∀ stage, stage = .closing ∨ stage = .settled aim → (s.worker.enter stage).outbox =
      s.worker.control.issues (s.worker.enter stage).control := by
    intro stage hstage
    rw [Worker.control_enter, Worker.control_eq h rfl]
    rcases hstage with rfl | rfl <;> simp [Worker.enter, issues, hout]
  simp only [stepChosen, withWorker]
  split
  · exact hkeep _ (.inr rfl)
  · split
    · exact hkeep _ (.inl rfl)
    · exact hdrain
  · exact hdrain

/-- A flush pass. -/
lemma outbox_flushing {aim : Aim γ} {passes : Nat} (hout : s.worker.outbox = [])
    (h : s.worker.stage = .flushing aim passes) :
    (s.stepFlushing aim passes).worker.outbox =
      s.worker.control.issues (s.stepFlushing aim passes).worker.control := by
  rw [Worker.control_eq h rfl]
  change s.worker.outbox = issues _ ((s.reconcile true).2.worker.enter
    (if (s.reconcile true).1 then .drained aim (passes + 1) else .flushing aim (passes + 1))).control
  cases (s.reconcile true).1 with
  | true => simp [reconcile, Worker.enter, Worker.control, issues, hout]
  | false => simp [reconcile, Worker.enter, Worker.control, issues, hout]

/-- What follows without a graph. -/
lemma outbox_settled {aim : Aim γ} (hout : s.worker.outbox = [])
    (h : s.worker.stage = .settled aim) :
    (s.stepSettled aim).worker.outbox =
      s.worker.control.issues (s.stepSettled aim).worker.control := by
  cases aim <;>
  · simp only [stepSettled, withWorker, Worker.control_enter, Worker.control_transition,
      Worker.control_eq h rfl]
    simp [Worker.enter, Worker.outbox_transition, issues, hout]

/-- Waiting for the execution thread. -/
lemma outbox_joining {aim : Aim γ} (hout : s.worker.outbox = [])
    (h : s.worker.stage = .joining aim) :
    (s.stepJoining aim).worker.outbox =
      s.worker.control.issues (s.stepJoining aim).worker.control := by
  unfold stepJoining
  split
  · rw [issues_self, hout]
  · rw [Worker.control_eq h rfl]
    simp [withWorker, Worker.emit, Worker.enter, Worker.control, issues, hout]
  · rw [Worker.control_eq h rfl]
    unfold giveUp
    split <;> simp [withWorker, Worker.control, issues, hout]

/-- The start of a graph. -/
lemma outbox_starting {g : γ} (hout : s.worker.outbox = []) (h : s.worker.stage = .starting g) :
    (s.stepStarting g).worker.outbox =
      s.worker.control.issues (s.stepStarting g).worker.control := by
  rw [Worker.control_eq h rfl]
  unfold stepStarting
  split
  · rename_i x hub hlaunch
    rw [Scheduler.eq_of_launch hlaunch]
    simp only [withWorker, Worker.control_enter, Worker.control_emit, Worker.control_transition]
    simp [Worker.enter, Worker.emit, Worker.outbox_transition, Worker.control, issues, hout,
      Scheduler.name]
  · simp [withWorker, Worker.enter, Worker.control, issues, hout]
  · simp [withWorker, clear, Worker.enter, Worker.control, issues, hout]

/-- What the loop over ticks does between ticks, when everything is made known. -/
lemma outbox_resume (hout : s.worker.outbox = []) :
    s.resume.worker.outbox = s.worker.control.issues s.resume.worker.control := by
  unfold resume
  split
  · rename_i h
    rw [Worker.control_eq h rfl]
    split
    · simp [withWorker, Worker.control, issues]
    · simp [beginTick, withWorker, Worker.control, issues, hout]
  · rename_i e h
    rw [Worker.control_eq h rfl]
    have hover : ∀ w : Worker γ, ∀ outbox,
        ({ w with outbox, stage := .over (.error e) } : Worker γ).control =
          { w.control with stage := .over (.error e) } := fun _ _ => rfl
    simp only [withWorker, hover, Worker.control_emit, Worker.control_transition]
    simp [Worker.emit, Worker.outbox_transition, clear, issues, hout]
  · rw [issues_self, hout]

/-- What the loop over ticks does where the lifecycle thread is at rest. -/
lemma outbox_resume_of_isAtRest (h : s.worker.isAtRest = true) :
    s.resume.worker.outbox =
      s.worker.outbox ++ s.worker.control.issues s.resume.worker.control := by
  have hempty : s.worker.outbox.isEmpty = true → s.resume.worker.outbox =
      s.worker.outbox ++ s.worker.control.issues s.resume.worker.control := by
    intro hout
    rw [List.isEmpty_iff] at hout
    rw [outbox_resume hout, hout, List.nil_append]
  unfold Worker.isAtRest at h
  split at h
  · exact hempty h
  · exact hempty h
  · rename_i hstage
    have hsame : s.resume = s := by
      unfold resume
      rw [hstage]
    rw [hsame, issues_self, List.append_nil]
  · cases h

/-- **A step of the lifecycle thread decides on what its change gives rise to**, if nothing is still
to be made known; else it makes the next thing known. -/
theorem outbox_step (s : Station γ) :
    s.worker.outbox.take 1 ++ s.step.worker.outbox =
      s.worker.outbox ++ s.worker.control.issues s.step.worker.control := by
  unfold step
  split
  · rename_i p rest hout
    simp only [withWorker, Worker.control_publish, Worker.outbox_publish, hout]
    have hself : s.worker.control.issues ({ s.worker with outbox := rest } : Worker γ).control = [] :=
      issues_self _
    rw [hself, List.append_nil]
    rfl
  · rename_i hout
    rw [hout, List.take_nil, List.nil_append, List.nil_append]
    split
    · rw [issues_self, hout]
    · exact outbox_begun hout ‹_›
    · exact outbox_passed hout ‹_›
    · exact outbox_chosen hout ‹_›
    · rename_i h
      rw [Worker.control_eq h rfl]
      simp [stepAsking, withWorker, Worker.control, issues, hout]
    · exact outbox_flushing hout ‹_›
    · rename_i h
      rw [Worker.control_eq h rfl]
      simp [stepDrained, clear, withWorker, Worker.emit, Worker.enter, Worker.control, issues, hout]
    · exact outbox_joining hout ‹_›
    · exact outbox_settled hout ‹_›
    · exact outbox_starting hout ‹_›
    · rename_i h
      rw [Worker.control_eq h rfl]
      simp [withWorker, Worker.control, issues]
    · rw [issues_self, hout]
    · rw [issues_self, hout]

/-- As long as something is to be made known, the stage stays. -/
lemma stage_step_of_outbox (hout : s.worker.outbox ≠ []) :
    s.step.worker.stage = s.worker.stage := by
  unfold step
  split
  · rename_i p _ _
    cases p <;> rfl
  · exact absurd ‹_› hout

end Step

/-! ### What a step leaves alone -/

section Frame

/-- What a step of the lifecycle thread leaves alone, when everything is made known. -/
structure Frame (s t : Station γ) : Prop where
  /-- The channel is as before. -/
  events : t.worker.events = s.worker.events
  /-- The stop flag is as before. -/
  stopRequested : t.worker.stopRequested = s.worker.stopRequested
  /-- The graph that is held is as before, unless it is asked to stop, joined or started. -/
  scheduler : t.worker.scheduler = s.worker.scheduler ∨ (∃ aim, s.worker.stage = .asking aim) ∨
    (∃ aim, s.worker.stage = .joining aim) ∨ ∃ g, s.worker.stage = .starting g

/-- A transition leaves these alone. -/
lemma frame_transition (s : Station γ) (target : WorkerState) (stage : Stage γ) :
    s.Frame (s.withWorker fun w => (w.transition target).enter stage) :=
  ⟨s.worker.events_transition target, s.worker.stopRequested_transition target,
    .inl (s.worker.scheduler_transition target)⟩

/-- What the loop over ticks does between ticks leaves these alone. -/
lemma frame_resume (s : Station γ) : s.Frame s.resume := by
  unfold resume
  split
  · split <;> exact ⟨rfl, rfl, .inl rfl⟩
  · exact ⟨Worker.events_transition _ _, Worker.stopRequested_transition _ _,
      .inl (Worker.scheduler_transition _ _)⟩
  · exact ⟨rfl, rfl, .inl rfl⟩

variable [FlowGraph γ]

/-- **What a step of the lifecycle thread leaves alone.** -/
theorem frame_step {s : Station γ} (hout : s.worker.outbox = []) : s.Frame s.step := by
  simp only [step, hout]
  split
  · exact ⟨rfl, rfl, .inl rfl⟩
  · unfold stepBegun
    split
    · split
      · exact s.frame_transition _ _
      · exact ⟨rfl, rfl, .inl rfl⟩
    · exact ⟨rfl, rfl, .inl rfl⟩
    · exact ⟨rfl, rfl, .inl rfl⟩
  · unfold stepPassed
    split <;> exact ⟨rfl, rfl, .inl rfl⟩
  · rename_i aim _
    have hdrain := s.frame_transition .draining (.asking aim)
    simp only [stepChosen, withWorker] at hdrain ⊢
    split
    · exact ⟨rfl, rfl, .inl rfl⟩
    · split
      · exact ⟨rfl, rfl, .inl rfl⟩
      · exact hdrain
    · exact hdrain
  · exact ⟨rfl, rfl, .inr (.inl ⟨_, ‹_›⟩)⟩
  · exact ⟨rfl, rfl, .inl rfl⟩
  · exact ⟨rfl, rfl, .inl rfl⟩
  · rename_i hstage
    unfold stepJoining giveUp
    split
    · exact ⟨rfl, rfl, .inl rfl⟩
    · exact ⟨rfl, rfl, .inr (.inr (.inl ⟨_, hstage⟩))⟩
    · split <;> exact ⟨rfl, rfl, .inr (.inr (.inl ⟨_, hstage⟩))⟩
  · rename_i aim _
    cases aim <;> exact s.frame_transition _ _
  · rename_i hstage
    unfold stepStarting
    split
    · exact ⟨Worker.events_transition _ _, Worker.stopRequested_transition _ _,
        .inr (.inr (.inr ⟨_, hstage⟩))⟩
    · exact ⟨rfl, rfl, .inl rfl⟩
    · exact ⟨rfl, rfl, .inl rfl⟩
  · exact ⟨rfl, rfl, .inl rfl⟩
  · exact ⟨rfl, rfl, .inl rfl⟩
  · exact ⟨rfl, rfl, .inl rfl⟩

/-- **A step of the lifecycle thread offers an event to the channel** exactly where an event is what
it makes known. -/
theorem events_step (s : Station γ) :
    s.step.worker.events =
      s.worker.events.publishAll ((s.worker.outbox.take 1).filterMap Publication.event?) := by
  cases hout : s.worker.outbox with
  | nil => exact (frame_step hout).events
  | cons p rest =>
    simp only [step, hout]
    cases p <;> rfl

end Frame

end Station

namespace Scene

open Control

/-! ### Every move -/

/-- What a move makes known: a step of the lifecycle thread makes known what comes first. -/
def published (s : Scene γ) : Move γ → List Publication
  | .advance => s.station.worker.outbox.take 1
  | _ => []

/-- Going on with a pass changes the tables and the stage of a worker, and nothing else. -/
lemma worker_walkOn (s : Scene γ) (w : Walk) : ∃ reconciler stage,
    (s.walkOn w).station.worker = { s.station.worker with reconciler, stage } := by
  unfold walkOn
  split
  · unfold proceed
    dsimp only
    split
    · exact ⟨_, _, rfl⟩
    · split
      · exact ⟨_, _, rfl⟩
      · split <;> exact ⟨_, _, rfl⟩
    · exact ⟨_, _, rfl⟩
    · unfold hand
      split <;> exact ⟨_, _, rfl⟩
  · exact ⟨_, _, rfl⟩
  · exact ⟨_, _, rfl⟩

variable [FlowGraph γ] {s : Scene γ}

/-- Where no pass is due, the next step is one of the station. -/
lemma perform_advance_of_pass? (h : s.Paced) (hdue : s.station.pass? = none) :
    s.perform .advance = { s with station := s.station.step } := by
  have hwalk : s.walk = none := by
    by_contra hne
    obtain ⟨w, hw⟩ := Option.ne_none_iff_exists'.mp hne
    cases hdue.symm.trans (h w hw)
  simp only [perform, advance, hwalk, hdue]

/-- The change in the course by going on with a pass gives rise to nothing. -/
lemma issues_walkOn {w : Walk} (h : s.Paced) (hw : s.walk = some w) :
    s.control.issues (s.walkOn w).control = [] := by
  unfold walkOn
  split
  · rw [control_proceed, issues_self]
  · exact issues_self _
  · have hend : (s.endWalk w).control = { s.control with stage := s.stage.afterPass w.finished } := rfl
    rw [hend, issues, if_pos rfl, List.nil_append]
    rcases (Station.pass?_eq_some (h w hw)).2 with ⟨stop, hstage, -⟩ | ⟨aim, passes, hstage⟩
    · rw [show s.control.stage = .begun stop from hstage]
    · rw [show s.control.stage = .flushing aim passes from hstage]

/-- **Every move decides on what its change gives rise to**, after what was to be made known. -/
theorem published_append_outbox (h : s.Paced) (m : Move γ) :
    s.published m ++ (s.perform m).station.worker.outbox =
      s.station.worker.outbox ++ s.control.issues (s.perform m).control := by
  have hforeign : m.isForeign = true → s.published m = [] →
      s.published m ++ (s.perform m).station.worker.outbox =
        s.station.worker.outbox ++ s.control.issues (s.perform m).control := by
    intro hm hnone
    rw [hnone, (s.apart_perform hm).outbox, (s.apart_perform hm).control, issues_self]
    exact (List.append_nil _).symm
  cases m with
  | advance =>
    simp only [perform, advance, published]
    split
    · rename_i w hw
      obtain ⟨_, _, hworker⟩ := s.worker_walkOn w
      rw [issues_walkOn h hw, hworker, (Station.pass?_eq_some (h w hw)).1]
      rfl
    · split
      · rename_i flush hdue
        have hself : s.control.issues (s.beginWalk flush).control = [] := issues_self _
        rw [hself, (Station.pass?_eq_some hdue).1]
        exact (Station.pass?_eq_some hdue).1
      · exact s.station.outbox_step
  | tick =>
    simp only [perform, withStation, tick, published, List.nil_append]
    split
    · rename_i last hstage hout
      have hcontrol : s.control = _ := Worker.control_eq hstage rfl
      rw [hcontrol, hout]
      simp [Station.beginTick, Station.withWorker, control, Worker.control, issues, hout]
    · exact (congrArg _ (issues_self s.control)).trans (List.append_nil _) |>.symm
  | resume =>
    simp only [perform, withStation, published, List.nil_append]
    split
    · exact Station.outbox_resume_of_isAtRest ‹_›
    · exact (congrArg _ (issues_self s.control)).trans (List.append_nil _) |>.symm
  | _ => exact hforeign rfl rfl

/-- **A move offers to the channel the events that it makes known.** -/
theorem events_perform (h : s.Paced) (m : Move γ) :
    (s.perform m).station.worker.events =
      s.station.worker.events.publishAll ((s.published m).filterMap Publication.event?) := by
  cases m with
  | advance =>
    simp only [perform, advance, published]
    split
    · rename_i w hw
      obtain ⟨_, _, hworker⟩ := s.worker_walkOn w
      rw [hworker, (Station.pass?_eq_some (h w hw)).1]
      rfl
    · split
      · rename_i flush hdue
        rw [(Station.pass?_eq_some hdue).1]
        rfl
      · exact s.station.events_step
  | tick =>
    simp only [perform, withStation, tick]
    split <;> rfl
  | resume =>
    simp only [perform, withStation]
    split
    · exact s.station.frame_resume.events
    · rfl
  | execute =>
    simp only [perform, withStation, Station.execute]
    split <;> rfl
  | _ => rfl

/-! ### Runs -/

/-- What is made known in the course of several moves. -/
def publications (s : Scene γ) : List (Move γ) → List Publication
  | [] => []
  | m :: moves => s.published m ++ (s.perform m).publications moves

/-- The events that are made known in the course of several moves, whether or not there is room for
them in the channel. -/
def reports (s : Scene γ) (moves : List (Move γ)) : List WorkerEvent :=
  (s.publications moves).filterMap Publication.event?

/-- The events that are still to be made known. -/
def due (s : Scene γ) : List WorkerEvent := s.station.worker.outbox.filterMap Publication.event?

/-- The events that the changes in the course of several moves give rise to. -/
def decided (s : Scene γ) : List (Move γ) → List WorkerEvent
  | [] => []
  | m :: moves => s.control.news (s.perform m).control ++ (s.perform m).decided moves

/-- Several more moves. -/
lemma decided_append (s : Scene γ) (moves more : List (Move γ)) :
    s.decided (moves ++ more) = s.decided moves ++ (s.run moves).decided more := by
  induction moves generalizing s with
  | nil => rfl
  | cons n moves ih =>
    rw [List.cons_append, decided, decided, ih, List.append_assoc]
    rfl

/-- One more move. -/
lemma decided_concat (s : Scene γ) (moves : List (Move γ)) (m : Move γ) :
    s.decided (moves ++ [m]) =
      s.decided moves ++ (s.run moves).control.news ((s.run moves).perform m).control := by
  rw [decided_append, decided, decided, List.append_nil]

/-- Whatever is done, a pass is under way only where one is due. -/
lemma paced_run (h : s.Paced) (moves : List (Move γ)) : (s.run moves).Paced := by
  induction moves generalizing s with
  | nil => exact h
  | cons m moves ih => exact ih (paced_perform h m)

/-- **What was reported, and what is still to be, is what the course of the run gave rise to**, in
order. -/
theorem reports_append_due (h : s.Paced) (moves : List (Move γ)) :
    s.reports moves ++ (s.run moves).due = s.due ++ s.decided moves := by
  induction moves generalizing s with
  | nil => exact (List.append_nil _).symm
  | cons m moves ih =>
    have hmove : (s.published m).filterMap Publication.event? ++ (s.perform m).due =
        s.due ++ s.control.news (s.perform m).control := by
      rw [due, ← List.filterMap_append, published_append_outbox h m, List.filterMap_append]
      rfl
    have hrest := ih (paced_perform h m)
    calc s.reports (m :: moves) ++ (s.run (m :: moves)).due
        = (s.published m).filterMap Publication.event? ++
            ((s.perform m).reports moves ++ ((s.perform m).run moves).due) := by
          rw [reports, publications, List.filterMap_append, List.append_assoc]
          rfl
      _ = s.due ++ s.decided (m :: moves) := by
          rw [hrest, ← List.append_assoc, hmove, List.append_assoc, decided]

/-- **The events of a run are offered to the channel**, each once and in order. -/
theorem events_run (h : s.Paced) (moves : List (Move γ)) :
    (s.run moves).station.worker.events =
      s.station.worker.events.publishAll (s.reports moves) := by
  induction moves generalizing s with
  | nil => rfl
  | cons m moves ih =>
    have hrest := ih (paced_perform h m)
    rw [events_perform h m] at hrest
    rw [reports, publications, List.filterMap_append, Queue.publishAll, List.foldl_append]
    exact hrest

section Start

variable {config : WorkerConfig} {moves : List (Move γ)}

omit [FlowGraph γ] in
/-- Before the first tick no pass is under way. -/
lemma paced_start : (start config : Scene γ).Paced := by
  intro w hw
  cases hw

/-- From the first tick on, reports are what the course of the run gave rise to. -/
lemma reports_start :
    (start config).reports moves ++ ((start config).run moves).due = (start config).decided moves :=
  reports_append_due paced_start moves

end Start

end Scene

end Daq
