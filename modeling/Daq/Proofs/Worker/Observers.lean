import Daq.Proofs.Worker.Reports

set_option autoImplicit false

/-!
# What observers see of a worker

An observer reads the published state and then the published statistics, and between the two reads,
as before and after them, anyone may do anything. State and statistics are kept apart and written
one after the other, so an observer may see statistics that are newer than the state, or a state
that is no longer that of the worker. But it never sees statistics from before the change into the
state it has read: a change is made known by the statistics first, and the lifecycle thread does
nothing else until all of it is made known; and no counter ever falls.

## Main definitions

* `Daq.Counters.Within`, `Daq.WorkerStats.Within` — counters that have grown.
* `Daq.Scene.stateChanges` — the changes of the state in a run, with the counters at the time.
* `Daq.Scene.Shows` — what a move may do to what others see.
* `Daq.Scene.Heard` — which changes were made known, and which are still to be.

## Main results

* `Daq.Scene.within_walkOn`, `Daq.Station.quiet_step` — no step lowers a counter.
* `Daq.Scene.shows_perform` — the list of what moves do is complete.
* `Daq.Scene.Heard.shows` — what one move keeps.
* `Daq.Scene.observers_exact` — what observers see in every run.
-/

namespace Daq

variable {γ : Type}

/-! ### Counters that only grow -/

/-- No counter of a reconciler has fallen. -/
structure Counters.Within (c c' : Counters) : Prop where
  /-- Passes begun. -/
  passes : c.passes ≤ c'.passes
  /-- Replies handed out. -/
  notifications : c.notifications ≤ c'.notifications
  /-- Topics whose parameters make no filter. -/
  skippedSubscriptions : c.skippedSubscriptions ≤ c'.skippedSubscriptions
  /-- Requests for signals that are not registered. -/
  unknownSignals : c.unknownSignals ≤ c'.unknownSignals
  /-- Requests refused for their parameters. -/
  rejectedRequests : c.rejectedRequests ≤ c'.rejectedRequests
  /-- Requests that failed for other reasons. -/
  failedRequests : c.failedRequests ≤ c'.failedRequests
  /-- Pollers opened. -/
  pollersCreated : c.pollersCreated ≤ c'.pollersCreated
  /-- Pollers let go because nobody asked for them. -/
  pollersEvicted : c.pollersEvicted ≤ c'.pollersEvicted

namespace Counters.Within

variable {c c' c'' : Counters}

/-- Nothing was counted. -/
lemma refl (c : Counters) : c.Within c := by constructor <;> exact le_rfl

/-- Counting in two stretches. -/
lemma trans (h : c.Within c') (h' : c'.Within c'') : c.Within c'' where
  passes := h.passes.trans h'.passes
  notifications := h.notifications.trans h'.notifications
  skippedSubscriptions := h.skippedSubscriptions.trans h'.skippedSubscriptions
  unknownSignals := h.unknownSignals.trans h'.unknownSignals
  rejectedRequests := h.rejectedRequests.trans h'.rejectedRequests
  failedRequests := h.failedRequests.trans h'.failedRequests
  pollersCreated := h.pollersCreated.trans h'.pollersCreated
  pollersEvicted := h.pollersEvicted.trans h'.pollersEvicted

/-- A refused request only adds. -/
lemma refuse (c : Counters) (e : AcqError) : c.Within (c.refuse e) := by
  cases e <;> simp only [Counters.refuse] <;> (try split) <;> constructor <;> simp

end Counters.Within

/-- No counter of a worker has fallen. -/
structure WorkerStats.Within (x y : WorkerStats) : Prop where
  /-- Ticks begun. -/
  ticks : x.ticks ≤ y.ticks
  /-- Graphs started. -/
  generation : x.generation ≤ y.generation
  /-- The counters of the reconciler. -/
  counters : x.counters.Within y.counters

namespace WorkerStats.Within

variable {x y z : WorkerStats}

/-- Nothing was counted. -/
lemma refl (x : WorkerStats) : x.Within x := ⟨le_rfl, le_rfl, .refl _⟩

/-- Counting in two stretches. -/
lemma trans (h : x.Within y) (h' : y.Within z) : x.Within z :=
  ⟨h.ticks.trans h'.ticks, h.generation.trans h'.generation, h.counters.trans h'.counters⟩

/-- What is equal has not fallen. -/
lemma of_eq (h : x = y) : x.Within y := h ▸ refl x

end WorkerStats.Within

/-- A pass begins with counting itself and the topics that cannot be read. -/
lemma Reconciler.within_begin (r : Reconciler) (h : Hub) (topics : List Topic) :
    r.counters.Within (r.begin h topics).reconciler.counters := by
  constructor <;> simp [begin, count, markUnused]

/-- A request is counted if it opens a poller or is refused. -/
lemma Pass.within_ensure (grant : Grant) (flush : Bool) (p : Pass) (k : PollerKey) :
    p.reconciler.counters.Within (p.ensure grant flush k).reconciler.counters := by
  obtain ⟨-, heq⟩ | ⟨-, -, e, -, heq⟩ | ⟨-, -, q, h', -, heq⟩ := p.ensure_cases grant flush k
  · rw [heq]
    exact .refl _
  · rw [heq]
    exact .refuse _ e
  · rw [heq, (p.reconciler.enter_counters k q).1]
    constructor <;> simp

/-- The sweep counts the pollers that it lets go of. -/
lemma Reconciler.within_evict (r : Reconciler) (h : Hub) :
    r.counters.Within (r.evict h).1.counters := by
  constructor <;> simp [evict]

/-! ### Steps that make nothing known -/

namespace Worker

section Transition

variable (w : Worker γ) (target : WorkerState)

/-- A transition does not make a state known. -/
@[simp]
lemma seenState_transition : (w.transition target).seenState = w.seenState := by
  rw [transition_eq]

/-- A transition does not make statistics known. -/
@[simp]
lemma seenStats_transition : (w.transition target).seenStats = w.seenStats := by
  rw [transition_eq]

/-- A transition counts nothing. -/
@[simp]
lemma stats_transition : (w.transition target).stats = w.stats := by
  rw [transition_eq]
  rfl

end Transition

end Worker

namespace Station

/-- What is seen stays as it is, and no counter falls. -/
structure Quiet (s t : Station γ) : Prop where
  /-- The published state stays. -/
  seenState : t.worker.seenState = s.worker.seenState
  /-- The published statistics stay. -/
  seenStats : t.worker.seenStats = s.worker.seenStats
  /-- No counter falls. -/
  stats : s.worker.stats.Within t.worker.stats

/-- What leaves counters alone. -/
lemma Quiet.of_eq {s t : Station γ} (hstate : t.worker.seenState = s.worker.seenState)
    (hseen : t.worker.seenStats = s.worker.seenStats) (hstats : t.worker.stats = s.worker.stats) :
    s.Quiet t :=
  ⟨hstate, hseen, .of_eq hstats.symm⟩

/-- A transition is decided on, not made known. -/
lemma quiet_transition (s : Station γ) (target : WorkerState) (stage : Stage γ) :
    s.Quiet (s.withWorker fun w => (w.transition target).enter stage) :=
  .of_eq (s.worker.seenState_transition target) (s.worker.seenStats_transition target)
    (s.worker.stats_transition target)

/-- What the loop over ticks does between ticks. -/
lemma quiet_resume (s : Station γ) : s.Quiet s.resume := by
  unfold resume
  split
  · split
    · exact .of_eq rfl rfl rfl
    · exact ⟨rfl, rfl, ⟨Nat.le_succ _, le_rfl, .refl _⟩⟩
  · exact .of_eq (Worker.seenState_transition _ _) (Worker.seenStats_transition _ _)
      (Worker.stats_transition _ _)
  · exact .of_eq rfl rfl rfl

variable [FlowGraph γ]

/-- The start of a graph counts it. -/
lemma quiet_starting (s : Station γ) (g : γ) : s.Quiet (s.stepStarting g) := by
  unfold stepStarting
  split
  · rename_i x hub _
    refine ⟨Worker.seenState_transition _ _, Worker.seenStats_transition _ _, ?_⟩
    have hstats : s.worker.stats.Within
        { s.worker with generation := s.worker.generation + 1, scheduler := some x }.stats :=
      ⟨le_rfl, Nat.le_succ _, .refl _⟩
    exact hstats.trans (.of_eq (Worker.stats_transition _ _).symm)
  · exact .of_eq rfl rfl rfl
  · exact .of_eq rfl rfl rfl

/-- **A step of the lifecycle thread that makes nothing known lowers no counter.** -/
theorem quiet_step {s : Station γ} (hout : s.worker.outbox = []) (hdue : s.pass? = none) :
    s.Quiet s.step := by
  simp only [step, hout]
  split
  · exact .of_eq rfl rfl rfl
  · rename_i stop hstage
    unfold stepBegun
    split
    · split
      · exact s.quiet_transition _ _
      · exact .of_eq rfl rfl rfl
    · rename_i hrunning
      simp [pass?, hout, hstage, hrunning] at hdue
    · exact .of_eq rfl rfl rfl
  · unfold stepPassed
    split <;> exact .of_eq rfl rfl rfl
  · rename_i aim _
    have hdrain := s.quiet_transition .draining (.asking aim)
    simp only [stepChosen, withWorker] at hdrain ⊢
    split
    · exact .of_eq rfl rfl rfl
    · split
      · exact .of_eq rfl rfl rfl
      · exact hdrain
    · exact hdrain
  · exact .of_eq rfl rfl rfl
  · rename_i aim passes hstage
    simp [pass?, hout, hstage] at hdue
  · exact .of_eq rfl rfl rfl
  · unfold stepJoining giveUp
    split
    · exact .of_eq rfl rfl rfl
    · exact .of_eq rfl rfl rfl
    · split <;> exact .of_eq rfl rfl rfl
  · rename_i aim _
    cases aim <;> exact s.quiet_transition _ _
  · exact s.quiet_starting _
  · exact .of_eq rfl rfl rfl
  · exact .of_eq rfl rfl rfl
  · exact .of_eq rfl rfl rfl

end Station

namespace Scene

/-- Handing out an item counts it. -/
lemma within_hand (s : Scene γ) (w : Walk) (x : Stop) (finished : Bool) (item : Item)
    (left : List Item) :
    s.reconciler.counters.Within (s.hand w x finished item left).reconciler.counters := by
  unfold hand
  split
  · exact .refl _
  · rename_i e _
    have hreport := (s.reconciler.report_counters x.visit.key (answer e.reported item).2).1
    constructor <;> simp [update, reconciler, Reconciler.count] at hreport ⊢ <;> simp [hreport]

/-- Coming to a key counts the request for it, if one is made. -/
lemma within_approach (s : Scene γ) (w : Walk) (v : Visit) (rest : List Visit) :
    s.reconciler.counters.Within (s.approach w v rest).reconciler.counters := by
  have hensure := Pass.within_ensure Hub.serve w.flush
    { reconciler := s.reconciler, hub := s.hub } v.key
  have hmark := ((Pass.ensure Hub.serve w.flush { reconciler := s.reconciler, hub := s.hub }
    v.key).reconciler.mark_counters v.key).1
  exact hmark ▸ hensure

/-- **Going on with a pass lowers no counter.** -/
lemma within_walkOn (s : Scene γ) (w : Walk) :
    s.reconciler.counters.Within (s.walkOn w).reconciler.counters := by
  unfold walkOn
  split
  · unfold proceed
    dsimp only
    split
    · exact .refl _
    · split
      · exact .refl _
      · split <;> exact .refl _
    · exact .refl _
    · exact s.within_hand w _ _ _ _
  · exact s.within_approach w _ _
  · exact s.reconciler.within_evict s.hub

/-- Going on with a pass makes nothing known. -/
lemma quiet_walkOn (s : Scene γ) (w : Walk) : s.station.Quiet (s.walkOn w).station := by
  have hcounters := s.within_walkOn w
  obtain ⟨reconciler, stage, hworker⟩ := s.worker_walkOn w
  unfold Scene.reconciler at hcounters
  rw [hworker] at hcounters
  refine ⟨?_, ?_, ?_⟩
  · rw [hworker]
  · rw [hworker]
  · rw [hworker]
    exact ⟨le_rfl, le_rfl, hcounters⟩

end Scene

/-! ### What a move shows to others -/

/-- Whether the last tick ended well, or the loop over ticks has ended. -/
def Stage.hasClosed : Stage γ → Bool
  | .resting (.ok _) => true
  | .over _ => true
  | _ => false

/-- The state that a publication makes known, if it is one. -/
def Publication.state? : Publication → Option WorkerState
  | .state s => some s
  | _ => none

/-- Whether no state is made known before the statistics. -/
def Publication.statsFirst : List Publication → Prop
  | .event _ :: rest => statsFirst rest
  | .state _ :: _ => False
  | _ => True

namespace Control

variable [FlowGraph γ]

/-- The only state that a change gives rise to is the new one. -/
lemma states_issues (c c' : Control γ) :
    (c.issues c').filterMap Publication.state? = if c.state = c'.state then [] else [c'.state] := by
  unfold issues
  split <;> split <;> rfl

/-- Statistics come before a state. -/
lemma statsFirst_issues (c c' : Control γ) : Publication.statsFirst (c.issues c') := by
  unfold issues
  split <;> split <;> trivial

/-- When a tick ends well, or the loop over ticks ends, the statistics are made known. -/
lemma stats_mem_issues {c c' : Control γ} (h : Shift c c') (hclosed : c'.stage.hasClosed = true)
    (hopen : c.stage.hasClosed = false) : Publication.stats ∈ c.issues c' := by
  cases h <;> simp_all [Stage.hasClosed, issues]

end Control

namespace Scene

section Moves

variable [FlowGraph γ]

/-- What a move may do to what others see, with what it makes known. -/
inductive Shows (s s' : Scene γ) : List Publication → Prop
  /-- Nothing that matters changes. -/
  | still (hout : s'.station.worker.outbox = s.station.worker.outbox)
      (hcontrol : s'.control = s.control)
      (hstate : s'.station.worker.seenState = s.station.worker.seenState)
      (hseen : s'.station.worker.seenStats = s.station.worker.seenStats)
      (hstats : s'.station.worker.stats = s.station.worker.stats) : Shows s s' []
  /-- One thing is made known, and nothing else happens. -/
  | publish {p : Publication} {rest : List Publication} (hout : s.station.worker.outbox = p :: rest)
      (hworker : s'.station.worker = { s.station.worker with outbox := rest }.publish p) :
      Shows s s' [p]
  /-- The lifecycle thread goes on, when all is made known, and decides on what its change gives
  rise to. -/
  | turn (hout : s.station.worker.outbox = [])
      (hissues : s'.station.worker.outbox = s.control.issues s'.control)
      (hquiet : s.station.Quiet s'.station)
      (hclosed : s'.stage.hasClosed = true → Publication.stats ∈ s'.station.worker.outbox) :
      Shows s s' []

/-- Nothing changes. -/
lemma Shows.refl (s : Scene γ) : s.Shows s [] := .still rfl rfl rfl rfl rfl

/-- Going on where the last tick is not over. -/
lemma Shows.of_open {s s' : Scene γ} (hout : s.station.worker.outbox = [])
    (hissues : s'.station.worker.outbox = s.control.issues s'.control)
    (hquiet : s.station.Quiet s'.station) (hshift : Control.Shift s.control s'.control)
    (hopen : s.stage.hasClosed = false) : s.Shows s' [] := by
  refine .turn hout hissues hquiet fun hclosed => ?_
  rw [hissues]
  exact Control.stats_mem_issues hshift hclosed hopen

variable {s : Scene γ}

omit [FlowGraph γ] in
/-- Where a pass is due, the last tick is not over. -/
lemma hasClosed_of_pass? {flush : Bool} (h : s.station.pass? = some flush) :
    s.stage.hasClosed = false := by
  unfold stage
  rcases (Station.pass?_eq_some h).2 with ⟨stop, hstage, -⟩ | ⟨aim, passes, hstage⟩
  · rw [hstage]
    rfl
  · rw [hstage]
    rfl

/-- The next step of the lifecycle thread. -/
lemma shows_advance (h : s.Paced) :
    s.Shows (s.perform .advance) (s.station.worker.outbox.take 1) := by
  have hshift := shift_perform h .advance
  have hpublished := published_append_outbox h .advance
  cases hdue : s.station.pass? with
  | some flush =>
    have hout := (Station.pass?_eq_some hdue).1
    have hquiet : s.station.Quiet (s.perform .advance).station := by
      simp only [perform, advance, hdue]
      split
      · exact s.quiet_walkOn _
      · exact ⟨rfl, rfl, ⟨le_rfl, le_rfl, s.reconciler.within_begin s.hub s.station.broker.active⟩⟩
    simp only [published, hout, List.take_nil, List.nil_append] at hpublished ⊢
    exact .of_open hout hpublished hquiet hshift (hasClosed_of_pass? hdue)
  | none =>
    have hstep := perform_advance_of_pass? h hdue
    cases hout : s.station.worker.outbox with
    | cons p rest =>
      refine .publish hout ?_
      rw [hstep]
      simp only [Station.step, hout]
      rfl
    | nil =>
      cases hclosed : s.stage.hasClosed with
      | true =>
        -- Between ticks the lifecycle thread has no step of its own.
        have hself : s.perform .advance = s := by
          have hstation : s.station.step = s.station := by
            unfold Station.step
            rw [hout]
            unfold stage Stage.hasClosed at hclosed
            split at hclosed <;> simp_all
          rw [hstep, hstation]
        rw [hself]
        exact .refl s
      | false =>
        have hquiet : s.station.Quiet (s.perform .advance).station := by
          rw [hstep]
          exact Station.quiet_step hout hdue
        simp only [published, hout, List.take_nil, List.nil_append] at hpublished ⊢
        exact .of_open hout hpublished hquiet hshift hclosed

/-- A tick that is begun by hand. -/
lemma shows_tick (h : s.Paced) : s.Shows (s.perform .tick) [] := by
  have hpublished := published_append_outbox h .tick
  simp only [published, perform, withStation, tick, List.nil_append] at hpublished ⊢
  split at hpublished
  · rename_i last hstage hout
    have hquiet : s.station.Quiet s.station.beginTick :=
      ⟨rfl, rfl, ⟨Nat.le_succ _, le_rfl, .refl _⟩⟩
    rw [hout, List.nil_append] at hpublished
    exact .turn hout hpublished hquiet fun hclosed => by cases hclosed
  · exact .refl s

/-- What the loop over ticks does between ticks. -/
lemma shows_resume : s.Shows (s.perform .resume) [] := by
  simp only [perform, withStation]
  split
  · rename_i hrest
    have hquiet := s.station.quiet_resume
    have hself : (∀ last, s.station.worker.stage ≠ .resting last) →
        s.station.resume = s.station := by
      intro hnot
      unfold Station.resume
      split
      · exact absurd ‹_› (hnot _)
      · exact absurd ‹_› (hnot _)
      · rfl
    by_cases hstage : ∃ last, s.station.worker.stage = .resting last
    · obtain ⟨last, hstage⟩ := hstage
      have hout : s.station.worker.outbox = [] := by
        unfold Worker.isAtRest at hrest
        rw [hstage] at hrest
        exact List.isEmpty_iff.mp hrest
      refine .turn hout (Station.outbox_resume hout) hquiet ?_
      unfold stage Station.resume
      rw [hstage]
      cases last with
      | ok =>
        dsimp only
        split
        · exact fun _ => List.mem_singleton.mpr rfl
        · exact fun hclosed => by cases hclosed
      | error e => exact fun _ => List.mem_append_right _ (List.mem_singleton.mpr rfl)
    · rw [hself fun last hlast => hstage ⟨last, hlast⟩]
      exact .refl s
  · exact .refl s

/-- What others do leaves alone what is seen, and the counters. -/
lemma shows_foreign {m : Move γ} (hm : m.isForeign = true) : s.Shows (s.perform m) [] := by
  have hapart := s.apart_perform hm
  have hseen : (s.perform m).station.worker.seenState = s.station.worker.seenState ∧
      (s.perform m).station.worker.seenStats = s.station.worker.seenStats ∧
      (s.perform m).station.worker.stats = s.station.worker.stats := by
    cases m with
    | advance => cases hm
    | tick => cases hm
    | resume => cases hm
    | execute =>
      simp only [perform, withStation, Station.execute]
      split <;> exact ⟨rfl, rfl, rfl⟩
    | _ => exact ⟨rfl, rfl, rfl⟩
  exact .still hapart.outbox hapart.control hseen.1 hseen.2.1 hseen.2.2

/-- **What any move does to what others see is on the list.** -/
theorem shows_perform (h : s.Paced) (m : Move γ) : s.Shows (s.perform m) (s.published m) := by
  cases m with
  | advance => exact shows_advance h
  | tick => exact shows_tick h
  | resume => exact shows_resume
  | _ => exact shows_foreign rfl

end Moves

/-! ### Which changes were made known -/

/-- The change of the state from one scene to another, if there is one: the new state, and the
counters right after the change. -/
def stateChange (s s' : Scene γ) : List (WorkerState × WorkerStats) :=
  if s.control.state = s'.control.state then []
  else [(s'.control.state, s'.station.worker.stats)]

/-- The last of several states; at first a worker is idle. -/
def lastState (cs : List (WorkerState × WorkerStats)) : WorkerState :=
  (cs.getLast?.map Prod.fst).getD .idle

/-- One more change. -/
@[simp]
lemma lastState_concat (cs : List (WorkerState × WorkerStats)) (c : WorkerState × WorkerStats) :
    lastState (cs ++ [c]) = c.1 := by
  simp [lastState]

/-- The changes that were made known, `past`, and those that are still to be, `ahead`. -/
structure Heard (s : Scene γ) (past ahead : List (WorkerState × WorkerStats)) : Prop where
  /-- The published state is that of the last change that was made known. -/
  seenState : s.station.worker.seenState = lastState past
  /-- The state is that of the last change. -/
  state : s.control.state = lastState (past ++ ahead)
  /-- The published statistics are not older than the changes that were made known. -/
  known : ∀ c ∈ past, c.2.Within s.station.worker.seenStats
  /-- The worker has counted what it had counted at any change. -/
  counted : ∀ c ∈ past ++ ahead, c.2.Within s.station.worker.stats
  /-- What was published was counted. -/
  seen_within : s.station.worker.seenStats.Within s.station.worker.stats
  /-- The changes ahead wait in the outbox. -/
  waiting : s.station.worker.outbox.filterMap Publication.state? = ahead.map Prod.fst
  /-- A state is not made known before the statistics that belong to it. -/
  ready : s.station.worker.seenStats = s.station.worker.stats ∨
    Publication.statsFirst s.station.worker.outbox
  /-- After a tick that ended well the statistics are made known. -/
  closed : s.stage.hasClosed = true → s.station.worker.seenStats = s.station.worker.stats ∨
    Publication.stats ∈ s.station.worker.outbox

namespace Heard

variable {s s' : Scene γ} {past ahead : List (WorkerState × WorkerStats)}

/-- Where nothing is still to be made known, no change is ahead. -/
lemma ahead_eq_nil (h : s.Heard past ahead) (hout : s.station.worker.outbox = []) :
    ahead = [] := by
  have hwaiting := h.waiting
  rw [hout] at hwaiting
  exact List.map_eq_nil_iff.mp hwaiting.symm

/-- Before the first tick nothing has changed. -/
lemma start (config : WorkerConfig) : (Scene.start config : Scene γ).Heard [] [] where
  seenState := rfl
  state := rfl
  known := by simp
  counted := by simp
  seen_within := .refl _
  waiting := rfl
  ready := .inl rfl
  closed _ := .inl rfl

/-- What leaves alone everything that matters. -/
lemma still (h : s.Heard past ahead)
    (hout : s'.station.worker.outbox = s.station.worker.outbox)
    (hcontrol : s'.control = s.control)
    (hstate : s'.station.worker.seenState = s.station.worker.seenState)
    (hseen : s'.station.worker.seenStats = s.station.worker.seenStats)
    (hstats : s'.station.worker.stats = s.station.worker.stats) : s'.Heard past ahead where
  seenState := hstate.trans h.seenState
  state := (congrArg Control.state hcontrol).trans h.state
  known := hseen ▸ h.known
  counted := hstats ▸ h.counted
  seen_within := by
    rw [hseen, hstats]
    exact h.seen_within
  waiting := hout ▸ h.waiting
  ready := by
    rw [hseen, hstats, hout]
    exact h.ready
  closed := by
    rw [stage_eq_of_control hcontrol, hseen, hstats, hout]
    exact h.closed

section Publish

variable {p : Publication} {rest : List Publication}

/-- Making something known does not change the course. -/
lemma control_of_publish
    (hworker : s'.station.worker = { s.station.worker with outbox := rest }.publish p) :
    s'.control = s.control := by
  unfold control
  rw [hworker, Worker.control_publish]
  rfl

/-- Making the statistics known. -/
lemma publish_stats (h : s.Heard past ahead)
    (hout : s.station.worker.outbox = .stats :: rest)
    (hworker : s'.station.worker = { s.station.worker with outbox := rest }.publish .stats) :
    s'.Heard past ahead := by
  have hcontrol := control_of_publish hworker
  have hstats : s'.station.worker.stats = s.station.worker.stats := by rw [hworker]; rfl
  have hseen : s'.station.worker.seenStats = s'.station.worker.stats := by rw [hworker]; rfl
  have hwaiting := h.waiting
  rw [hout] at hwaiting
  refine ⟨?_, ?_, ?_, ?_, ?_, ?_, .inl hseen, fun _ => .inl hseen⟩
  · rw [hworker]
    exact h.seenState
  · rw [hcontrol]
    exact h.state
  · rw [hseen, hstats]
    exact fun c hc => h.counted c (List.mem_append_left _ hc)
  · rw [hstats]
    exact h.counted
  · rw [hseen]
    exact .refl _
  · rw [hworker]
    exact hwaiting

/-- Making an event known. -/
lemma publish_event (h : s.Heard past ahead) {e : WorkerEvent}
    (hout : s.station.worker.outbox = .event e :: rest)
    (hworker : s'.station.worker = { s.station.worker with outbox := rest }.publish (.event e)) :
    s'.Heard past ahead := by
  have hcontrol := control_of_publish hworker
  have hstage := stage_eq_of_control hcontrol
  obtain ⟨hseenState, hstate, hknown, hcounted, hwithin, hwaiting, hready, hclosed⟩ := h
  rw [hout] at hwaiting hready hclosed
  rw [← hstage] at hclosed
  rw [← hcontrol] at hstate
  refine ⟨?_, hstate, ?_, ?_, ?_, ?_, ?_, ?_⟩ <;> rw [hworker]
  · exact hseenState
  · exact hknown
  · exact hcounted
  · exact hwithin
  · exact hwaiting
  · exact hready
  · intro hstageClosed
    exact (hclosed hstageClosed).imp id fun hmem => (List.mem_cons.mp hmem).resolve_left (by simp)

/-- **Making a state known**: the statistics are those of the worker, so they are not older than the
change that is made known. -/
lemma publish_state (h : s.Heard past ahead) {state : WorkerState}
    (hout : s.station.worker.outbox = .state state :: rest)
    (hworker :
      s'.station.worker = { s.station.worker with outbox := rest }.publish (.state state)) :
    ∃ c left, ahead = c :: left ∧ c.1 = state ∧ s'.Heard (past ++ [c]) left := by
  have hcontrol := control_of_publish hworker
  have hstage := stage_eq_of_control hcontrol
  obtain ⟨-, hstate, hknown, hcounted, hwithin, hwaiting, hready, hclosed⟩ := h
  rw [hout] at hwaiting hready hclosed
  have hseen : s.station.worker.seenStats = s.station.worker.stats := by
    rcases hready with hseen | hfirst
    · exact hseen
    · exact hfirst.elim
  obtain ⟨c, left, rfl, hc, hleft⟩ := List.map_eq_cons_iff.mp hwaiting.symm
  refine ⟨c, left, rfl, hc, ?_⟩
  rw [List.append_cons] at hcounted hstate
  refine ⟨?_, hcontrol ▸ hstate, ?_, ?_, ?_, ?_, ?_, ?_⟩ <;> (try rw [hworker])
  · rw [lastState_concat, hc]
    rfl
  · intro x hx
    exact (hcounted x (List.mem_append_left _ hx)).trans (.of_eq hseen.symm)
  · exact hcounted
  · exact hwithin
  · exact hleft.symm
  · exact .inl hseen
  · exact fun _ => .inl hseen

end Publish

variable [FlowGraph γ]

/-- **The lifecycle thread goes on.** All changes were made known, so the published state is that of
the worker; and if the state changes, the change waits with the counters of this moment. -/
lemma turn (h : s.Heard past ahead) (hout : s.station.worker.outbox = [])
    (hissues : s'.station.worker.outbox = s.control.issues s'.control)
    (hquiet : s.station.Quiet s'.station)
    (hclosed : s'.stage.hasClosed = true → Publication.stats ∈ s'.station.worker.outbox) :
    ahead = [] ∧ s'.Heard past (s.stateChange s') := by
  obtain rfl := h.ahead_eq_nil hout
  have hstate := h.state
  have hcounted := h.counted
  rw [List.append_nil] at hstate hcounted
  refine ⟨rfl, hquiet.seenState.trans h.seenState, ?_, hquiet.seenStats ▸ h.known, ?_, ?_, ?_,
    .inr (hissues ▸ Control.statsFirst_issues _ _), fun hstage => .inr (hclosed hstage)⟩
  · unfold stateChange
    split
    · rename_i hsame
      rw [List.append_nil, ← hsame, hstate]
    · rw [lastState_concat]
  · intro c hc
    rcases List.mem_append.mp hc with hc | hc
    · exact (hcounted c hc).trans hquiet.stats
    · unfold stateChange at hc
      split at hc
      · cases hc
      · rw [List.mem_singleton.mp hc]
        exact .refl _
  · rw [hquiet.seenStats]
    exact h.seen_within.trans hquiet.stats
  · rw [hissues, Control.states_issues]
    unfold stateChange
    split <;> rfl

/-- **What one move keeps.** A change that the move brings about is the last one ahead; a state that
it makes known is that of the first one ahead; and published statistics do not fall. -/
theorem shows {made : List Publication} (h : s.Heard past ahead) (hshows : s.Shows s' made) :
    s.station.worker.seenStats.Within s'.station.worker.seenStats ∧
      ∃ past' ahead', past' ++ ahead' = past ++ ahead ++ s.stateChange s' ∧
        past'.map Prod.fst = past.map Prod.fst ++ made.filterMap Publication.state? ∧
        s'.Heard past' ahead' := by
  cases hshows with
  | still hout hcontrol hstate hseen hstats =>
    have hsame : s.stateChange s' = [] := if_pos (congrArg Control.state hcontrol.symm)
    refine ⟨.of_eq hseen.symm, past, ahead, ?_, ?_, h.still hout hcontrol hstate hseen hstats⟩
    · rw [hsame, List.append_nil]
    · rw [List.filterMap_nil, List.append_nil]
  | turn hout hissues hquiet hclosed =>
    obtain ⟨rfl, hheard⟩ := h.turn hout hissues hquiet hclosed
    refine ⟨.of_eq hquiet.seenStats.symm, past, s.stateChange s', ?_, ?_, hheard⟩
    · rw [List.append_nil]
    · rw [List.filterMap_nil, List.append_nil]
  | @publish p rest hout hworker =>
    have hsame : s.stateChange s' = [] :=
      if_pos (congrArg Control.state (control_of_publish hworker).symm)
    rw [hsame, List.append_nil]
    cases p with
    | stats =>
      refine ⟨?_, past, ahead, rfl, (List.append_nil _).symm, h.publish_stats hout hworker⟩
      rw [hworker]
      exact h.seen_within
    | event e =>
      refine ⟨?_, past, ahead, rfl, (List.append_nil _).symm, h.publish_event hout hworker⟩
      rw [hworker]
      exact .refl _
    | state state =>
      obtain ⟨c, left, rfl, hc, hheard⟩ := h.publish_state hout hworker
      refine ⟨?_, past ++ [c], left, by simp, ?_, hheard⟩
      · rw [hworker]
        exact .refl _
      · rw [List.map_append, ← hc]
        rfl

end Heard

/-! ### Runs -/

variable [FlowGraph γ]

/-- The changes of the state in the course of several moves, in order. -/
def stateChanges (s : Scene γ) : List (Move γ) → List (WorkerState × WorkerStats)
  | [] => []
  | m :: moves => s.stateChange (s.perform m) ++ (s.perform m).stateChanges moves

/-- The states that are made known in the course of several moves, in order. -/
def toldStates (s : Scene γ) (moves : List (Move γ)) : List WorkerState :=
  (s.publications moves).filterMap Publication.state?

/-- **What a run keeps**: the changes that were made known are the first of all changes, in the
order in which their states were made known. -/
theorem heard_run {s : Scene γ} {past ahead : List (WorkerState × WorkerStats)} (hpaced : s.Paced)
    (h : s.Heard past ahead) (moves : List (Move γ)) :
    s.station.worker.seenStats.Within (s.run moves).station.worker.seenStats ∧
      ∃ past' ahead', past' ++ ahead' = past ++ ahead ++ s.stateChanges moves ∧
        past'.map Prod.fst = past.map Prod.fst ++ s.toldStates moves ∧
        (s.run moves).Heard past' ahead' := by
  induction moves generalizing s past ahead with
  | nil =>
    refine ⟨.refl _, past, ahead, ?_, ?_, h⟩
    · rw [stateChanges, List.append_nil]
    · rw [toldStates, publications, List.filterMap_nil, List.append_nil]
  | cons m moves ih =>
    obtain ⟨hfirst, past', ahead', hall, hmade, hheard⟩ := h.shows (shows_perform hpaced m)
    obtain ⟨hrest, past'', ahead'', hall', hmade', hheard'⟩ := ih (paced_perform hpaced m) hheard
    refine ⟨hfirst.trans hrest, past'', ahead'', ?_, ?_, hheard'⟩
    · rw [hall', hall, stateChanges, List.append_assoc]
    · rw [hmade', hmade, toldStates, toldStates, publications, List.filterMap_append,
        List.append_assoc]

/-- **What observers see, in every run from the first tick on.**

Let an observer read the published state after some moves, and the published statistics after some
more. The states that were made known up to the first read are those of the first changes of the
state, in order, and the state that is read is the last of these; before the first of them it is
that of a worker without a graph, as it is for the worker itself. The statistics that are read are
not below the counters of the worker at any of these changes, so not below those at the change into
the state that was read. Published statistics never fall, and the worker's own are never below them.
When everything is made known, as between ticks, the published state is that of the worker; and
after a tick that ended well, or after the end of the loop over ticks, so are the published
statistics. -/
theorem observers_exact (config : WorkerConfig) (before between : List (Move γ)) :
    let s := (start config).run before
    let t := s.run between
    let changes := (start config).stateChanges before
    let told := (start config).toldStates before
    told = (changes.take told.length).map Prod.fst ∧
      s.station.worker.seenState = lastState (changes.take told.length) ∧
      s.station.worker.state = lastState changes ∧
      (∀ c ∈ changes.take told.length, c.2.Within t.station.worker.seenStats) ∧
      s.station.worker.seenStats.Within t.station.worker.seenStats ∧
      s.station.worker.seenStats.Within s.station.worker.stats ∧
      (s.station.worker.outbox = [] →
        s.station.worker.seenState = s.station.worker.state ∧
          (s.stage.hasClosed = true → s.station.worker.seenStats = s.station.worker.stats)) := by
  intro s t changes told
  obtain ⟨-, past, ahead, hall, hmade, hheard⟩ :=
    heard_run (s := start config) paced_start (.start config) before
  obtain ⟨hlater, -⟩ := heard_run (paced_run paced_start before) hheard between
  have hall : past ++ ahead = changes := hall
  have hmade : past.map Prod.fst = told := hmade
  have hpast : changes.take told.length = past := by
    rw [← hmade, ← hall, List.length_map, List.take_left]
  have hstate : s.station.worker.state = lastState changes := hall ▸ hheard.state
  rw [hpast]
  refine ⟨hmade.symm, hheard.seenState, hstate, fun c hc => (hheard.known c hc).trans hlater,
    hlater, hheard.seen_within, fun hout => ⟨?_, fun hclosed => ?_⟩⟩
  · rw [hheard.seenState, hstate, ← hall, hheard.ahead_eq_nil hout, List.append_nil]
  · rcases hheard.closed hclosed with hseen | hmem
    · exact hseen
    · rw [hout] at hmem
      cases hmem

end Scene

end Daq
