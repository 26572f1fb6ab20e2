import Daq.Proofs.Worker.Script

set_option autoImplicit false

/-!
# When a tick fails

A tick fails for one of two reasons: the thread of a graph has panicked, or no thread can be made
for the next one. The loop over ticks then lets go of all pollers, shuts down, and reports the error
as the last thing that it does, whatever the tick had left behind.

## Main definitions

* `Daq.Scene.Cause` — the two reasons.

## Main results

* `Daq.Scene.cause_of_failed` — a tick fails for these reasons only.
* `Daq.Scene.failed_run`, `Daq.Scene.over_run` — the loop over ticks ends with the error.
* `Daq.Scene.failed_last`, `Daq.Scene.failed_not_mem_of_over` — when a failure is reported, and when
  it is not.
-/

namespace Daq

variable {γ : Type}

/-- The result of a thread is an error if it has panicked. -/
lemma Scheduler.joined?_eq_error [FlowGraph γ] {x : Scheduler γ} {e : AcqError}
    (h : x.joined? = some (.error e)) :
    x.phase = .gone true ∧ e = .scheduler ("Graph '" ++ x.name ++ "' panicked") := by
  unfold joined? at h
  split at h
  · cases h
  · cases h
    exact ⟨‹_›, rfl⟩
  · cases h

/-- The error with which a start is refused says why no thread can be made. -/
lemma Scheduler.refusal_of_launch [FlowGraph γ] {refusal : Option String} {g : γ} {h h' : Hub}
    {e : AcqError} (hx : Scheduler.launch refusal g h = .refused e h') :
    ∃ why, refusal = some why ∧ e = .scheduler ("Failed to spawn execution thread: " ++ why) := by
  unfold Scheduler.launch at hx
  split at hx
  · cases hx
  · split at hx
    · cases hx
      exact ⟨_, rfl, rfl⟩
    · cases hx

namespace Control.Shift

variable {c c' : Control γ}

/-- After a tick that failed the course stays the same until another begins, or the loop ends. -/
lemma eq_of_failed (h : Shift c c') {e : AcqError} (hc : c.stage = .resting (.error e))
    (hc' : c'.stage = .resting (.error e)) : c' = c := by
  cases h with
  | stay c => rfl
  | begin last stop st g n => cases hc'
  | fail e st g n => cases hc'
  | _ => cases hc

/-- After the end the course stays the same. -/
lemma eq_of_over (h : Shift c c') {r : Except AcqError Unit} (hc : c.stage = .over r) : c' = c := by
  cases h with
  | stay c => rfl
  | _ => cases hc

/-- A graph whose thread is waited for and that is still held is still waited for. -/
lemma eq_of_joining (h : Shift c c') {aim : Aim γ} (hc : c.stage = .joining aim)
    (hc' : c'.holds = true) : c' = c := by
  cases h with
  | stay c => rfl
  | join aim st n => cases hc'
  | panicked aim e st n => cases hc'
  | _ => cases hc

/-- A tick that fails after a drain leaves the worker draining. -/
lemma draining_of_panicked (h : Shift c c') (hsane : c.Sane) {aim : Aim γ}
    (hc : c.stage = .joining aim) {e : AcqError} (hc' : c'.stage = .resting (.error e)) :
    c'.state = .draining ∧ c'.generation = c.generation := by
  unfold Sane at hsane
  rw [hc] at hsane
  cases h with
  | stay c => cases hc.symm.trans hc'
  | panicked aim e st n => exact ⟨hsane.1, rfl⟩
  | refused x e st g n => cases hc
  | _ => cases hc'

/-- When the loop ends with an error, five things at most are to be made known. -/
lemma length_issues_of_failed [FlowGraph γ] (h : Shift c c') {e : AcqError}
    (hc : c.stage = .resting (.error e)) (hc' : c'.stage = .over (.error e)) :
    (c.issues c').length ≤ 5 := by
  cases h with
  | stay c => cases hc.symm.trans hc'
  | fail e' st g n =>
    simp only [issues]
    split <;> simp
  | _ => cases hc'

end Control.Shift

namespace Scene

open Control

/-- Whether a move begins a tick by hand. -/
def Move.isTick : Move γ → Bool
  | .tick => true
  | _ => false

/-- Whether a move is a step of the lifecycle thread. -/
def Move.isAdvance : Move γ → Bool
  | .advance => true
  | _ => false

variable [FlowGraph γ] {s : Scene γ}

/-! ### Why a tick fails -/

/-- Why a tick fails. -/
inductive Cause (s : Scene γ) : AcqError → Prop where
  /-- The thread that is waited for has panicked. -/
  | panicked (x : Scheduler γ) (aim : Aim γ) (stage : s.stage = .joining aim)
      (held : s.station.worker.scheduler = some x) (gone : x.phase = .gone true) :
      s.Cause (.scheduler ("Graph '" ++ x.name ++ "' panicked"))
  /-- No thread can be made for a graph. -/
  | refused (g : γ) (why : String) (stage : s.stage = .starting g)
      (refusal : s.station.refusal = some why) :
      s.Cause (.withContext ("Failed to start graph '" ++ FlowGraph.name g ++ "'")
        (.scheduler ("Failed to spawn execution thread: " ++ why)))

/-- A thread that is waited for and makes the step fail has panicked. -/
lemma cause_of_joining {aim : Aim γ} (hstage : s.stage = .joining aim) {e : AcqError}
    (hout : s.station.worker.outbox = [])
    (hfail : s.station.step.worker.stage = .resting (.error e)) :
    s.station.step.worker.outbox = [] ∧ s.Cause e := by
  have hstage' : s.station.worker.stage = .joining aim := hstage
  simp only [Station.step, hout, hstage', Station.stepJoining] at hfail ⊢
  split at hfail
  · cases hstage'.symm.trans hfail
  · cases hfail
  · rename_i e' hjoined
    obtain ⟨x, hx, he⟩ := Option.bind_eq_some_iff.mp hjoined
    obtain ⟨hgone, rfl⟩ := Scheduler.joined?_eq_error he
    cases hfail
    refine ⟨?_, .panicked x aim hstage hx hgone⟩
    cases aim <;> exact hout

/-- A start that makes the step fail was refused. -/
lemma cause_of_starting {g : γ} (hstage : s.stage = .starting g) {e : AcqError}
    (hout : s.station.worker.outbox = [])
    (hfail : s.station.step.worker.stage = .resting (.error e)) :
    s.station.step.worker.outbox = [] ∧ s.Cause e := by
  have hstage' : s.station.worker.stage = .starting g := hstage
  simp only [Station.step, hout, hstage', Station.stepStarting] at hfail ⊢
  split at hfail
  · cases hfail
  · rename_i e' hub hlaunch
    obtain ⟨why, hwhy, rfl⟩ := Scheduler.refusal_of_launch hlaunch
    cases hfail
    exact ⟨hout, .refused g why hstage hwhy⟩
  · cases hfail

/-- **A tick fails for these reasons only**, in a step of the lifecycle thread, and with everything
made known. -/
theorem cause_of_failed (h : s.Paced) {m : Move γ} {e : AcqError}
    (hnot : s.stage ≠ .resting (.error e)) (hfail : (s.perform m).stage = .resting (.error e)) :
    m = .advance ∧ (s.perform m).station.worker.outbox = [] ∧ s.Cause e := by
  have hshift := shift_perform h m
  -- The step is one of two on the list.
  have hstage : (∃ aim, s.stage = .joining aim) ∨ ∃ g, s.stage = .starting g := by
    change (s.perform m).control.stage = _ at hfail
    change (∃ aim, s.control.stage = .joining aim) ∨ ∃ g, s.control.stage = .starting g
    change s.control.stage ≠ _ at hnot
    generalize s.control = c, (s.perform m).control = c' at hshift hfail hnot
    cases hshift with
    | stay c => exact absurd hfail hnot
    | panicked aim e st n => exact .inl ⟨aim, rfl⟩
    | refused g e st h n => exact .inr ⟨g, rfl⟩
    | _ => cases hfail
  have hdue : s.station.pass? = none := by
    by_contra hne
    obtain ⟨flush, hflush⟩ := Option.ne_none_iff_exists'.mp hne
    rcases (Station.pass?_eq_some hflush).2 with ⟨stop, hother, -⟩ | ⟨aim', passes, hother⟩ <;>
      rcases hstage with ⟨aim, hstage⟩ | ⟨g, hstage⟩ <;> cases hother.symm.trans hstage
  have hrest : s.station.worker.isAtRest = false := by
    unfold Worker.isAtRest
    rcases hstage with ⟨aim, hstage⟩ | ⟨g, hstage⟩ <;>
      rw [show s.station.worker.stage = _ from hstage]
  have hforeign : m.isForeign = true → False := fun hm =>
    hnot ((stage_eq_of_control (s.apart_perform hm).control).symm.trans hfail)
  obtain rfl : m = .advance := by
    cases m with
    | advance => rfl
    | tick =>
      simp only [perform, withStation, tick] at hfail
      split at hfail
      · cases hfail
      · exact absurd hfail hnot
    | resume =>
      simp only [perform, withStation, hrest] at hfail
      exact absurd hfail hnot
    | _ => exact (hforeign rfl).elim
  rw [perform_advance_of_pass? h hdue] at hfail ⊢
  have hout : s.station.worker.outbox = [] := by
    by_contra hne
    exact hnot ((Station.stage_step_of_outbox hne).symm.trans hfail)
  rcases hstage with ⟨aim, hstage⟩ | ⟨g, hstage⟩
  · exact ⟨rfl, cause_of_joining hstage hout hfail⟩
  · exact ⟨rfl, cause_of_starting hstage hout hfail⟩

/-! ### The loop over ticks after a tick has failed -/

/-- After a tick that failed, everything is made known. -/
lemma outbox_failed_run (config : WorkerConfig) (moves : List (Move γ)) {e : AcqError}
    (hstage : ((start config).run moves).stage = .resting (.error e)) :
    ((start config).run moves).station.worker.outbox = [] := by
  induction moves using List.reverseRecOn with
  | nil => cases hstage
  | append_singleton moves m ih =>
    rw [run_append] at hstage ⊢
    generalize hs : (start config : Scene γ).run moves = s at hstage ih ⊢
    have hpaced : s.Paced := hs ▸ paced_run paced_start moves
    by_cases hbefore : s.stage = .resting (.error e)
    · have hsame : (s.perform m).control = s.control :=
        (shift_perform hpaced m).eq_of_failed hbefore hstage
      have hpublished := published_append_outbox hpaced m
      rw [ih hbefore, hsame, issues_self, List.append_nil] at hpublished
      exact (List.append_eq_nil_iff.mp hpublished).2
    · exact (cause_of_failed hpaced hbefore hstage).2.1

/-- When the loop over ticks goes on after a tick that failed, it ends, with at most five things to be
made known. -/
lemma resume_of_failed (h : s.Paced) {e : AcqError} (hstage : s.stage = .resting (.error e))
    (hout : s.station.worker.outbox = []) :
    (s.perform .resume).stage = .over (.error e) ∧
      (s.perform .resume).station.worker.outbox.length ≤ 5 := by
  have hstage' : s.station.worker.stage = .resting (.error e) := hstage
  have hrest : s.station.worker.isAtRest = true := by simp [Worker.isAtRest, hstage', hout]
  have hover : (s.perform .resume).stage = .over (.error e) := by
    simp [perform, withStation, hrest, Station.resume, hstage', stage, Station.withWorker]
  refine ⟨hover, ?_⟩
  have hpublished := published_append_outbox h .resume
  rw [hout, List.nil_append] at hpublished
  rw [show (s.perform .resume).station.worker.outbox = _ from hpublished]
  exact (shift_perform h .resume).length_issues_of_failed hstage hover

/-- After a tick that failed nothing happens before the loop over ticks goes on. -/
lemma perform_of_failed (h : s.Paced) {e : AcqError} (hstage : s.stage = .resting (.error e))
    (hout : s.station.worker.outbox = []) {m : Move γ} (hm : m.isTick = false) :
    (s.perform m).stage = .resting (.error e) ∧ (s.perform m).station.worker.outbox = [] ∨
      m = .resume := by
  have hstage' : s.station.worker.stage = .resting (.error e) := hstage
  have hforeign : m.isForeign = true → (s.perform m).stage = .resting (.error e) ∧
      (s.perform m).station.worker.outbox = [] := fun hf =>
    ⟨(stage_eq_of_control (s.apart_perform hf).control).trans hstage,
      (s.apart_perform hf).outbox.trans hout⟩
  cases m with
  | advance =>
    have hdue : s.station.pass? = none := by simp [Station.pass?, hout, hstage']
    have hstep : s.station.step = s.station := by simp only [Station.step, hout, hstage']
    rw [perform_advance_of_pass? h hdue, hstep]
    exact .inl ⟨hstage, hout⟩
  | tick => cases hm
  | resume => exact .inr rfl
  | _ => exact .inl (hforeign rfl)

/-- After the end the lifecycle thread only makes known what is still to be. -/
lemma over_run (h : s.Paced) {r : Except AcqError Unit} (hstage : s.stage = .over r)
    (moves : List (Move γ)) :
    (s.run moves).control = s.control ∧ s.decided moves = [] ∧
      (s.run moves).station.worker.outbox =
        s.station.worker.outbox.drop (moves.countP Move.isAdvance) := by
  induction moves generalizing s with
  | nil => exact ⟨rfl, rfl, rfl⟩
  | cons m moves ih =>
    have hsame : (s.perform m).control = s.control := (shift_perform h m).eq_of_over hstage
    have hpublished := published_append_outbox h m
    rw [hsame, issues_self, List.append_nil] at hpublished
    have hout : (s.perform m).station.worker.outbox =
        s.station.worker.outbox.drop (if m.isAdvance then 1 else 0) := by
      cases m with
      | advance =>
        have hsplit : s.station.worker.outbox.take 1 ++ (s.perform .advance).station.worker.outbox =
            s.station.worker.outbox.take 1 ++ s.station.worker.outbox.drop 1 := by
          rw [List.take_append_drop]
          exact hpublished
        exact List.append_cancel_left hsplit
      | _ => exact hpublished
    obtain ⟨hcontrol, hnone, hrest⟩ := ih (paced_perform h m)
      ((stage_eq_of_control hsame).trans hstage)
    refine ⟨hcontrol.trans hsame, ?_, ?_⟩
    · rw [decided, hnone, List.append_nil, hsame, news, issues_self]
      rfl
    · rw [List.countP_cons, Nat.add_comm, ← List.drop_drop, ← hout]
      exact hrest

/-- **The loop over ticks ends with the error of the tick that failed**: before it goes on nothing
happens, and when it does, five steps at most are left. -/
theorem failed_run (h : s.Paced) {e : AcqError} (hstage : s.stage = .resting (.error e))
    (hout : s.station.worker.outbox = []) :
    (∀ moves : List (Move γ), (∀ m ∈ moves, m.isTick = false) →
      (s.run moves).stage = .resting (.error e) ∨ (s.run moves).stage = .over (.error e)) ∧
    ∀ moves : List (Move γ), 5 ≤ moves.countP Move.isAdvance →
      ((s.perform .resume).run moves).stage = .over (.error e) ∧
        ((s.perform .resume).run moves).station.hasEnded = true := by
  refine ⟨?_, ?_⟩
  · intro moves hmoves
    induction moves generalizing s with
    | nil => exact .inl hstage
    | cons m moves ih =>
      have hrest : ∀ m' ∈ moves, m'.isTick = false := fun m' hm' =>
        hmoves m' (List.mem_cons_of_mem m hm')
      have hpaced := paced_perform h m
      rcases perform_of_failed h hstage hout (hmoves m List.mem_cons_self) with ⟨hsame, hempty⟩ | rfl
      · exact ih hpaced hsame hempty hrest
      · obtain ⟨hover, -⟩ := resume_of_failed h hstage hout
        exact .inr ((stage_eq_of_control (over_run hpaced hover moves).1).trans hover)
  · intro moves hmoves
    obtain ⟨hover, hlength⟩ := resume_of_failed h hstage hout
    obtain ⟨hcontrol, -, hleft⟩ := over_run (paced_perform h .resume) hover moves
    have hstage' := (stage_eq_of_control hcontrol).trans hover
    refine ⟨hstage', ?_⟩
    have hempty : ((s.perform .resume).run moves).station.worker.outbox = [] := by
      rw [hleft, List.drop_eq_nil_iff]
      omega
    unfold Station.hasEnded
    rw [show ((s.perform .resume).run moves).station.worker.stage = _ from hstage', hempty]
    rfl

/-! ### The end -/

section End

variable {config : WorkerConfig} {moves : List (Move γ)}

/-- When everything is made known, what was reported is what the course of the run gave rise to. -/
lemma reports_eq_decided (hout : ((start config).run moves).station.worker.outbox = []) :
    (start config).reports moves = (start config).decided moves := by
  have hreports : (start config).reports moves ++ ((start config).run moves).due =
      (start config).decided moves := reports_start
  rw [due, hout] at hreports
  rw [← hreports]
  exact (List.append_nil _).symm

/-- The error with which the loop ends is the one of a tick that failed. -/
lemma exists_failed {e : AcqError} (hstage : ((start config).run moves).stage = .over (.error e)) :
    ∃ i < moves.length, (past config moves i).stage = .resting (.error e) := by
  induction moves using List.reverseRecOn with
  | nil => cases hstage
  | append_singleton moves m ih =>
    have hpaced : ((start config : Scene γ).run moves).Paced := paced_run paced_start moves
    have hlength : (moves ++ [m]).length = moves.length + 1 := by simp
    rw [run_append] at hstage
    rcases (shift_perform hpaced m).failed hstage with hover | hfailed
    · obtain ⟨i, hi, hfailed⟩ := ih hover
      refine ⟨i, by omega, ?_⟩
      rw [past_append hi.le]
      exact hfailed
    · refine ⟨moves.length, by omega, ?_⟩
      rw [past_append le_rfl, past_length]
      exact hfailed

/-- Where the loop has ended, the worker is shut down and holds no graph. -/
lemma shuttingDown_of_over {r : Except AcqError Unit}
    (hstage : ((start config).run moves).stage = .over r) :
    ((start config).run moves).control.state = .shuttingDown ∧
      ((start config).run moves).control.holds = false := by
  have hsane : ((start config : Scene γ).run moves).control.Sane :=
    sane_run paced_start sane_start moves
  have htold := told_run config moves
  have hst : ((start config).run moves).control.state = .shuttingDown := by
    unfold Told at htold
    rw [show ((start config).run moves).control.stage = .over r from hstage] at htold
    cases r with
    | ok _ => exact htold.1
    | error e => exact htold.1
  exact ⟨hst, (hsane.free hst).1⟩

/-- **A failure is the last thing that is reported**: where the loop has ended with an error and
everything is made known, the failure was reported once, and nothing is reported any more. -/
theorem failed_last {e : AcqError} (hstage : ((start config).run moves).stage = .over (.error e))
    (hout : ((start config).run moves).station.worker.outbox = []) :
    (∃ before, (start config).reports moves = before ++ [.failed e.message] ∧
      ∀ message, .failed message ∉ before) ∧
    ∀ more, (start config).reports (moves ++ more) = (start config).reports moves := by
  have hes : (start config).reports moves = (start config).decided moves := reports_eq_decided hout
  have htold := told_run config moves
  unfold Told at htold
  rw [show ((start config).run moves).control.stage = .over (.error e) from hstage] at htold
  obtain ⟨-, story, st, hstory, hled⟩ := htold
  refine ⟨⟨story ++ [.stateChanged st .shuttingDown], ?_, ?_⟩, ?_⟩
  · rw [hes, hstory, List.append_assoc]
    rfl
  · intro message
    simpa using hled.failed_not_mem message
  · intro more
    have hpaced : ((start config : Scene γ).run moves).Paced := paced_run paced_start moves
    obtain ⟨-, hnone, hleft⟩ := over_run hpaced hstage more
    rw [hout, List.drop_nil] at hleft
    have hrun : (start config).run (moves ++ more) = ((start config).run moves).run more :=
      List.foldl_append
    rw [reports_eq_decided (by rw [hrun, hleft]), decided_append, hnone, List.append_nil, hes]

/-- Where the loop has ended well, no failure was reported. -/
theorem failed_not_mem_of_over (hstage : ((start config).run moves).stage = .over (.ok ()))
    (message : String) : .failed message ∉ (start config).reports moves := by
  have htold := told_run config moves
  unfold Told at htold
  rw [show ((start config).run moves).control.stage = .over (.ok ()) from hstage] at htold
  intro hfailed
  refine htold.2.failed_not_mem message ?_
  rw [← reports_start]
  exact List.mem_append_left _ hfailed

end End

end Scene

end Daq
