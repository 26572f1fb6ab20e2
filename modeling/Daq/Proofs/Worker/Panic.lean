import Daq.Proofs.Worker.Failure

set_option autoImplicit false

/-!
# When the thread of a graph panics

The thread of a graph that has panicked stays as it is until it is joined, and it is joined after a
drain. So the graph is drained like any other, what its pollers had accepted is handed out, and only
then the tick fails. The loop over ticks reports the error as the last thing that it does, and the
graph is never reported as stopped.

## Main definitions

* `Daq.Station.Failing` — the thread of the graph that is held has panicked.
* `Daq.Control.Doomed` — a tick has failed after a drain.

## Main results

* `Daq.Scene.failing_run` — a thread that has panicked makes a tick fail.
* `Daq.Scene.handed_past` — when a drain is over, the answers to all that was accepted were handed
  out.
* `Daq.Scene.reports_of_panic`, `Daq.Scene.drained_of_panic` — what is reported of a graph that
  panicked, and what was handed out before.
* `Daq.Scene.failure_fatal` — what holds after a tick has failed.
-/

namespace Daq

variable {γ : Type}

/-! ### A thread that has panicked -/

namespace Station

variable [FlowGraph γ]

/-- The thread of the graph that is held has ended with an error. -/
def Failing (s : Station γ) (e : AcqError) : Prop :=
  s.worker.scheduler.bind Scheduler.joined? = some (.error e)

variable {s : Station γ} {e : AcqError}

/-- What leaves the graph alone leaves the thread as it is. -/
lemma Failing.of_eq {t : Station γ} (h : s.Failing e)
    (hsame : t.worker.scheduler = s.worker.scheduler) : t.Failing e := by
  unfold Failing
  rw [hsame]
  exact h

/-- A thread that has ended with an error stays as it is until it is joined, and then it makes the
tick fail. -/
lemma Failing.step (h : s.Failing e) (hfree : ∀ g, s.worker.stage ≠ .starting g) :
    s.step.Failing e ∨
      (∃ aim, s.worker.stage = .joining aim) ∧ s.step.worker.stage = .resting (.error e) := by
  by_cases hout : s.worker.outbox = []
  · rcases (frame_step hout).scheduler with
      hsame | ⟨aim, hstage⟩ | ⟨aim, hstage⟩ | ⟨g, hstage⟩
    · exact .inl (h.of_eq hsame)
    · -- To ask for a stop changes nothing any more.
      refine .inl ?_
      unfold Failing at h ⊢
      obtain ⟨x, hx, hjoined⟩ := Option.bind_eq_some_iff.mp h
      simp only [Station.step, hout, hstage, stepAsking, withWorker, hx, Option.map_some,
        Option.bind_some]
      exact hjoined
    · refine .inr ⟨⟨aim, hstage⟩, ?_⟩
      simp only [Station.step, hout, hstage, stepJoining]
      rw [h]
      rfl
    · exact absurd hstage (hfree g)
  · refine .inl (h.of_eq ?_)
    obtain ⟨p, rest, hout⟩ := List.exists_cons_of_ne_nil hout
    simp only [Station.step, hout]
    cases p <;> rfl

/-- The execution thread does nothing any more. -/
lemma Failing.execute (h : s.Failing e) : s.execute.Failing e := by
  obtain ⟨x, hx, hjoined⟩ := Option.bind_eq_some_iff.mp h
  have hstep : (x.step s.hub).1 = x := by
    simp only [Scheduler.step, (Scheduler.joined?_eq_error hjoined).1]
  unfold Failing Station.execute
  simp only [hx, Option.bind_some]
  rw [hstep]
  exact hjoined

end Station

namespace Scene

variable [FlowGraph γ] {s : Scene γ} {e : AcqError}

/-- **A thread that has panicked makes a tick fail**: it stays as it is until it is joined. -/
theorem failing_perform (hsane : s.control.Sane) (h : s.station.Failing e)
    (m : Move γ) :
    (s.perform m).station.Failing e ∨
      (∃ aim, s.stage = .joining aim) ∧ (s.perform m).stage = .resting (.error e) := by
  obtain ⟨x, hx, hjoined⟩ := Option.bind_eq_some_iff.mp h
  have hfree : ∀ g, s.station.worker.stage ≠ .starting g := by
    intro g hstage
    unfold Control.Sane at hsane
    rw [show s.control.stage = .starting g from hstage] at hsane
    cases hsane.2.symm.trans (congrArg Option.isSome hx)
  cases m with
  | advance =>
    simp only [perform, advance]
    split
    · exact .inl (h.of_eq (s.scheduler_walkOn _))
    · split
      · exact .inl h
      · exact h.step hfree
  | tick =>
    simp only [perform, withStation, tick]
    split <;> exact .inl h
  | resume =>
    simp only [perform, withStation]
    split
    · refine .inl (h.of_eq ?_)
      unfold Station.resume
      split
      · split <;> rfl
      · exact Worker.scheduler_transition _ _
      · rfl
    · exact .inl h
  | execute => exact .inl h.execute
  | conclude g phase =>
    refine .inl ?_
    have hgone : x.isGone = true := by
      simp only [Scheduler.isGone, (Scheduler.joined?_eq_error hjoined).1]
    simp only [perform, withStation, conclude, Station.Failing, Station.withWorker, hx,
      Option.map_some, hgone, if_true, Option.bind_some]
    exact hjoined
  | _ => exact .inl h

/-- **A thread that has panicked is held until it makes a tick fail.** -/
theorem failing_run (hpaced : s.Paced) (hsane : s.control.Sane) (h : s.station.Failing e)
    (moves : List (Move γ)) :
    (s.run moves).station.Failing e ∨ ∃ k < moves.length,
      (∀ t ≤ k, (s.run (moves.take t)).station.Failing e) ∧
        (∃ aim, (s.run (moves.take k)).stage = .joining aim) ∧
          (s.run (moves.take (k + 1))).stage = .resting (.error e) := by
  induction moves generalizing s with
  | nil => exact .inl h
  | cons m moves ih =>
    have hnow : ∀ t ≤ 0, (s.run ((m :: moves).take t)).station.Failing e := by
      intro t ht
      obtain rfl : t = 0 := by omega
      exact h
    rcases failing_perform hsane h m with hnext | ⟨hjoining, hfailed⟩
    · rcases ih (paced_perform hpaced m) ((shift_perform hpaced m).sane hsane) hnext with
        hall | ⟨k, hk, hbefore, hjoining, hfailed⟩
      · exact .inl hall
      · refine .inr ⟨k + 1, Nat.succ_lt_succ hk, ?_, hjoining, hfailed⟩
        intro t ht
        cases t with
        | zero => exact h
        | succ t => exact hbefore t (Nat.le_of_succ_le_succ ht)
    · exact .inr ⟨0, Nat.succ_pos _, hnow, hjoining, hfailed⟩

end Scene

/-! ### The end after a drain -/

namespace Control

/-- A tick has failed after a drain, with these events so far and this many graphs started; the loop
over ticks will end with the error, or has. -/
def Doomed (e : AcqError) (g : Nat) (es : List WorkerEvent) (c : Control γ)
    (es' : List WorkerEvent) : Prop :=
  c.generation = g ∧
    ((c.stage = .resting (.error e) ∧ c.state = .draining ∧ es' = es) ∨
      (c.stage.isOpen = true ∧ c.state = .draining) ∨
      c.stage = .over (.error e) ∧
        es' = es ++ [.stateChanged .draining .shuttingDown, .failed e.message])

/-- **A worker that is doomed stays so.** Only a tick by hand can keep it from its end. -/
lemma Shift.doomed [FlowGraph γ] {c c' : Control γ} (h : Shift c c') {e : AcqError} {g : Nat}
    {es es' : List WorkerEvent} (hc : Doomed e g es c es') :
    Doomed e g es c' (es' ++ c.news c') := by
  obtain ⟨hg, hc⟩ := hc
  cases h with
  | stay c => exact ⟨hg, by simpa [news] using hc⟩
  | begin last stop st h n =>
    rcases hc with ⟨-, hst, -⟩ | ⟨-, hst⟩ | ⟨hover, -⟩
    · exact ⟨hg, .inr (.inl ⟨rfl, hst⟩)⟩
    · exact ⟨hg, .inr (.inl ⟨rfl, hst⟩)⟩
    · cases hover
  | fail e' st h n =>
    rcases hc with ⟨hstage, hst, rfl⟩ | ⟨hopen, -⟩ | ⟨hover, -⟩
    · dsimp only at hst
      subst hst
      cases hstage
      exact ⟨hg, .inr (.inr ⟨rfl, rfl⟩)⟩
    · cases hopen
    · cases hover
  | skip stop st h n hidle hrunning =>
    rcases hc with ⟨hstage, -⟩ | ⟨-, hst⟩ | ⟨hover, -⟩
    · cases hstage
    · exact ⟨hg, .inr (.inl ⟨rfl, hst⟩)⟩
    · cases hover
  | close st h n =>
    rcases hc with ⟨hstage, -⟩ | ⟨-, hst⟩ | ⟨hover, -⟩
    · cases hstage
    · exact ⟨hg, .inr (.inl ⟨rfl, hst⟩)⟩
    · cases hover
  | _ => simp [Stage.isOpen] at hc

end Control

namespace Scene

open Control

variable [FlowGraph γ] {s : Scene γ}

/-- A worker that is doomed stays so, whatever anyone does. -/
lemma doomed_run (h : s.Paced) {e : AcqError} {g : Nat} {es es' : List WorkerEvent}
    (hs : Doomed e g es s.control es') (moves : List (Move γ)) :
    Doomed e g es (s.run moves).control (es' ++ s.decided moves) := by
  induction moves generalizing s es' with
  | nil =>
    rw [decided, List.append_nil]
    exact hs
  | cons m moves ih =>
    rw [decided, ← List.append_assoc]
    exact ih (paced_perform h m) ((shift_perform h m).doomed hs)

/-! ### What was handed out before -/

section Past

variable {config : WorkerConfig} {moves : List (Move γ)}

/-- The next scene of the past. -/
lemma past_succ {i : Nat} (hi : i < moves.length) :
    past config moves (i + 1) = (past config moves i).perform moves[i] := by
  unfold past
  rw [← List.take_append_getElem hi, run_append]

/-- A scene of the past in which a thread has panicked. -/
lemma holds_of_failing {e : AcqError} (h : s.station.Failing e) : s.control.holds = true := by
  obtain ⟨x, hx, -⟩ := Option.bind_eq_some_iff.mp h
  exact congrArg Option.isSome hx

/-- A thread is waited for as long as its graph is held. -/
lemma joining_past {i j : Nat} (hij : i ≤ j) (hj : j ≤ moves.length) {aim : Aim γ}
    (hstage : (past config moves i).stage = .joining aim)
    (hholds : ∀ t, i ≤ t → t ≤ j → (past config moves t).control.holds = true) :
    (past config moves j).stage = .joining aim := by
  induction j, hij using Nat.le_induction with
  | base => exact hstage
  | succ t hit ih =>
    have hbefore := ih (by omega) fun u hu hut => hholds u hu (by omega)
    have hpaced : (past config moves t).Paced := paced_run paced_start _
    have hnext := hholds (t + 1) (by omega) le_rfl
    rw [past_succ (by omega)] at hnext ⊢
    have hsame := (shift_perform hpaced moves[t]).eq_of_joining hbefore hnext
    exact (stage_eq_of_control hsame).trans hbefore

variable [LawfulGraph γ]

/-- Before a thread is waited for, it is waited for already or the drain of its graph is over, and no
graph is started in between, for one is held. -/
lemma before_joining {m : Move γ} {aim : Aim γ}
    (hstage : (((start config).run moves).perform m).stage = .joining aim) :
    (((start config).run moves).stage = .joining aim ∨
      ∃ passes, ((start config).run moves).stage = .drained aim passes) ∧
    (((start config).run moves).perform m).control.generation =
      ((start config).run moves).control.generation := by
  have hs := (orderly_start config).run moves (γ := γ)
  have hbefore : ((start config).run moves).stage = .joining aim ∨
      ∃ passes, ((start config).run moves).stage = .drained aim passes := by
    have hfaithful := (Chronicle.faithful_start config).run moves (γ := γ)
    have hjoining : (((Chronicle.start config).run moves).perform m).scene.stage = .joining aim := by
      rw [Chronicle.perform, Chronicle.scene_run]
      exact hstage
    have hdrained := (hfaithful.drained_of_joining hjoining).2
    rw [Chronicle.scene_run] at hdrained
    exact hdrained.imp_right And.right
  have hholds : ((start config).run moves).control.holds = true := by
    have hsane := hs.sane
    unfold Sane at hsane
    rcases hbefore with hbefore | ⟨passes, hbefore⟩
    · rw [show ((start config).run moves).control.stage = _ from hbefore] at hsane
      exact hsane.2
    · rw [show ((start config).run moves).control.stage = _ from hbefore] at hsane
      exact hsane.2
  refine ⟨hbefore, ?_⟩
  rw [(shift_perform hs.paced m).generation hs.sane, hholds]
  simp

/-- **A thread that is waited for belongs to a graph that was drained**, and it has been waited for
since. -/
lemma exists_drained {aim : Aim γ} (hstage : ((start config).run moves).stage = .joining aim) :
    ∃ j < moves.length, (∃ passes, (past config moves j).stage = .drained aim passes) ∧
      (past config moves j).control.generation = ((start config).run moves).control.generation ∧
      ∀ t, j < t → t ≤ moves.length → (past config moves t).stage = .joining aim := by
  induction moves using List.reverseRecOn with
  | nil => cases hstage
  | append_singleton moves m ih =>
    have hlength : (moves ++ [m]).length = moves.length + 1 := by simp
    have hnow : ∀ t, moves.length < t → t ≤ (moves ++ [m]).length →
        (past config (moves ++ [m]) t).stage = .joining aim := by
      intro t hlt hle
      obtain rfl : t = (moves ++ [m]).length := by omega
      rw [past_length]
      exact hstage
    rw [run_append] at hstage ⊢
    obtain ⟨hbefore | hdrained, hgeneration⟩ := before_joining hstage
    · obtain ⟨j, hj, hdrained, hsame, hsince⟩ := ih hbefore
      refine ⟨j, by omega, ?_, ?_, ?_⟩
      · rw [past_append hj.le]
        exact hdrained
      · rw [past_append hj.le, hsame, hgeneration]
      · intro t hjt ht
        rcases Nat.lt_or_ge moves.length t with hlt | hle
        · exact hnow t hlt ht
        · rw [past_append hle]
          exact hsince t hjt hle
    · refine ⟨moves.length, by omega, ?_, ?_, hnow⟩
      · rw [past_append le_rfl, past_length]
        exact hdrained
      · rw [past_append le_rfl, past_length, hgeneration]

/-- The poller of a key is let go at the end of a pass that has not visited it. -/
def Swept (s : Scene γ) (k : PollerKey) (p : PollerRef) : Prop :=
  ∃ w e, s.walk = some w ∧ w.current = none ∧ w.todo = [] ∧ s.reconciler.held? k = some e ∧
    e.poller = p ∧ e.inUse = false

/-- A poller stays, or is swept, or is let go because a drain is over, and then the thread is waited
for. -/
lemma poller?_perform (hs : s.Orderly) (hw : s.hub.WellFormed) (m : Move γ) {k : PollerKey}
    {p : PollerRef} (hp : s.reconciler.poller? k = some p) :
    (s.perform m).reconciler.poller? k = some p ∨ s.Swept k p ∨
      ∃ aim, (s.perform m).stage = .joining aim := by
  have hfate := hs.fate hw m k
  have hdeed := hs.deed m
  generalize s.perform m = s' at hfate hdeed
  cases hfate with
  | kept same => exact .inl (same.trans hp)
  | opened q move due missing opened fresh => cases missing.symm.trans hp
  | evicted w e move walk last held unused gone =>
    refine .inr (.inl ⟨w, e, walk, last.1, last.2, held, ?_, unused⟩)
    rw [Reconciler.poller?, held] at hp
    exact Option.some.inj hp
  | cleared aim passes move stage gone =>
    cases hdeed with
    | aside still walk hub reconciler joining drained =>
      rw [reconciler, hp] at gone
      cases gone
    | begin flush still due => exact absurd stage ((hs.holds_of_due due).2.2 aim passes)
    | onward w walk => cases (hs.walk_of_drained stage).symm.trans walk
    | clear aim' passes' still still' stage' joining clear => exact .inr (.inr ⟨aim', joining⟩)

/-- Up to the end of the drain, a poller of a thread that has panicked is let go by being swept only. -/
lemma poller?_past {i j : Nat} (hij : i ≤ j) (hj : j ≤ moves.length)
    (hholds : ∀ t, i ≤ t → t ≤ j → (past config moves t).control.holds = true)
    (hstage : ∀ aim, (past config moves j).stage ≠ .joining aim) {k : PollerKey} {p : PollerRef}
    (hp : (past config moves i).reconciler.poller? k = some p) :
    (past config moves j).reconciler.poller? k = some p ∨
      ∃ t, i ≤ t ∧ t < j ∧ (past config moves t).Swept k p := by
  have hall : ∀ t, i ≤ t → t ≤ j → (past config moves t).reconciler.poller? k = some p ∨
      ∃ u, i ≤ u ∧ u < t ∧ (past config moves u).Swept k p := by
    intro t hit
    induction t, hit using Nat.le_induction with
    | base => exact fun _ => .inl hp
    | succ t hit ih =>
      intro htj
      rcases ih (by omega) with hkept | ⟨u, hiu, hut, hswept⟩
      · have hs : (past config moves t).Orderly := (orderly_start config).run _
        have hw : (past config moves t).hub.WellFormed := (sound_run config _).wellFormed
        have hnext := poller?_perform hs hw moves[t] hkept
        rw [← past_succ (by omega)] at hnext
        rcases hnext with hkept' | hswept | ⟨aim, hjoining⟩
        · exact .inl hkept'
        · exact .inr ⟨t, hit, Nat.lt_succ_self t, hswept⟩
        · exact absurd (joining_past htj hj hjoining fun u hu => hholds u (by omega)) (hstage aim)
      · exact .inr ⟨u, hiu, by omega, hswept⟩
  exact hall j hij le_rfl

/-- The books of a worker after some of its moves. -/
def books (config : WorkerConfig) (moves : List (Move γ)) (i : Nat) : Books :=
  ((Chronicle.start config : Chronicle γ).run (moves.take i)).books

omit [LawfulGraph γ] in
/-- What has arrived stays in the books. -/
lemma arrived_le {i j : Nat} (hij : i ≤ j) (p : PollerRef) :
    (books config moves i).arrived p <+: (books config moves j).arrived p := by
  induction j, hij using Nat.le_induction with
  | base => exact List.prefix_rfl
  | succ t hit ih =>
    refine ih.trans ?_
    rcases Nat.lt_or_ge t moves.length with hlt | hge
    · have hstep : books config moves (t + 1) =
          (((Chronicle.start config).run (moves.take t)).perform moves[t]).books := by
        unfold books
        rw [← List.take_append_getElem hlt, Chronicle.run, Chronicle.run, List.foldl_append]
        rfl
      rw [hstep, Chronicle.perform]
      dsimp only
      rw [Books.arrived_handOut]
      exact List.prefix_append _ _
    · unfold books
      rw [List.take_of_length_le hge, List.take_of_length_le (by omega)]

/-- **When a drain is over, the answers to all that the pollers ever accept were handed out.** -/
lemma handed_past {j : Nat} {aim : Aim γ} {passes : Nat}
    (hstage : (past config moves j).stage = .drained aim passes) {k : PollerKey} {p : PollerRef}
    (hp : (past config moves j).reconciler.poller? k = some p) :
    ((books config moves j).handed p).map (fun n => n.reply) =
        (answers (.unknown k.signal) ((books config moves j).arrived p)).1 ∧
      ∀ t, (books config moves t).arrived p <+: (books config moves j).arrived p := by
  have hc := (Chronicle.faithful_start config).run (moves.take j) (γ := γ)
  have hscene := (Chronicle.start config).scene_run (moves.take j) (γ := γ)
  obtain ⟨e, he, rfl⟩ := Option.map_eq_some_iff.mp hp
  rw [← show (Chronicle.start config).scene.run (moves.take j) = past config moves j from rfl,
    ← hscene] at hstage he
  refine ⟨hc.handed_of_drained hstage he, ?_⟩
  intro t
  rcases Nat.le_total t j with htj | hjt
  · exact arrived_le htj e.poller
  · obtain ⟨hstopped, -⟩ := hc.drained aim passes hstage k e he
    have hsilent := hc.arrived_run hstopped ((moves.drop j).take (t - j))
    have hrun : ((Chronicle.start config).run (moves.take j)).run ((moves.drop j).take (t - j)) =
        (Chronicle.start config : Chronicle γ).run (moves.take t) := by
      rw [show t = j + (t - j) by omega, List.take_add, Nat.add_sub_cancel_left]
      unfold Chronicle.run
      rw [List.foldl_append]
    have hsame : (books config moves t).arrived e.poller = (books config moves j).arrived e.poller := by
      unfold books
      rw [← hrun]
      exact hsilent
    rw [hsame]

end Past

/-! ### The end of a thread that has panicked -/

section End

variable {config : WorkerConfig} {moves : List (Move γ)}

/-- **A thread that has panicked is joined before the loop ends**, and makes a tick fail. -/
lemma exists_panic {i : Nat} {e : AcqError} {r : Except AcqError Unit}
    (h : (past config moves i).station.Failing e)
    (hover : ((start config).run moves).stage = .over r) :
    ∃ k, i ≤ k ∧ k < moves.length ∧
      (∀ t, i ≤ t → t ≤ k → (past config moves t).station.Failing e) ∧
      (∃ aim, (past config moves k).stage = .joining aim) ∧
      (past config moves (k + 1)).stage = .resting (.error e) := by
  have hpaced : (past config moves i).Paced := paced_run paced_start _
  have hsane : (past config moves i).control.Sane := sane_run paced_start sane_start _
  have hlater : ∀ t, (past config moves i).run ((moves.drop i).take t) =
      past config moves (i + t) := by
    intro t
    unfold past run
    rw [List.take_add, List.foldl_append]
  rcases failing_run hpaced hsane h (moves.drop i) with hnow | ⟨k, hk, hbefore, ⟨aim, hjoining⟩, hfailed⟩
  · have hheld := holds_of_failing hnow
    rw [past, run_take_drop, (shuttingDown_of_over hover).2] at hheld
    cases hheld
  · rw [List.length_drop] at hk
    rw [hlater] at hjoining hfailed
    refine ⟨i + k, by omega, by omega, ?_, ⟨aim, hjoining⟩, hfailed⟩
    intro t hit htk
    have hfailing := hbefore (t - i) (by omega)
    rwa [hlater, Nat.add_sub_cancel' hit] at hfailing

/-- As long as a graph is held, no other is started. -/
lemma generation_past {i j : Nat} (hij : i ≤ j) (hj : j ≤ moves.length)
    (hholds : ∀ t, i ≤ t → t ≤ j → (past config moves t).control.holds = true) :
    (past config moves j).control.generation = (past config moves i).control.generation := by
  induction j, hij using Nat.le_induction with
  | base => rfl
  | succ t hit ih =>
    have hpaced : (past config moves t).Paced := paced_run paced_start _
    have hsane : (past config moves t).control.Sane := sane_run paced_start sane_start _
    have hsame := ih (by omega) fun u hu hut => hholds u hu (by omega)
    rw [past_succ (by omega), (shift_perform hpaced moves[t]).generation hsane,
      hholds t hit (by omega), hsame]
    simp

/-- **The events of a graph that panicked**: it was drained, its thread was not reported as stopped,
and the worker has shut down with the error. -/
lemma decided_of_panic {k : Nat} (hk : k < moves.length) {e : AcqError} {aim : Aim γ}
    (hjoining : (past config moves k).stage = .joining aim)
    (hfailed : (past config moves (k + 1)).stage = .resting (.error e)) {r : Except AcqError Unit}
    (hover : ((start config).run moves).stage = .over r) :
    r = .error e ∧ ∃ story passes, 1 ≤ passes ∧
      Script .idle 0 story .running (past config moves k).control.generation ∧
      (start config).decided moves =
        story ++ [.stateChanged .running .draining,
          .drainCompleted (past config moves k).control.generation passes,
          .stateChanged .draining .shuttingDown, .failed e.message] := by
  have hpaced : (past config moves k).Paced := paced_run paced_start _
  have hsane : (past config moves k).control.Sane := sane_run paced_start sane_start _
  obtain ⟨hst, hsame⟩ : (past config moves (k + 1)).control.state = .draining ∧
      (past config moves (k + 1)).control.generation =
        (past config moves k).control.generation := by
    rw [past_succ hk] at hfailed ⊢
    exact (shift_perform hpaced moves[k]).draining_of_panicked hsane hjoining hfailed
  -- Its drain is over, and nothing else was reported since.
  have htold : (past config moves (k + 1)).control.Told
      ((start config).decided (moves.take (k + 1))) := told_run config _
  unfold Told at htold
  rw [show (past config moves (k + 1)).control.stage = _ from hfailed, hst, hsame] at htold
  obtain ⟨-, hscript | ⟨-, passes, honce, story, hstory, hscript⟩⟩ := htold
  · exact absurd rfl (hscript.ne_draining (by simp))
  have hdoomed : Doomed e (past config moves k).control.generation
      ((start config).decided (moves.take (k + 1))) (past config moves (k + 1)).control
      ((start config).decided (moves.take (k + 1))) := ⟨hsame, .inl ⟨hfailed, hst, rfl⟩⟩
  have hend := doomed_run (s := past config moves (k + 1)) (paced_run paced_start _) hdoomed
    (moves.drop (k + 1))
  have hdecided : (start config).decided (moves.take (k + 1)) ++
      (past config moves (k + 1)).decided (moves.drop (k + 1)) = (start config).decided moves := by
    unfold past
    rw [← decided_append, List.take_append_drop]
  have hlast : (past config moves (k + 1)).run (moves.drop (k + 1)) = (start config).run moves :=
    run_take_drop _ moves (k + 1)
  rw [hdecided, hlast] at hend
  have hover' : ((start config).run moves).control.stage = .over r := hover
  obtain ⟨-, ⟨hstage, -⟩ | ⟨hopen, -⟩ | ⟨hstage, hes⟩⟩ := hend
  · cases hover'.symm.trans hstage
  · rw [hover'] at hopen
    cases hopen
  · cases hover'.symm.trans hstage
    refine ⟨rfl, story, passes, honce, hscript, ?_⟩
    rw [hes, hstory, List.append_assoc]
    rfl

/-- **What is reported of a graph that panicked**, once everything is made known: that it was drained
and that the worker has shut down with the error, but not that it has stopped. -/
lemma reports_of_panic {i k : Nat} (hik : i ≤ k) (hk : k < moves.length) {e : AcqError}
    (hfailing : ∀ t, i ≤ t → t ≤ k → (past config moves t).station.Failing e) {aim : Aim γ}
    (hjoining : (past config moves k).stage = .joining aim)
    (hfailed : (past config moves (k + 1)).stage = .resting (.error e)) {r : Except AcqError Unit}
    (hover : ((start config).run moves).stage = .over r) :
    r = .error e ∧ (((start config).run moves).station.worker.outbox = [] →
      .graphStopped (past config moves i).station.worker.generation ∉ (start config).reports moves ∧
        ∃ before passes, 1 ≤ passes ∧ (start config).reports moves = before ++
          [.drainCompleted (past config moves i).station.worker.generation passes,
            .stateChanged .draining .shuttingDown, .failed e.message]) := by
  obtain ⟨hr, story, passes, honce, hscript, hstory⟩ :=
    decided_of_panic hk hjoining hfailed hover
  have hgeneration : (past config moves k).control.generation =
      (past config moves i).station.worker.generation :=
    generation_past hik hk.le fun t hit htk => holds_of_failing (hfailing t hit htk)
  rw [hgeneration] at hscript hstory
  refine ⟨hr, ?_⟩
  intro hout
  rw [reports_eq_decided hout, hstory]
  refine ⟨?_, story ++ [.stateChanged .running .draining], passes, honce, ?_⟩
  · intro hstopped
    have hstopped' := (List.mem_append.mp hstopped).resolve_right (by simp)
    exact absurd ((hscript.stopped_lt hstopped').2 rfl) (lt_irrefl _)
  · rw [List.append_assoc]
    rfl

variable [LawfulGraph γ]

/-- **A graph that panicked was drained before its thread was joined**: its pollers were kept until
then unless they were swept, and they have handed out all that they accept. -/
lemma drained_of_panic {i k : Nat} (hik : i ≤ k) (hk : k < moves.length) {e : AcqError}
    (hfailing : ∀ t, i ≤ t → t ≤ k → (past config moves t).station.Failing e) {aim : Aim γ}
    (hjoining : (past config moves k).stage = .joining aim) :
    ∃ j < moves.length, (∃ passes, (past config moves j).stage = .drained aim passes) ∧
      (past config moves j).control.generation = (past config moves i).control.generation ∧
      (∀ key p, (past config moves i).reconciler.poller? key = some p →
        (past config moves j).reconciler.poller? key = some p ∨
          ∃ t, i ≤ t ∧ t < j ∧ (past config moves t).Swept key p) ∧
      ∀ key p, (past config moves j).reconciler.poller? key = some p →
        ((books config moves j).handed p).map (fun n => n.reply) =
            (answers (.unknown key.signal) ((books config moves j).arrived p)).1 ∧
          ∀ t, (books config moves t).arrived p <+: (books config moves j).arrived p := by
  have hlength : (moves.take k).length = k := List.length_take_of_le hk.le
  have hpast : ∀ t ≤ k, past config (moves.take k) t = past config moves t := by
    intro t ht
    unfold past
    rw [List.take_take, Nat.min_eq_left ht]
  have hholds : ∀ t, i ≤ t → t ≤ k → (past config moves t).control.holds = true :=
    fun t hit htk => holds_of_failing (hfailing t hit htk)
  have hwaiting : ((start config).run (moves.take k)).stage = .joining aim := hjoining
  obtain ⟨j, hj, ⟨passes, hdrained⟩, hgeneration, hsince⟩ := exists_drained hwaiting
  rw [hlength] at hj hsince
  rw [hpast j hj.le] at hdrained hgeneration
  refine ⟨j, by omega, ⟨passes, hdrained⟩, ?_, ?_, ?_⟩
  · exact hgeneration.trans (generation_past hik hk.le hholds)
  · intro key p hp
    rcases Nat.lt_or_ge j i with hji | hij
    · -- The thread is waited for, so no pollers are left.
      have hwaiting := hsince i hji hik
      rw [hpast i hik] at hwaiting
      have hs : (past config moves i).Orderly := (orderly_start config).run _
      obtain ⟨entry, hentry, -⟩ := Option.map_eq_some_iff.mp hp
      exact absurd hwaiting ((hs.tables (Reconciler.isEmpty_of_held? hentry)).2 aim)
    · refine poller?_past hij (by omega) (fun t hit htj => hholds t hit (by omega)) ?_ hp
      intro aim' hother
      cases hdrained.symm.trans hother
  · intro key p hp
    exact handed_past hdrained hp

/-- **What holds when a tick has failed**, whatever anyone does and at whatever point:
* a tick fails because the thread that it waits for has panicked, or because no thread can be made
  for the graph that it starts;
* after that nothing happens before the loop over ticks goes on, and when it does, it ends with the
  error after five steps at most;
* when the loop has ended with an error, some tick has failed with it, the worker is shut down with
  empty tables and without a graph, and once everything is made known, that it failed was reported
  once, as the last of all events;
* graphs are counted when they are started;
* a thread that has panicked makes the loop end with its error; its graph was drained and not
  reported as stopped; its pollers were kept up to the end of the drain unless they were swept, and
  what was handed out are the answers to all that they ever accept;
* when the loop has ended without an error, the worker is shut down and no failure was reported;
* what a step hands out is what the broker is notified of.

**Proof sketch.** The events of every run go with the course of the lifecycle thread, and the course
after a tick that failed is short. A thread that has panicked stays as it is until it is joined, and
it is joined after a drain. -/
theorem failure_fatal (config : WorkerConfig) (moves : List (Move γ)) :
    let s := (start config).run moves
    let es := (start config).reports moves
    (∀ m e, s.stage ≠ .resting (.error e) → (s.perform m).stage = .resting (.error e) →
      m = .advance ∧ s.Cause e) ∧
    (∀ e, s.stage = .resting (.error e) →
      (∀ more : List (Move γ), (∀ m ∈ more, m.isTick = false) →
        (s.run more).stage = .resting (.error e) ∨ (s.run more).stage = .over (.error e)) ∧
      ∀ more : List (Move γ), 5 ≤ more.countP Move.isAdvance →
        ((s.perform .resume).run more).stage = .over (.error e) ∧
          ((s.perform .resume).run more).station.hasEnded = true) ∧
    (∀ e, s.stage = .over (.error e) →
      (∃ i < moves.length, (past config moves i).stage = .resting (.error e)) ∧
        s.station.worker.state = .shuttingDown ∧ s.reconciler.isEmpty = true ∧
        s.station.worker.scheduler.isSome = false ∧
        (s.station.worker.outbox = [] →
          (∃ before, es = before ++ [.failed e.message] ∧
            ∀ message, .failed message ∉ before) ∧
          ∀ more, (start config).reports (moves ++ more) = es)) ∧
    s.station.worker.generation = (start config).starts moves ∧
    (∀ i x e r, (past config moves i).station.worker.scheduler = some x →
      x.joined? = some (.error e) → s.stage = .over r →
      r = .error e ∧
        (s.station.worker.outbox = [] →
          .graphStopped (past config moves i).station.worker.generation ∉ es ∧
            ∃ before passes, 1 ≤ passes ∧ es = before ++
              [.drainCompleted (past config moves i).station.worker.generation passes,
                .stateChanged .draining .shuttingDown, .failed e.message]) ∧
        ∃ j < moves.length, (∃ aim passes, (past config moves j).stage = .drained aim passes) ∧
          (past config moves j).station.worker.generation =
            (past config moves i).station.worker.generation ∧
          (∀ key p, (past config moves i).reconciler.poller? key = some p →
            (past config moves j).reconciler.poller? key = some p ∨
              ∃ t, i ≤ t ∧ t < j ∧ (past config moves t).Swept key p) ∧
          ∀ key p, (past config moves j).reconciler.poller? key = some p →
            ((books config moves j).handed p).map (fun n => n.reply) =
                (answers (.unknown key.signal) ((books config moves j).arrived p)).1 ∧
              ∀ t, (books config moves t).arrived p <+: (books config moves j).arrived p) ∧
    (s.stage = .over (.ok ()) →
      s.station.worker.state = .shuttingDown ∧ ∀ message, .failed message ∉ es) ∧
    (s.perform .advance).station.broker =
      match s.handout? .advance with
      | some (_, n) => s.station.broker.notify s.reconciler.service n
      | none => s.station.broker := by
  intro s es
  have hs : s.Orderly := (orderly_start config).run moves
  refine ⟨?_, ?_, ?_, ?_, ?_, ?_, s.broker_advance⟩
  · intro m e hnot hfail
    obtain ⟨hm, -, hcause⟩ := cause_of_failed hs.paced hnot hfail
    exact ⟨hm, hcause⟩
  · intro e hstage
    exact failed_run hs.paced hstage (outbox_failed_run config moves hstage)
  · intro e hstage
    obtain ⟨hst, hfree⟩ := shuttingDown_of_over hstage
    refine ⟨exists_failed hstage, hst, ?_, hfree, failed_last hstage⟩
    by_contra hne
    cases hfree.symm.trans (hs.tables (by simpa using hne)).1
  · exact (generation_run (orderly_start config) moves).trans (Nat.zero_add _)
  · intro i x e r hx hjoined hover
    have hfailing : (past config moves i).station.Failing e := by
      unfold Station.Failing
      rw [hx]
      exact hjoined
    obtain ⟨k, hik, hk, hall, ⟨aim, hjoining⟩, hfailed⟩ := exists_panic hfailing hover
    obtain ⟨hr, hreported⟩ := reports_of_panic hik hk hall hjoining hfailed hover
    obtain ⟨j, hj, ⟨passes, hdrained⟩, hsame, hkept, hhanded⟩ :=
      drained_of_panic hik hk hall hjoining
    exact ⟨hr, hreported, j, hj, ⟨aim, passes, hdrained⟩, hsame, hkept, hhanded⟩
  · intro hstage
    exact ⟨(shuttingDown_of_over hstage).1, failed_not_mem_of_over hstage⟩

end End

/-- A graph that pushes a block and then panics. -/
def sampleFailing : ManualGraph where
  name := "sample"
  outputs := [("A", 0)]
  inbox := [⟨"A", ⟨[], []⟩⟩]
  fails := true

/-- The graph has panicked before the block is handed out; then the next tick drains it and fails, and
the loop ends. -/
def sampleFailure : List (Move ManualGraph) :=
  List.flatten
    [[.act (.make (.unknown "A") .zero), .setGraph sampleFailing,
        .subscribe ⟨"/acquisition", Table.ofList [(Filter.channelsParam, "A")]⟩, .tick],
      List.replicate 9 .advance, [.tick], List.replicate 9 .advance, List.replicate 3 .execute,
      [.tick], List.replicate 23 .advance, [.resume], List.replicate 5 .advance]

set_option maxRecDepth 4000 in
/-- The worker has shut down, and the failure is the last that was reported. -/
theorem failure_fatal_sample :
    let s := (start {}).run sampleFailure
    let e := AcqError.scheduler "Graph 'sample' panicked"
    s.stage = .over (.error e) ∧ s.station.worker.state = .shuttingDown ∧
      .graphStopped 1 ∉ (start {}).reports sampleFailure ∧
      ∃ before passes, 1 ≤ passes ∧ (start {}).reports sampleFailure = before ++
        [.drainCompleted 1 passes, .stateChanged .draining .shuttingDown, .failed e.message] := by
  intro s e
  have hstage : s.stage = .over (.error e) := by rfl
  have hout : s.station.worker.outbox = [] := by decide +kernel
  have hone : (past {} sampleFailure 26).station.worker.generation = 1 := by decide +kernel
  have hjoined : (past {} sampleFailure 26).station.worker.scheduler.bind Scheduler.joined? =
      some (.error e) := by rfl
  obtain ⟨x, hx, he⟩ := Option.bind_eq_some_iff.mp hjoined
  obtain ⟨-, -, hended, -, hpanicked, -⟩ := failure_fatal {} sampleFailure
  obtain ⟨-, hst, -⟩ := hended e hstage
  obtain ⟨-, hevents, -⟩ := hpanicked 26 x e (.error e) hx he hstage
  rw [hone] at hevents
  exact ⟨hstage, hst, hevents hout⟩

end Scene

end Daq
