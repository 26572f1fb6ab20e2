import Daq.Proofs.Worker.Drain

set_option autoImplicit false

/-!
# The lifecycle over many ticks

What holds of a worker after each tick, for every sequence of moves in which no tick has failed so
far: its state is a lasting one, it holds a graph exactly if it is running, its tables are empty
otherwise, and every poller was opened for the graph that is held. Graphs are counted as they are
started, a stop that was read leads to the end, and the end is final.

## Main definitions

* `Daq.Scene.unfailed` — no tick has failed so far.
* `Daq.Scene.starts` — the number of graphs started in the course of several moves.

## Main results

* `Daq.Scene.stopping_run` — a stop that was read is obeyed.
* `Daq.Scene.shuttingDown_run` — the end is final.
* `Daq.Scene.lifecycle_invariant` — what holds after each tick.
-/

namespace Daq

variable {γ : Type}

/-- Whether a tick has failed. -/
def Stage.isFailed : Stage γ → Bool
  | .resting (.error _) => true
  | _ => false

/-- A stage that is not failed is not one in which a tick has returned an error. -/
lemma Stage.ne_error {stage : Stage γ} (h : stage.isFailed = false) (e : AcqError) :
    stage ≠ .resting (.error e) := by
  rintro rfl
  cases h

namespace Scene

variable [FlowGraph γ]

/-- Whether no tick fails in the course of several moves. -/
def unfailed (s : Scene γ) : List (Move γ) → Bool
  | [] => !s.stage.isFailed
  | m :: moves => !s.stage.isFailed && (s.perform m).unfailed moves

/-- The number of times that a graph comes to be held in the course of several moves. -/
def starts (s : Scene γ) : List (Move γ) → Nat
  | [] => 0
  | m :: moves =>
    (if s.control.holds = false ∧ (s.perform m).control.holds = true then 1 else 0) +
      (s.perform m).starts moves

/-- No tick has failed before the moves. -/
lemma isFailed_of_unfailed {s : Scene γ} {moves : List (Move γ)} (h : s.unfailed moves = true) :
    s.stage.isFailed = false := by
  cases moves with
  | nil => simpa [unfailed] using h
  | cons m moves =>
    simp only [unfailed, Bool.and_eq_true] at h
    simpa using h.1

/-- No tick fails in the course of the moves that are left. -/
lemma unfailed_drop {s : Scene γ} {moves : List (Move γ)} (h : s.unfailed moves = true) (i : Nat) :
    (s.run (moves.take i)).unfailed (moves.drop i) = true := by
  induction moves generalizing s i with
  | nil =>
    rw [List.take_nil, List.drop_nil]
    exact h
  | cons m moves ih =>
    cases i with
    | zero => exact h
    | succ i =>
      simp only [unfailed, Bool.and_eq_true] at h
      exact ih h.2 i

/-- No tick fails in the course of the first moves. -/
lemma unfailed_take {s : Scene γ} {moves : List (Move γ)} (h : s.unfailed moves = true) (i : Nat) :
    s.unfailed (moves.take i) = true := by
  have hnow := isFailed_of_unfailed h
  induction moves generalizing s i with
  | nil =>
    rw [List.take_nil]
    exact h
  | cons m moves ih =>
    cases i with
    | zero => simp [unfailed, hnow]
    | succ i =>
      simp only [unfailed, Bool.and_eq_true] at h
      simp only [List.take_succ_cons, unfailed, Bool.and_eq_true]
      exact ⟨h.1, ih h.2 i (isFailed_of_unfailed h.2)⟩

/-- The moves after the first ones lead to where all of them lead. -/
lemma run_take_drop (s : Scene γ) (moves : List (Move γ)) (i : Nat) :
    (s.run (moves.take i)).run (moves.drop i) = s.run moves := by
  unfold run
  rw [← List.foldl_append, List.take_append_drop]

/-- The scene after some of the moves that a worker has seen. -/
def past (config : WorkerConfig) (moves : List (Move γ)) (i : Nat) : Scene γ :=
  (start config).run (moves.take i)

section Past

variable {config : WorkerConfig} {moves : List (Move γ)}

/-- One more move leaves the past as it was. -/
lemma past_append {i : Nat} (hi : i ≤ moves.length) (m : Move γ) :
    past config (moves ++ [m]) i = past config moves i := by
  unfold past
  rw [List.take_append_of_le_length hi]

/-- After all moves comes the present. -/
lemma past_length : past config moves moves.length = (start config).run moves := by
  unfold past
  rw [List.take_length]

/-- The present after one more move. -/
lemma run_append (m : Move γ) :
    (start config).run (moves ++ [m]) = ((start config).run moves).perform m := by
  unfold run
  rw [List.foldl_append]
  rfl

end Past

/-! ### Runs -/

variable {s : Scene γ}

omit [FlowGraph γ] in
/-- Before the first tick the worker is idle. -/
lemma sane_start {config : WorkerConfig} : (start config : Scene γ).control.Sane :=
  iff_of_false Bool.false_ne_true fun h => by cases h

/-- State and graph suit the stage in every run. -/
lemma sane_run (hs : s.Paced) (hsane : s.control.Sane) (moves : List (Move γ)) :
    (s.run moves).control.Sane := by
  induction moves generalizing s with
  | nil => exact hsane
  | cons m moves ih => exact ih (paced_perform hs m) ((shift_perform hs m).sane hsane)

/-- As long as no tick fails, the state is a lasting one where a worker may stay. -/
lemma steady_run (hs : s.Paced) (hsane : s.control.Sane) (hsteady : s.control.Steady)
    {moves : List (Move γ)} (hok : s.unfailed moves = true) : (s.run moves).control.Steady := by
  induction moves generalizing s with
  | nil => exact hsteady
  | cons m moves ih =>
    have hnow := Stage.ne_error (isFailed_of_unfailed hok)
    have hshift := shift_perform hs m
    simp only [unfailed, Bool.and_eq_true] at hok
    exact ih (paced_perform hs m) (hshift.sane hsane) (hshift.steady hsane hsteady hnow) hok.2

variable [LawfulGraph γ]

/-- **A stop that was read is obeyed**, as long as no tick fails. -/
theorem stopping_run (hs : s.Orderly) (hsteady : s.control.Steady) (hstop : s.control.Stopping)
    {moves : List (Move γ)} (hok : s.unfailed moves = true) :
    (s.run moves).control.Stopping := by
  induction moves generalizing s with
  | nil => exact hstop
  | cons m moves ih =>
    have hnow := Stage.ne_error (isFailed_of_unfailed hok)
    have hshift := shift_perform hs.paced m
    simp only [unfailed, Bool.and_eq_true] at hok
    exact ih (hs.perform m) (hshift.steady hs.sane hsteady hnow)
      (hshift.stopping hsteady hstop hnow) hok.2

/-- **The end is final**, and no graph is started any more. -/
theorem shuttingDown_run (hs : s.Orderly) (hst : s.control.state = .shuttingDown)
    (moves : List (Move γ)) :
    (s.run moves).control.state = .shuttingDown ∧
      (s.run moves).control.generation = s.control.generation := by
  induction moves generalizing s with
  | nil => exact ⟨hst, rfl⟩
  | cons m moves ih =>
    obtain ⟨hnext, hsame⟩ := (shift_perform hs.paced m).shuttingDown hs.sane hst
    obtain ⟨hlast, hgeneration⟩ := ih (hs.perform m) hnext
    exact ⟨hlast, hgeneration.trans hsame⟩

/-- **The generation counts the graphs started.** -/
theorem generation_run (hs : s.Orderly) (moves : List (Move γ)) :
    (s.run moves).control.generation = s.control.generation + s.starts moves := by
  induction moves generalizing s with
  | nil => rfl
  | cons m moves ih =>
    have hstep := (shift_perform hs.paced m).generation hs.sane
    have hrest := ih (hs.perform m)
    have hcons : (s.run (m :: moves)).control.generation =
        ((s.perform m).run moves).control.generation := rfl
    rw [hcons, hrest, hstep, starts]
    omega

/-! ### Where pollers come from -/

/-- In every run the reconciler is sound. -/
lemma sound_run (config : WorkerConfig) (moves : List (Move γ)) :
    ((start config).run moves).reconciler.Sound ((start config).run moves).hub := by
  have hsound := ((Chronicle.faithful_start config).run moves).balanced.sound
  rw [Chronicle.scene_run] at hsound
  exact hsound

section Past

variable {config : WorkerConfig} {moves : List (Move γ)}

/-- A graph that is held came to be held by some move, in the generation of now, and entered its
sinks in that move. -/
lemma exists_start (hholds : ((start config).run moves).control.holds = true) :
    ∃ j x, j < moves.length ∧ (past config moves j).Launched (past config moves (j + 1)) x ∧
      (past config moves (j + 1)).control.generation =
        ((start config).run moves).control.generation := by
  induction moves using List.reverseRecOn with
  | nil => cases hholds
  | append_singleton moves m ih =>
    have hs := (orderly_start config).run moves (γ := γ)
    have hlength : (moves ++ [m]).length = moves.length + 1 := by simp
    have hgeneration := (shift_perform hs.paced m).generation hs.sane
    rw [← run_append] at hgeneration
    cases hbefore : ((start config).run moves).control.holds with
    | false =>
      rw [run_append] at hholds
      obtain ⟨x, hlaunched⟩ := launched_of_held hbefore hholds
      refine ⟨moves.length, x, by omega, ?_, ?_⟩
      · rw [past_append le_rfl, past_length, ← hlength, past_length, run_append]
        exact hlaunched
      · rw [← hlength, past_length]
    | true =>
      obtain ⟨j, x, hj, hlaunched, hsame⟩ := ih hbefore
      rw [hbefore] at hgeneration
      refine ⟨j, x, by omega, ?_, ?_⟩
      · rw [past_append hj.le, past_append hj]
        exact hlaunched
      · rw [past_append hj, hsame, hgeneration]
        simp

/-- **Every poller was opened for the graph that is held**: at some time after the graph entered its
sinks it was not attached yet. -/
theorem exists_opening {k : PollerKey} {p : PollerRef}
    (hp : ((start config).run moves).reconciler.poller? k = some p) :
    ∃ j i x, j < i ∧ i ≤ moves.length ∧
      (past config moves j).Launched (past config moves (j + 1)) x ∧
      (past config moves (j + 1)).control.generation =
        ((start config).run moves).control.generation ∧
      ¬ (past config moves i).hub.Attached p := by
  induction moves using List.reverseRecOn with
  | nil =>
    obtain ⟨e, he, -⟩ := Option.map_eq_some_iff.mp hp
    cases Reconciler.isEmpty_of_held? he
  | append_singleton moves m ih =>
    have hs := (orderly_start config).run moves (γ := γ)
    have hw := (sound_run config moves).wellFormed
    have hlength : (moves ++ [m]).length = moves.length + 1 := by simp
    have hgeneration := (shift_perform hs.paced m).generation hs.sane
    have hfate := hs.fate hw m k
    rw [← run_append] at hgeneration hfate
    -- A graph was held before, so no other was started by this move.
    have hsame : ((start config).run moves).control.holds = true →
        ((start config).run (moves ++ [m])).control.generation =
          ((start config).run moves).control.generation := by
      intro hholds
      rw [hgeneration, hholds]
      simp
    cases hfate with
    | kept same =>
      have hbefore := same.symm.trans hp
      obtain ⟨e, he, -⟩ := Option.map_eq_some_iff.mp hbefore
      have hholds := (hs.tables (Reconciler.isEmpty_of_held? he)).1
      obtain ⟨j, i, x, hji, hi, hlaunched, hnow, hfresh⟩ := ih hbefore
      refine ⟨j, i, x, hji, by omega, ?_, ?_, ?_⟩
      · rw [past_append (by omega), past_append (by omega)]
        exact hlaunched
      · rw [past_append (by omega), hnow, hsame hholds]
      · rw [past_append hi]
        exact hfresh
    | opened q move due missing opened fresh =>
      obtain rfl : q = p := Option.some.inj (opened.symm.trans hp)
      have hholds := (hs.holds_of_due due).1
      obtain ⟨j, x, hj, hlaunched, hnow⟩ := exists_start hholds
      refine ⟨j, moves.length, x, hj, by omega, ?_, ?_, ?_⟩
      · rw [past_append hj.le, past_append hj]
        exact hlaunched
      · rw [past_append hj, hnow, hsame hholds]
      · rw [past_append le_rfl, past_length]
        exact fresh
    | evicted w e move walk last held unused gone => cases gone.symm.trans hp
    | cleared aim passes move stage gone => cases gone.symm.trans hp

end Past

/-- **What holds of the lifecycle** in every sequence of moves in which no tick has failed so far:
* after a tick the worker is idle, running or shut down, it holds a graph exactly if it is running,
  and otherwise its tables are empty;
* a graph to be drained is never missing, none is held when another is started, and one is let go
  only when its thread has ended, so no two graphs execute at once;
* every poller was opened after the graph of the present generation has entered its sinks;
* the generation is the number of graphs started;
* a tick that has read that a stop was requested ends shut down, and so do all later ones;
* once the worker is shut down it stays so, holds no graph and is about to start none.

**Proof sketch.** Each fact is preserved by all changes in the course of the lifecycle thread. For the
third, pollers are opened only in a pass while a graph is held, and no other graph is started before
the tables are empty again. -/
theorem lifecycle_invariant (config : WorkerConfig) (moves : List (Move γ))
    (hok : (start config).unfailed moves = true) :
    let s := (start config).run moves
    (s.stage = .resting (.ok ()) →
      (s.station.worker.state = .idle ∨ s.station.worker.state = .running ∨
          s.station.worker.state = .shuttingDown) ∧
        (s.station.worker.scheduler.isSome = true ↔ s.station.worker.state = .running) ∧
        (s.station.worker.state ≠ .running → s.reconciler.isEmpty = true)) ∧
    (∀ aim, s.stage = .chosen aim → s.station.worker.scheduler.isSome = true) ∧
    (∀ x, s.stage = .starting x → s.station.worker.scheduler.isSome = false) ∧
    (∀ m x, s.station.worker.scheduler = some x →
      (s.perform m).station.worker.scheduler = none → x.isGone = true) ∧
    (∀ k ∈ s.reconciler.keys, ∃ p, s.reconciler.poller? k = some p ∧
      ∃ j i x, j < i ∧ i ≤ moves.length ∧
        (past config moves j).Launched (past config moves (j + 1)) x ∧
        (past config moves (j + 1)).station.worker.generation = s.station.worker.generation ∧
        ¬ (past config moves i).hub.Attached p) ∧
    s.station.worker.generation = (start config).starts moves ∧
    (∀ i, (past config moves i).stage = .begun true → s.stage = .resting (.ok ()) →
      s.station.worker.state = .shuttingDown) ∧
    ∀ i, (past config moves i).station.worker.state = .shuttingDown →
      s.station.worker.state = .shuttingDown ∧
        s.station.worker.generation = (past config moves i).station.worker.generation ∧
        s.station.worker.scheduler.isSome = false ∧ ∀ x, s.stage ≠ .starting x := by
  intro s
  have hstart : (start config : Scene γ).Orderly := orderly_start config
  have hs : s.Orderly := hstart.run moves
  have hsteady : ∀ i, (past config moves i).control.Steady := fun i =>
    steady_run hstart.paced hstart.sane (fun _ => rfl) (unfailed_take hok i)
  refine ⟨?_, ?_, ?_, ?_, ?_, ?_, ?_, ?_⟩
  · intro hstage
    have hstage' : s.control.stage = .resting (.ok ()) := hstage
    have hopen : s.control.stage.isOpen = true := by rw [hstage']; rfl
    have hiff := hs.sane.holds_iff hopen
    refine ⟨?_, hiff, ?_⟩
    · have hlasting : s.control.state.isLasting = true :=
        steady_run hstart.paced hstart.sane (fun _ => rfl) hok hopen
      change s.station.worker.state.isLasting = true at hlasting
      cases hst : s.station.worker.state with
      | idle => exact .inl rfl
      | running => exact .inr (.inl rfl)
      | shuttingDown => exact .inr (.inr rfl)
      | draining =>
        rw [hst] at hlasting
        cases hlasting
      | replacing =>
        rw [hst] at hlasting
        cases hlasting
    · intro hnot
      by_contra hne
      exact hnot (hiff.mp (hs.tables (by simpa using hne)).1)
  · intro aim hstage
    have hsane := hs.sane
    unfold Control.Sane at hsane
    rw [show s.control.stage = .chosen aim from hstage] at hsane
    exact hsane.2
  · intro x hstage
    have hsane := hs.sane
    unfold Control.Sane at hsane
    rw [show s.control.stage = .starting x from hstage] at hsane
    exact hsane.2
  · intro m x hx hnone
    exact (gone_of_dropped hx hnone).2.2
  · intro k hk
    have hheld := (Reconciler.mem_keys (sound_run config moves).filed k).mp hk
    obtain ⟨e, he⟩ := Option.isSome_iff_exists.mp hheld
    have hp : s.reconciler.poller? k = some e.poller := by
      unfold Reconciler.poller?
      rw [show s.reconciler.held? k = some e from he]
      rfl
    exact ⟨e.poller, hp, exists_opening hp⟩
  · have hgeneration := generation_run hstart moves
    exact hgeneration.trans (Nat.zero_add _)
  · intro i hbegun hstage
    have hstop : (past config moves i).control.Stopping := by
      unfold Control.Stopping
      rw [show (past config moves i).control.stage = .begun true from hbegun]
      trivial
    have hobeyed := stopping_run (hstart.run (moves.take i)) (hsteady i) hstop (unfailed_drop hok i)
    rw [run_take_drop] at hobeyed
    unfold Control.Stopping at hobeyed
    rw [show s.control.stage = .resting (.ok ()) from hstage] at hobeyed
    exact hobeyed
  · intro i hst
    obtain ⟨hlast, hgeneration⟩ := shuttingDown_run (hstart.run (moves.take i)) hst (moves.drop i)
    rw [run_take_drop] at hlast hgeneration
    obtain ⟨hfree, hnone⟩ := hs.sane.free hlast
    exact ⟨hlast, hgeneration, hfree, hnone⟩

/-- A drain is brought to its end while another graph waits, and one more tick is made. -/
def sampleEnd : List (Move ManualGraph) :=
  List.flatten
    [Chronicle.sampleMoves, [.execute, .setGraph Chronicle.sampleGraph],
      List.replicate 12 .advance, [.tick], List.replicate 3 .advance]

set_option maxRecDepth 4000 in
/-- The stop that was read has led to the end, and the graph that waits is not started. -/
theorem lifecycle_invariant_sample :
    let s := (start {}).run sampleEnd
    s.station.worker.slot.isPending = true ∧ s.station.worker.state = .shuttingDown ∧
      s.station.worker.scheduler.isSome = false ∧ s.station.worker.generation = 1 := by
  intro s
  have hok : (start {}).unfailed sampleEnd = true := by decide +kernel
  have hpending : s.station.worker.slot.isPending = true := by decide +kernel
  have hstage : s.stage = .resting (.ok ()) := by rfl
  have hread : (past {} sampleEnd 26).stage = .begun true := by rfl
  have hstarts : (start {}).starts sampleEnd = 1 := by decide +kernel
  obtain ⟨hafter, -, -, -, -, hgeneration, hstopped, -⟩ := lifecycle_invariant {} sampleEnd hok
  have hlast : s.station.worker.state = .shuttingDown := hstopped 26 hread hstage
  obtain ⟨-, hholds, -⟩ := hafter hstage
  refine ⟨hpending, hlast, ?_, hgeneration.trans hstarts⟩
  by_contra hne
  have hrunning := hholds.mp (Bool.eq_true_of_not_eq_false hne)
  rw [show ((start {}).run sampleEnd).station.worker.state = .shuttingDown from hlast] at hrunning
  cases hrunning

end Scene

end Daq
