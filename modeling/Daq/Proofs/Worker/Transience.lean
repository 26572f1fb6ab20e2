import Daq.Proofs.Worker.Panic

set_option autoImplicit false

/-!
# States that are left behind

Draining and replacing are states for the course of a tick. A tick that fails half-way does not
leave them: if the thread that it waits for has panicked the worker stays draining, and if the next
graph is refused it stays replacing. In these states later ticks do nothing, whatever is
requested; only the loop over ticks, which ends with the error, shuts the worker down.

## Main definitions

* `Daq.Control.Stranded` — a worker stays in a state that is not a lasting one.
* `Daq.Scene.Strands` — a tick fails and leaves such a state behind.

## Main results

* `Daq.Control.Shift.stranded`, `Daq.Control.Shift.strands` — there is no way back by a tick, and
  two ways to get there.
* `Daq.Scene.transient_exact` — the state of a worker between ticks in every run.
* `Daq.Scene.draining_left` — a stop that a tick has read is not obeyed.
-/

namespace Daq

variable {γ : Type}

/-- Whether a stage is between ticks, also after one that failed, or where a tick begins or ends. -/
def Stage.isPause : Stage γ → Bool
  | .resting _ => true
  | .begun _ => true
  | .closing => true
  | _ => false

namespace Control

/-- The worker stays in a state that is not a lasting one. -/
def Stranded (c : Control γ) : Prop := c.stage.isPause = true ∧ c.state.isLasting = false

/-- Where a worker is not stranded, its state is a lasting one if it may stay. -/
lemma steady_of_not_stranded {c : Control γ} (hc : ¬ c.Stranded) : c.Steady := by
  intro hopen
  have hpause : c.stage.isPause = true := by
    cases hstage : c.stage with
    | resting last => rfl
    | begun stop => rfl
    | closing => rfl
    | _ =>
      rw [hstage] at hopen
      cases hopen
  by_contra hne
  exact hc ⟨hpause, Bool.eq_false_of_not_eq_true hne⟩

/-- A tick has read that a stop was requested, and the stop is being obeyed or was, unless the
worker is stranded. -/
def Obeying (c : Control γ) : Prop :=
  c.Stranded ∨ c.Stopping ∧ ∀ e, c.stage ≠ .resting (.error e)

namespace Shift

variable {c c' : Control γ}

/-- **A stranded worker stays so**, and starts no graph, until the loop over ticks ends with an
error. -/
theorem stranded (h : Shift c c') (hc : c.Stranded) :
    (c'.Stranded ∧ c'.state = c.state ∧ c'.generation = c.generation) ∨
      ∃ e, c.stage = .resting (.error e) ∧ c'.stage = .over (.error e) ∧
        c'.state = .shuttingDown := by
  obtain ⟨hpause, hst⟩ := hc
  cases h with
  | stay c => exact .inl ⟨⟨hpause, hst⟩, rfl, rfl⟩
  | begin last stop st g n => exact .inl ⟨⟨rfl, hst⟩, rfl, rfl⟩
  | skip stop st g n _ _ => exact .inl ⟨⟨rfl, hst⟩, rfl, rfl⟩
  | close st g n => exact .inl ⟨⟨rfl, hst⟩, rfl, rfl⟩
  | fail e st g n => exact .inr ⟨e, rfl, rfl, rfl⟩
  | finish g n => cases hst
  | obey g n => cases hst
  | idle g n => cases hst
  | take x g n => cases hst
  | pass stop g n => cases hst
  | _ => cases hpause

/-- **A worker gets stranded in two ways**: by a drained graph whose thread has panicked, and by a
graph that is refused when it is to replace another. -/
theorem strands (h : Shift c c') (hsane : c.Sane) (hc' : c'.Stranded) :
    (c.Stranded ∧ c'.state = c.state) ∨
      ∃ e, c'.stage = .resting (.error e) ∧
        ((c'.state = .draining ∧ ∃ aim, c.stage = .joining aim) ∨
          (c'.state = .replacing ∧ c.state = .replacing ∧ ∃ x, c.stage = .starting x)) := by
  obtain ⟨hpause, hst⟩ := hc'
  cases h with
  | stay c => exact .inl ⟨⟨hpause, hst⟩, rfl⟩
  | begin last stop st g n => exact .inl ⟨⟨rfl, hst⟩, rfl⟩
  | skip stop st g n _ _ => exact .inl ⟨⟨rfl, hst⟩, rfl⟩
  | close st g n => exact .inl ⟨⟨rfl, hst⟩, rfl⟩
  | goOn st n =>
    obtain ⟨hrunning, -⟩ := hsane
    dsimp only at hrunning hst
    rw [hrunning] at hst
    cases hst
  | panicked aim e st n => exact .inr ⟨e, rfl, .inl ⟨hsane.1, aim, rfl⟩⟩
  | refused x e st g n =>
    rcases hsane.1 with hidle | hreplacing
    · dsimp only at hidle hst
      rw [hidle] at hst
      cases hst
    · exact .inr ⟨e, rfl, .inr ⟨hreplacing, hreplacing, x, rfl⟩⟩
  | obey g n => cases hst
  | idle g n => cases hst
  | settle st g n => cases hst
  | shutDown st g n => cases hst
  | start x st g n => cases hst
  | _ => cases hpause

/-- A start that is refused leaves the state as it is. -/
lemma state_of_refused (h : Shift c c') {x : γ} (hc : c.stage = .starting x) {e : AcqError}
    (hc' : c'.stage = .resting (.error e)) : c'.state = c.state := by
  cases h with
  | stay c => rfl
  | refused x e st g n => rfl
  | panicked aim e st n => cases hc
  | _ => cases hc'

/-- **A stop that was read is obeyed**, unless the worker is stranded. -/
theorem obeying (h : Shift c c') (hsane : c.Sane) (hc : c.Obeying) : c'.Obeying := by
  by_cases hstranded : c.Stranded
  · rcases h.stranded hstranded with ⟨hstill, -⟩ | ⟨e, -, hover, hst⟩
    · exact .inl hstill
    · refine .inr ⟨?_, fun e' he' => by cases hover.symm.trans he'⟩
      unfold Stopping
      rw [hover]
      exact hst
  · obtain ⟨hstop, hok⟩ := hc.resolve_left hstranded
    have hnext := h.stopping (steady_of_not_stranded hstranded) hstop hok
    by_cases hfailed : ∃ e, c'.stage = .resting (.error e)
    · -- Of the two ways to fail, a stop that is being obeyed leads to a drain only.
      obtain ⟨e, he⟩ := hfailed
      cases h with
      | stay c => exact absurd he (hok e)
      | panicked aim e st n =>
        refine .inl ⟨rfl, ?_⟩
        rw [show st = .draining from hsane.1]
        rfl
      | refused x e st g n => cases hstop
      | _ => cases he
    · exact .inr ⟨hnext, fun e he => hfailed ⟨e, he⟩⟩

end Shift

end Control

namespace Scene

open Control

/-- Whether a move lets the loop over ticks go on. -/
def Move.isResume : Move γ → Bool
  | .resume => true
  | _ => false

variable [FlowGraph γ] {s s' : Scene γ}

/-- A tick fails in a step and leaves behind a state that is not a lasting one. -/
inductive Strands (s s' : Scene γ) : WorkerState → Prop where
  /-- The thread that is waited for after a drain has panicked. -/
  | panicked (aim : Aim γ) (e : AcqError) (stage : s.stage = .joining aim) (cause : s.Cause e)
      (fails : s'.stage = .resting (.error e)) : s.Strands s' .draining
  /-- No thread can be made for a graph that is to replace another. -/
  | refused (g : γ) (e : AcqError) (stage : s.stage = .starting g)
      (state : s.station.worker.state = .replacing) (cause : s.Cause e)
      (fails : s'.stage = .resting (.error e)) : s.Strands s' .replacing

/-- A tick that strands a worker does so in one step of the lifecycle thread. -/
lemma strands_of_stranded (h : s.Paced) (hsane : s.control.Sane) {m : Move γ}
    (hstranded : (s.perform m).control.Stranded) :
    (s.control.Stranded ∧ (s.perform m).control.state = s.control.state) ∨
      s.Strands (s.perform m) (s.perform m).control.state := by
  rcases (shift_perform h m).strands hsane hstranded with hbefore | ⟨e, he, hway⟩
  · exact .inl hbefore
  · right
    have hnot : s.stage ≠ .resting (.error e) := by
      intro hsame
      rcases hway with ⟨-, aim, hstage⟩ | ⟨-, -, x, hstage⟩ <;> cases hsame.symm.trans hstage
    have hcause := (cause_of_failed h hnot he).2.2
    rcases hway with ⟨hst, aim, hstage⟩ | ⟨hst, hbefore, x, hstage⟩
    · rw [hst]
      exact .panicked aim e hstage hcause he
    · rw [hst]
      exact .refused x e hstage hbefore hcause he

/-- A worker is stranded in the state that is left behind. -/
lemma Strands.stranded (h : s.Paced) (hsane : s.control.Sane) {m : Move γ} {st : WorkerState}
    (hstrands : s.Strands (s.perform m) st) :
    (s.perform m).control.Stranded ∧ (s.perform m).control.state = st := by
  have hshift := shift_perform h m
  have hstate : ∀ e, (s.perform m).stage = .resting (.error e) → (s.perform m).control.state = st →
      st.isLasting = false → (s.perform m).control.Stranded ∧ (s.perform m).control.state = st := by
    intro e hfails hst hlasting
    refine ⟨⟨?_, hst ▸ hlasting⟩, hst⟩
    rw [show (s.perform m).control.stage = _ from hfails]
    rfl
  cases hstrands with
  | panicked aim e hstage _ hfails =>
    exact hstate e hfails (hshift.draining_of_panicked hsane hstage hfails).1 rfl
  | refused g e hstage hst _ hfails =>
    exact hstate e hfails ((hshift.state_of_refused hstage hfails).trans hst) rfl

/-! ### Runs -/

/-- A stranded worker stays so until the loop over ticks ends with an error. -/
lemma stranded_run (h : s.Paced) (hs : s.control.Stranded) (moves : List (Move γ)) :
    ((s.run moves).control.Stranded ∧ (s.run moves).control.state = s.control.state) ∨
      ∃ e, (s.run moves).stage = .over (.error e) := by
  induction moves generalizing s with
  | nil => exact .inl ⟨hs, rfl⟩
  | cons m moves ih =>
    have hpaced := paced_perform h m
    rcases (shift_perform h m).stranded hs with ⟨hnext, hsame, -⟩ | ⟨e, -, hover, -⟩
    · rcases ih hpaced hnext with ⟨hlast, hst⟩ | hended
      · exact .inl ⟨hlast, hst.trans hsame⟩
      · exact .inr hended
    · exact .inr ⟨e, (stage_eq_of_control (over_run hpaced hover moves).1).trans hover⟩

/-- **A stop that a tick has read is obeyed**, unless the worker is stranded. -/
lemma obeying_run (h : s.Paced) (hsane : s.control.Sane) (hs : s.control.Obeying)
    (moves : List (Move γ)) : (s.run moves).control.Obeying := by
  induction moves generalizing s with
  | nil => exact hs
  | cons m moves ih =>
    have hshift := shift_perform h m
    exact ih (paced_perform h m) (hshift.sane hsane) (hshift.obeying hsane hs)

section Past

variable {config : WorkerConfig} {moves : List (Move γ)}

/-- **Where a worker is stranded, some tick before has left that state behind.** -/
lemma exists_strands (hs : ((start config).run moves).control.Stranded) :
    ∃ i < moves.length, (past config moves i).Strands (past config moves (i + 1))
      ((start config).run moves).control.state := by
  induction moves using List.reverseRecOn with
  | nil => cases hs.2
  | append_singleton moves m ih =>
    have hpaced : ((start config).run moves).Paced := paced_run paced_start moves
    have hsane : ((start config).run moves).control.Sane := sane_run paced_start sane_start moves
    have hlength : (moves ++ [m]).length = moves.length + 1 := by simp
    rw [run_append] at hs ⊢
    rcases strands_of_stranded hpaced hsane hs with ⟨hbefore, hsame⟩ | hnow
    · obtain ⟨i, hi, hstrands⟩ := ih hbefore
      refine ⟨i, by omega, ?_⟩
      rw [past_append hi.le, past_append hi, hsame]
      exact hstrands
    · refine ⟨moves.length, by omega, ?_⟩
      rw [past_append le_rfl, past_length, ← hlength, past_length, run_append]
      exact hnow

/-- **What a tick has left behind is there as long as the loop over ticks has not ended.** -/
lemma stranded_of_strands {i : Nat} (hi : i < moves.length) {st : WorkerState}
    (hstrands : (past config moves i).Strands (past config moves (i + 1)) st)
    {last : Except AcqError Unit} (hrest : ((start config).run moves).stage = .resting last) :
    ((start config).run moves).control.state = st := by
  have hpaced : (past config moves i).Paced := paced_run paced_start _
  have hsane : (past config moves i).control.Sane := sane_run paced_start sane_start _
  rw [past_succ hi] at hstrands
  obtain ⟨hstranded, hst⟩ := hstrands.stranded hpaced hsane
  rw [← past_succ hi] at hstranded hst
  rcases stranded_run (paced_run paced_start _) hstranded (moves.drop (i + 1)) with
    ⟨-, hsame⟩ | ⟨e, hover⟩
  · rw [run_take_drop] at hsame
    exact hsame.trans hst
  · rw [run_take_drop] at hover
    cases hrest.symm.trans hover

/-- **Without the loop over ticks a stranded worker does nothing any more**, whatever is requested
and however many ticks are made. -/
lemma stranded_by_hand (hs : ((start config).run moves).control.Stranded) {more : List (Move γ)}
    (hhand : ∀ m ∈ more, m.isResume = false) :
    ((start config).run (moves ++ more)).control.Stranded ∧
      ((start config).run (moves ++ more)).control.state =
        ((start config).run moves).control.state ∧
      ((start config).run (moves ++ more)).control.generation =
        ((start config).run moves).control.generation := by
  induction more using List.reverseRecOn with
  | nil =>
    rw [List.append_nil]
    exact ⟨hs, rfl, rfl⟩
  | append_singleton more m ih =>
    obtain ⟨hbefore, hst, hgeneration⟩ := ih fun a ha => hhand a (List.mem_append_left [m] ha)
    have hm := hhand m (List.mem_append_right more (List.mem_singleton_self m))
    have hpaced : ((start config).run (moves ++ more)).Paced := paced_run paced_start _
    rw [← List.append_assoc, run_append]
    rcases (shift_perform hpaced m).stranded hbefore with ⟨hnow, hsame, hcount⟩ |
      ⟨e, hfailed, hover, -⟩
    · exact ⟨hnow, hsame.trans hst, hcount.trans hgeneration⟩
    · -- Only the loop over ticks comes to an end.
      exfalso
      cases htick : m.isTick with
      | false =>
        have hout := outbox_failed_run config (moves ++ more) hfailed
        rcases perform_of_failed hpaced hfailed hout htick with ⟨hstill, -⟩ | rfl
        · cases hstill.symm.trans hover
        · cases hm
      | true =>
        cases m with
        | tick =>
          simp only [perform, withStation, tick] at hover
          split at hover
          · cases hover
          · cases hfailed.symm.trans hover
        | _ => cases htick

/-- **The state of a worker between ticks**, for every sequence of moves, whatever ticks have
failed:
* the worker is draining exactly if some tick has found, after a drain, that the thread that it
  waits for has panicked, and it is replacing exactly if some tick could not start the graph that
  was to replace another;
* if it is neither of these, and a tick has read that a stop was requested, it is shut down;
* if it is one of these, it stays so, and no graph is started, whatever is requested and however
  many ticks are made by hand.

**Proof sketch.** A tick leaves draining and replacing at its end only. The two steps in which it
may fail come before; after them the state is such that ticks do nothing. -/
theorem transient_exact (config : WorkerConfig) (moves : List (Move γ))
    {last : Except AcqError Unit} (hrest : ((start config).run moves).stage = .resting last) :
    let s := (start config).run moves
    (∀ st : WorkerState, st = .draining ∨ st = .replacing →
      (s.station.worker.state = st ↔ ∃ i < moves.length,
        (past config moves i).Strands (past config moves (i + 1)) st)) ∧
    (s.station.worker.state ≠ .draining → s.station.worker.state ≠ .replacing →
      (∃ i, (past config moves i).stage = .begun true) →
        s.station.worker.state = .shuttingDown) ∧
    (s.station.worker.state = .draining ∨ s.station.worker.state = .replacing →
      ∀ more : List (Move γ), (∀ m ∈ more, m.isResume = false) →
        (s.run more).station.worker.state = s.station.worker.state ∧
          (s.run more).station.worker.generation = s.station.worker.generation) := by
  intro s
  have hpause : s.control.stage.isPause = true := by
    rw [show s.control.stage = .resting last from hrest]
    rfl
  have hstranded : s.station.worker.state = .draining ∨ s.station.worker.state = .replacing →
      s.control.Stranded := by
    rintro (hst | hst) <;> exact ⟨hpause, by rw [show s.control.state = _ from hst]; rfl⟩
  refine ⟨?_, ?_, ?_⟩
  · intro st hst
    constructor
    · intro hnow
      obtain ⟨i, hi, hstrands⟩ := exists_strands (hstranded (hnow.symm ▸ hst))
      rw [show ((start config).run moves).control.state = st from hnow] at hstrands
      exact ⟨i, hi, hstrands⟩
    · rintro ⟨i, hi, hstrands⟩
      exact stranded_of_strands hi hstrands hrest
  · rintro hdraining hreplacing ⟨i, hread⟩
    have hobeying : (past config moves i).control.Obeying := by
      refine .inr ⟨?_, fun e he => by cases hread.symm.trans he⟩
      unfold Control.Stopping
      rw [show (past config moves i).control.stage = .begun true from hread]
      trivial
    have hobeyed := obeying_run (paced_run paced_start _) (sane_run paced_start sane_start _)
      hobeying (moves.drop i)
    rw [run_take_drop] at hobeyed
    rcases hobeyed with ⟨-, hst⟩ | ⟨hstop, hok⟩
    · change s.station.worker.state.isLasting = false at hst
      -- Of the states that are not lasting ones both are ruled out.
      cases hstate : s.station.worker.state with
      | draining => exact absurd hstate hdraining
      | replacing => exact absurd hstate hreplacing
      | shuttingDown => rfl
      | idle => rw [hstate] at hst; cases hst
      | running => rw [hstate] at hst; cases hst
    · cases last with
      | error e => exact absurd hrest (hok e)
      | ok _ =>
        unfold Control.Stopping at hstop
        rw [show ((start config).run moves).control.stage = .resting (.ok ()) from hrest] at hstop
        exact hstop
  · intro hst more hhand
    obtain ⟨-, hsame, hcount⟩ := stranded_by_hand (hstranded hst) hhand
    have hrun : s.run more = (start config).run (moves ++ more) := by
      simp only [s, run, List.foldl_append]
    rw [hrun]
    exact ⟨hsame, hcount⟩

end Past

/-- A graph without signals that panics. -/
def samplePanicking : ManualGraph where
  name := "boom"
  outputs := []
  fails := true

/-- The graph is started and panics; a stop is requested, and a tick drains the graph and fails. -/
def sampleAbandoned : List (Move ManualGraph) :=
  List.flatten
    [[.setGraph samplePanicking, .tick], List.replicate 8 .advance, List.replicate 3 .execute,
      [.requestStop, .tick], List.replicate 13 .advance]

/-- Another graph is set, a stop is requested again, and one more tick is made. -/
def sampleRetry : List (Move ManualGraph) :=
  List.flatten [[.setGraph samplePanicking, .requestStop, .tick], List.replicate 3 .advance]

set_option maxRecDepth 4000 in
/-- A tick has left the worker draining, and one more tick does not change that. -/
theorem transient_exact_sample :
    let s := (start {}).run sampleAbandoned
    s.stage = .resting (.error (.scheduler "Graph 'boom' panicked")) ∧
      (∃ i < sampleAbandoned.length, (past {} sampleAbandoned i).Strands
        (past {} sampleAbandoned (i + 1)) .draining) ∧
      (s.run sampleRetry).station.worker.state = .draining ∧
      (s.run sampleRetry).station.worker.generation = 1 := by
  intro s
  have hrest : s.stage = .resting (.error (.scheduler "Graph 'boom' panicked")) := by rfl
  have hst : s.station.worker.state = .draining := by decide +kernel
  have hone : s.station.worker.generation = 1 := by decide +kernel
  obtain ⟨hleft, -, hstuck⟩ := transient_exact {} sampleAbandoned hrest
  obtain ⟨hsame, hcount⟩ := hstuck (.inl hst) sampleRetry (by decide +kernel)
  exact ⟨hrest, (hleft .draining (.inl rfl)).mp hst, hsame.trans hst, hcount.trans hone⟩

set_option maxRecDepth 4000 in
/-- **A transient state persists across ticks, and a stop is not obeyed**: a tick reads that a stop
was requested and ends draining with an error; the next one reads it again, does nothing and
succeeds. -/
theorem draining_left :
    let s := (start {}).run sampleAbandoned
    let t := s.run sampleRetry
    (past {} sampleAbandoned 15).stage = .begun true ∧
      s.stage = .resting (.error (.scheduler "Graph 'boom' panicked")) ∧
      s.station.worker.state = .draining ∧
      t.stage = .resting (.ok ()) ∧ t.station.worker.state = .draining := by
  refine ⟨by rfl, by rfl, by decide +kernel, by rfl, by decide +kernel⟩

end Scene

end Daq
