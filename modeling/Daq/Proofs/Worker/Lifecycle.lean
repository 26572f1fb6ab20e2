import Daq.Proofs.Worker.Control

set_option autoImplicit false

/-!
# What holds of the lifecycle

Facts about the course of a lifecycle thread that every change on the list preserves. Each stage
suits certain states, and says whether a graph is held. As long as no tick has failed, a tick ends
in a lasting state; and once a tick has read that a stop was requested, the worker ends shut down.

## Main definitions

* `Daq.Stage.Suits`, `Daq.Control.Sane` — the states that go with a stage, and whether a graph is
  held there.
* `Daq.Control.Steady` — between ticks, and where a tick begins or ends, the state is a lasting one.
* `Daq.Control.Stopping` — a stop was read and is being obeyed.

## Main results

* `Daq.Control.Shift.sane`, `steady`, `stopping` — every change preserves them.
* `Daq.Control.Shift.generation` — graphs are counted when they are started.
* `Daq.Control.Shift.shuttingDown` — there is no way back, and no graph is started any more.
* `Daq.Control.Shift.joining` — a graph is let go by joining its thread only.
-/

namespace Daq

variable {γ : Type}

/-- The states that suit a stage, and whether a graph is held there. -/
def Stage.Suits : Stage γ → WorkerState → Bool → Prop
  | .passed _, st, g => st = .running ∧ g = true
  | .chosen _, st, g => st = .running ∧ g = true
  | .asking _, st, g => st = .draining ∧ g = true
  | .flushing _ _, st, g => st = .draining ∧ g = true
  | .drained _ _, st, g => st = .draining ∧ g = true
  | .joining _, st, g => st = .draining ∧ g = true
  | .settled _, st, g => st = .draining ∧ g = false
  | .starting _, st, g => (st = .idle ∨ st = .replacing) ∧ g = false
  | .resting (.error _), st, g => st ≠ .running ∧ g = false
  | _, st, g => g = true ↔ st = .running

/-- Whether a worker may stay in a state from tick to tick. -/
def WorkerState.isLasting : WorkerState → Bool
  | .idle => true
  | .running => true
  | .draining => false
  | .replacing => false
  | .shuttingDown => true

/-- Whether a stage is between ticks, or where a tick begins or ends. -/
def Stage.isOpen : Stage γ → Bool
  | .resting (.ok _) => true
  | .begun _ => true
  | .closing => true
  | _ => false

namespace Control

/-- State and graph suit the stage. -/
def Sane (c : Control γ) : Prop := c.stage.Suits c.state c.holds

/-- Where a worker may stay, its state is a lasting one. -/
def Steady (c : Control γ) : Prop := c.stage.isOpen = true → c.state.isLasting = true

/-- A tick has read that a stop was requested; the stop is being obeyed, or was. -/
def Stopping (c : Control γ) : Prop :=
  match c.stage with
  | .begun true => True
  | .passed stop => stop = true
  | .chosen aim => aim = .shutDown
  | .asking aim => aim = .shutDown
  | .flushing aim _ => aim = .shutDown
  | .drained aim _ => aim = .shutDown
  | .joining aim => aim = .shutDown
  | .settled aim => aim = .shutDown
  | .starting _ => False
  | .crashed => False
  | .resting (.error _) => True
  | _ => c.state = .shuttingDown

/-- After the end no graph is held, and none is about to be started. -/
lemma Sane.free {c : Control γ} (hc : c.Sane) (hst : c.state = .shuttingDown) :
    c.holds = false ∧ ∀ x, c.stage ≠ .starting x := by
  unfold Sane at hc
  rw [hst] at hc
  refine ⟨?_, ?_⟩
  · by_contra hne
    rw [Bool.not_eq_false] at hne
    rw [hne] at hc
    unfold Stage.Suits at hc
    split at hc <;> simp at hc
  · intro x hstage
    rw [hstage] at hc
    simp [Stage.Suits] at hc

/-- Where a worker may stay, a graph is held exactly if it is running. -/
lemma Sane.holds_iff {c : Control γ} (hc : c.Sane) (hopen : c.stage.isOpen = true) :
    c.holds = true ↔ c.state = .running := by
  unfold Sane at hc
  cases hstage : c.stage with
  | resting last =>
    rw [hstage] at hc hopen
    cases last with
    | ok _ => exact hc
    | error e => cases hopen
  | begun stop =>
    rw [hstage] at hc
    exact hc
  | closing =>
    rw [hstage] at hc
    exact hc
  | _ =>
    rw [hstage] at hopen
    cases hopen

namespace Shift

variable {c c' : Control γ}

/-- **State and graph keep suiting the stage.** -/
theorem sane (h : Shift c c') (hc : c.Sane) : c'.Sane := by
  cases h with
  | stay c => exact hc
  | begin last stop st g n =>
    cases last with
    | ok _ => exact hc
    | error e =>
      obtain ⟨hst, hg⟩ := hc
      simp only [Sane, Stage.Suits] at hst hg ⊢
      rw [hg]
      exact ⟨fun h => absurd h Bool.false_ne_true, fun h => absurd h hst⟩
  | finish g n => exact hc
  | fail e st g n =>
    obtain ⟨-, hg⟩ := hc
    simp only [Sane, Stage.Suits] at hg ⊢
    simp [hg]
  | obey g n => simpa [Sane, Stage.Suits] using hc
  | idle g n => exact hc
  | take x g n => simpa [Sane, Stage.Suits] using hc
  | pass stop g n => simpa [Sane, Stage.Suits] using hc
  | skip stop st g n _ _ => exact hc
  | choose st g n => exact hc
  | look aim st g n => exact hc
  | missing aim st n => exact absurd hc.2 Bool.false_ne_true
  | goOn st n =>
    obtain ⟨hst, -⟩ := hc
    simp only [Sane, Stage.Suits] at hst ⊢
    simp [hst]
  | drain aim st n => exact ⟨rfl, rfl⟩
  | ask aim st g n => exact hc
  | flush aim passes st g n => exact hc
  | drained aim passes st g n => exact hc
  | clear aim passes st g n => exact hc
  | join aim st n => exact ⟨hc.1, rfl⟩
  | panicked aim e st n =>
    refine ⟨?_, rfl⟩
    obtain ⟨hst, -⟩ := hc
    dsimp only at hst ⊢
    rw [hst]
    decide
  | settle st g n =>
    obtain ⟨-, hg⟩ := hc
    simp only [Sane, Stage.Suits] at hg ⊢
    simp [hg]
  | replace x st g n => exact ⟨.inr rfl, hc.2⟩
  | shutDown st g n =>
    obtain ⟨-, hg⟩ := hc
    simp only [Sane, Stage.Suits] at hg ⊢
    simp [hg]
  | start x st g n => exact ⟨fun _ => rfl, fun _ => rfl⟩
  | refused x e st g n =>
    obtain ⟨hst, hg⟩ := hc
    refine ⟨?_, hg⟩
    rcases hst with hst | hst <;> dsimp only at hst ⊢ <;> rw [hst] <;> decide
  | crash x st g n =>
    obtain ⟨hst, hg⟩ := hc
    simp only [Sane, Stage.Suits] at hst hg ⊢
    rcases hst with hst | hst <;> simp [hst, hg]
  | close st g n => exact hc

/-- **Unless a tick has failed, the state stays a lasting one** where a worker may stay. -/
theorem steady (h : Shift c c') (hsane : c.Sane) (hc : c.Steady)
    (hok : ∀ e, c.stage ≠ .resting (.error e)) : c'.Steady := by
  cases h with
  | stay c => exact hc
  | begin last stop st g n =>
    cases last with
    | ok _ => exact hc
    | error e => exact absurd rfl (hok e)
  | skip stop st g n _ _ => exact fun _ => hc rfl
  | goOn st n =>
    obtain ⟨hst, -⟩ := hsane
    intro _
    dsimp only at hst ⊢
    rw [hst]
    rfl
  | close st g n => exact fun _ => hc rfl
  | obey g n => exact fun _ => rfl
  | idle g n => exact fun _ => rfl
  | settle st g n => exact fun _ => rfl
  | shutDown st g n => exact fun _ => rfl
  | start x st g n => exact fun _ => rfl
  | _ =>
    intro h
    cases h

/-- **A stop that was read is obeyed**, unless a tick fails. -/
theorem stopping (h : Shift c c') (hsteady : c.Steady) (hc : c.Stopping)
    (hok : ∀ e, c.stage ≠ .resting (.error e)) : c'.Stopping := by
  cases h with
  | stay c => exact hc
  | begin last stop st g n =>
    cases last with
    | ok _ =>
      cases stop with
      | true => trivial
      | false => exact hc
    | error e => exact absurd rfl (hok e)
  | finish g n => exact hc
  | fail e st g n => rfl
  | obey g n => rfl
  | idle g n => cases hc
  | take x g n => cases hc
  | pass stop g n =>
    cases stop with
    | true => rfl
    | false => cases hc
  | skip stop st g n hidle hrunning =>
    -- Of the lasting states only one is left.
    have hst := hsteady rfl
    cases st with
    | idle => exact absurd rfl hidle
    | running => exact absurd rfl hrunning
    | draining => cases hst
    | replacing => cases hst
    | shuttingDown => rfl
  | choose st g n => rfl
  | look aim st g n => cases hc
  | missing aim st n => exact hc
  | goOn st n => cases hc
  | drain aim st n => exact hc
  | ask aim st g n => exact hc
  | flush aim passes st g n => exact hc
  | drained aim passes st g n => exact hc
  | clear aim passes st g n => exact hc
  | join aim st n => exact hc
  | panicked aim e st n => trivial
  | settle st g n => cases hc
  | replace x st g n => cases hc
  | shutDown st g n => rfl
  | start x st g n => cases hc
  | refused x e st g n => cases hc
  | crash x st g n => cases hc
  | close st g n => exact hc

/-- **A generation is counted whenever a graph comes to be held.** -/
theorem generation (h : Shift c c') (hc : c.Sane) :
    c'.generation = c.generation + if c.holds = false ∧ c'.holds = true then 1 else 0 := by
  cases h with
  | start x st g n =>
    obtain ⟨-, hg⟩ := hc
    dsimp only at hg ⊢
    simp [hg]
  | _ => simp

/-- **There is no way back from the end, and no graph is started there.** -/
theorem shuttingDown (h : Shift c c') (hc : c.Sane) (hst : c.state = .shuttingDown) :
    c'.state = .shuttingDown ∧ c'.generation = c.generation := by
  cases h with
  | stay c => exact ⟨hst, rfl⟩
  | drain aim st n =>
    obtain ⟨hrunning, -⟩ := hc
    dsimp only at hrunning hst
    rw [hst] at hrunning
    cases hrunning
  | settle st g n =>
    obtain ⟨hdraining, -⟩ := hc
    dsimp only at hdraining hst
    rw [hst] at hdraining
    cases hdraining
  | replace x st g n =>
    obtain ⟨hdraining, -⟩ := hc
    dsimp only at hdraining hst
    rw [hst] at hdraining
    cases hdraining
  | start x st g n =>
    obtain ⟨hfree, -⟩ := hc
    dsimp only at hfree hst
    rw [hst] at hfree
    rcases hfree with hfree | hfree <;> cases hfree
  | _ => first | exact ⟨hst, rfl⟩ | exact ⟨rfl, rfl⟩

/-- A thread is joined after the pollers were let go only. -/
theorem cleared (h : Shift c c') {aim : Aim γ} (hc : c'.stage = .joining aim) :
    c.stage = .joining aim ∨ ∃ passes, c.stage = .drained aim passes := by
  cases h with
  | stay c => exact .inl hc
  | clear aim' passes st g n =>
    cases hc
    exact .inr ⟨passes, rfl⟩
  | _ => cases hc

/-- **A graph is let go by joining its thread only.** -/
theorem joining (h : Shift c c') (hc : c.holds = true) (hc' : c'.holds = false) :
    ∃ aim, c.stage = .joining aim := by
  cases h with
  | join aim st n => exact ⟨aim, rfl⟩
  | panicked aim e st n => exact ⟨aim, rfl⟩
  | start x st g n => cases hc'
  | _ => exact absurd (hc.symm.trans hc') (by decide)

/-- **A graph comes to be held by being started only.** -/
theorem starting (h : Shift c c') (hc : c.holds = false) (hc' : c'.holds = true) :
    ∃ x, c.stage = .starting x := by
  cases h with
  | join aim st n => cases hc
  | panicked aim e st n => cases hc
  | start x st g n => exact ⟨x, rfl⟩
  | _ => exact absurd (hc.symm.trans hc') (by decide)

end Shift

end Control

end Daq
