import Daq.Proofs.Worker.Reports
import Daq.Proofs.Worker.Ticks

set_option autoImplicit false

/-!
# The script of a worker

The events of a worker follow a script. From idle a graph is started or the worker shuts down. A
graph that runs is drained, its thread is joined, and then the worker is idle, replaces the graph or
shuts down; a replacement is started at once. The script is what makes replacing a graph safe: the
drain of one graph and the end of its thread come before the start of the next.

In the course of a tick the events so far are the beginning of a script. Where a tick ends well, the
script is complete and has led to the state of the worker.

## Main definitions

* `Daq.Script` — the sequences of events that lead from one state to another.
* `Daq.changes`, `Daq.generations` — the changes of the state and the graphs started, as events
  report them.
* `Daq.Chained` — each change starts where the one before has ended.
* `Daq.Control.Told` — the events so far go with the course.

## Main results

* `Daq.Script.chained`, `Daq.Script.generations_eq`, `Daq.Script.after_started`,
  `Daq.Script.after_end` — what a script says.
* `Daq.Control.Shift.told` — every change goes on with the script.
* `Daq.Scene.events_scripted` — the events of every run in which no tick fails.
-/

namespace Daq

/-! ### Scripts -/

/-- The events that lead from a state with so many graphs started to another one. -/
inductive Script : WorkerState → Nat → List WorkerEvent → WorkerState → Nat → Prop where
  /-- Nothing happens. -/
  | nil (st : WorkerState) (n : Nat) : Script st n [] st n
  /-- From idle, a graph is started. -/
  | start {n m : Nat} {es : List WorkerEvent} {st : WorkerState} (name : String)
      (rest : Script .running (n + 1) es st m) :
      Script .idle n
        (.stateChanged .idle .running :: .graphStarted (n + 1) name :: es) st m
  /-- From idle, the worker shuts down. -/
  | obey {n m : Nat} {es : List WorkerEvent} {st : WorkerState}
      (rest : Script .shuttingDown n es st m) :
      Script .idle n (.stateChanged .idle .shuttingDown :: es) st m
  /-- The graph that runs is drained, and then its thread is joined. -/
  | leave {n m : Nat} {es : List WorkerEvent} {st : WorkerState} (passes : Nat)
      (next : WorkerState) (once : 1 ≤ passes)
      (choice : next = .replacing ∨ next = .idle ∨ next = .shuttingDown)
      (rest : Script next n es st m) :
      Script .running n
        (.stateChanged .running .draining :: .drainCompleted n passes :: .graphStopped n ::
          .stateChanged .draining next :: es) st m
  /-- A replacement is started at once. -/
  | replace {n m : Nat} {es : List WorkerEvent} {st : WorkerState} (name : String)
      (rest : Script .running (n + 1) es st m) :
      Script .replacing n
        (.stateChanged .replacing .running :: .graphStarted (n + 1) name :: es) st m

/-- The change of the state that an event reports. -/
def WorkerEvent.change? : WorkerEvent → Option (WorkerState × WorkerState)
  | .stateChanged source target => some (source, target)
  | _ => none

/-- The generation whose start an event reports. -/
def WorkerEvent.started? : WorkerEvent → Option Nat
  | .graphStarted generation _ => some generation
  | _ => none

/-- The changes of the state that events report. -/
def changes (es : List WorkerEvent) : List (WorkerState × WorkerState) :=
  es.filterMap WorkerEvent.change?

/-- The generations whose start events report. -/
def generations (es : List WorkerEvent) : List Nat := es.filterMap WorkerEvent.started?

/-- Each change starts in the state in which the one before has ended, and ends in another one. -/
def Chained : WorkerState → List (WorkerState × WorkerState) → Prop
  | _, [] => True
  | st, c :: cs => c.1 = st ∧ c.2 ≠ c.1 ∧ Chained c.2 cs

/-- The beginning of a chain is a chain. -/
lemma Chained.of_append {st : WorkerState} {cs ds : List (WorkerState × WorkerState)}
    (h : Chained st (cs ++ ds)) : Chained st cs := by
  induction cs generalizing st with
  | nil => trivial
  | cons c cs ih => exact ⟨h.1, h.2.1, ih h.2.2⟩

namespace Script

variable {st mid st' : WorkerState} {n k m : Nat} {es ds : List WorkerEvent}

/-- One script after the other. -/
lemma trans (h : Script st n es mid k) (h' : Script mid k ds st' m) :
    Script st n (es ++ ds) st' m := by
  induction h with
  | nil => exact h'
  | start name _ ih => exact .start name (ih h')
  | obey _ ih => exact .obey (ih h')
  | leave passes next once choice _ ih => exact .leave passes next once choice (ih h')
  | replace name _ ih => exact .replace name (ih h')

/-- The changes of the state are a chain. -/
lemma chained (h : Script st n es st' m) : Chained st (changes es) := by
  induction h with
  | nil => trivial
  | start name _ ih => exact ⟨rfl, by decide, ih⟩
  | obey _ ih => exact ⟨rfl, by decide, ih⟩
  | leave passes next _ choice _ ih =>
    refine ⟨rfl, by decide, rfl, ?_, ih⟩
    rcases choice with rfl | rfl | rfl <;> decide
  | replace name _ ih => exact ⟨rfl, by decide, ih⟩

/-- **Generations are counted one by one.** -/
lemma generations_eq (h : Script st n es st' m) :
    n ≤ m ∧ generations es = List.range' (n + 1) (m - n) := by
  have hstart : ∀ {n m : Nat} {es : List WorkerEvent},
      n + 1 ≤ m ∧ generations es = List.range' (n + 2) (m - (n + 1)) →
      n ≤ m ∧ (n + 1) :: generations es = List.range' (n + 1) (m - n) := by
    rintro n m es ⟨hle, hrest⟩
    refine ⟨by omega, ?_⟩
    rw [hrest, show m - n = m - (n + 1) + 1 by omega, List.range'_succ]
  induction h with
  | nil => exact ⟨le_rfl, by rw [Nat.sub_self]; rfl⟩
  | start name _ ih => exact hstart ih
  | obey _ ih => exact ih
  | leave passes next _ _ _ ih => exact ih
  | replace name _ ih => exact hstart ih

/-- What comes before an event that is not the first. -/
lemma of_cons_eq {a b : WorkerEvent} {before after : List WorkerEvent} (hne : a ≠ b)
    (h : a :: es = before ++ b :: after) :
    ∃ earlier, before = a :: earlier ∧ es = earlier ++ b :: after := by
  rcases List.cons_eq_append_iff.mp h with ⟨-, hfirst⟩ | hlater
  · exact absurd (List.cons.inj hfirst).1.symm hne
  · exact hlater

/-- **What comes before and after the start of a graph**: it comes directly after the change to
running, and a script from running follows. -/
lemma after_started (h : Script st n es st' m) {before after : List WorkerEvent} {g : Nat}
    {name : String} (hes : es = before ++ .graphStarted g name :: after) :
    (∃ earlier source, before = earlier ++ [.stateChanged source .running]) ∧
      Script .running g after st' m := by
  induction h generalizing before with
  | nil => simp at hes
  | start word rest ih =>
    obtain ⟨before₁, rfl, h₁⟩ := of_cons_eq (by simp) hes
    rcases List.cons_eq_append_iff.mp h₁ with ⟨rfl, hfirst⟩ | ⟨before₂, rfl, hlater⟩
    · cases hfirst
      exact ⟨⟨[], .idle, rfl⟩, rest⟩
    · obtain ⟨⟨earlier, source, rfl⟩, hafter⟩ := ih hlater
      exact ⟨⟨_ :: _ :: earlier, source, rfl⟩, hafter⟩
  | obey _ ih =>
    obtain ⟨before₁, rfl, h₁⟩ := of_cons_eq (by simp) hes
    obtain ⟨⟨earlier, source, rfl⟩, hafter⟩ := ih h₁
    exact ⟨⟨_ :: earlier, source, rfl⟩, hafter⟩
  | leave passes next _ _ _ ih =>
    obtain ⟨before₁, rfl, h₁⟩ := of_cons_eq (by simp) hes
    obtain ⟨before₂, rfl, h₂⟩ := of_cons_eq (by simp) h₁
    obtain ⟨before₃, rfl, h₃⟩ := of_cons_eq (by simp) h₂
    obtain ⟨before₄, rfl, h₄⟩ := of_cons_eq (by simp) h₃
    obtain ⟨⟨earlier, source, rfl⟩, hafter⟩ := ih h₄
    exact ⟨⟨_ :: _ :: _ :: _ :: earlier, source, rfl⟩, hafter⟩
  | replace word rest ih =>
    obtain ⟨before₁, rfl, h₁⟩ := of_cons_eq (by simp) hes
    rcases List.cons_eq_append_iff.mp h₁ with ⟨rfl, hfirst⟩ | ⟨before₂, rfl, hlater⟩
    · cases hfirst
      exact ⟨⟨[], .replacing, rfl⟩, rest⟩
    · obtain ⟨⟨earlier, source, rfl⟩, hafter⟩ := ih hlater
      exact ⟨⟨_ :: _ :: earlier, source, rfl⟩, hafter⟩

/-- At the end nothing is left to happen. -/
lemma of_shuttingDown (h : Script .shuttingDown n es st' m) :
    es = [] ∧ st' = .shuttingDown ∧ m = n := by
  cases h
  exact ⟨rfl, rfl, rfl⟩

/-- **Nothing follows the end.** -/
lemma after_end (h : Script st n es st' m) {before after : List WorkerEvent} {source : WorkerState}
    (hes : es = before ++ .stateChanged source .shuttingDown :: after) : after = [] := by
  induction h generalizing before with
  | nil => simp at hes
  | start word _ ih =>
    obtain ⟨before₁, rfl, h₁⟩ := of_cons_eq (by simp) hes
    obtain ⟨before₂, rfl, h₂⟩ := of_cons_eq (by simp) h₁
    exact ih h₂
  | obey rest ih =>
    rcases List.cons_eq_append_iff.mp hes with ⟨rfl, hfirst⟩ | ⟨before₁, rfl, hlater⟩
    · cases hfirst
      exact rest.of_shuttingDown.1
    · exact ih hlater
  | leave passes next _ _ rest ih =>
    obtain ⟨before₁, rfl, h₁⟩ := of_cons_eq (by simp) hes
    obtain ⟨before₂, rfl, h₂⟩ := of_cons_eq (by simp) h₁
    obtain ⟨before₃, rfl, h₃⟩ := of_cons_eq (by simp) h₂
    rcases List.cons_eq_append_iff.mp h₃ with ⟨rfl, hfirst⟩ | ⟨before₄, rfl, hlater⟩
    · cases hfirst
      exact rest.of_shuttingDown.1
    · exact ih hlater
  | replace word _ ih =>
    obtain ⟨before₁, rfl, h₁⟩ := of_cons_eq (by simp) hes
    obtain ⟨before₂, rfl, h₂⟩ := of_cons_eq (by simp) h₁
    exact ih h₂

/-- A graph that was stopped is not the one that runs, nor one that is still to come. -/
lemma stopped_lt (h : Script st n es st' m) {k : Nat} (hk : .graphStopped k ∈ es) :
    k ≤ m ∧ (st' = .running → k < m) := by
  induction h with
  | nil => cases hk
  | start word _ ih => exact ih (by simpa using hk)
  | obey _ ih => exact ih (by simpa using hk)
  | leave passes next _ choice rest ih =>
    simp only [List.mem_cons, reduceCtorEq, WorkerEvent.graphStopped.injEq, false_or] at hk
    rcases hk with rfl | hk
    · have hle := rest.generations_eq.1
      refine ⟨hle, ?_⟩
      rintro rfl
      -- To run again, another graph must have been started.
      cases rest with
      | nil => simp at choice
      | start _ rest => exact rest.generations_eq.1
      | replace _ rest => exact rest.generations_eq.1
      | obey rest => cases rest
      | leave => simp at choice
    · exact ih hk
  | replace word _ ih => exact ih (by simpa using hk)

/-- No script says that the worker failed. -/
lemma failed_not_mem (h : Script st n es st' m) (message : String) : .failed message ∉ es := by
  induction h with
  | nil => exact List.not_mem_nil
  | _ => simpa

/-- A script does not end in the course of a drain. -/
lemma ne_draining (h : Script st n es st' m) (hst : st ≠ .draining) : st' ≠ .draining := by
  induction h with
  | nil => exact hst
  | start word _ ih => exact ih (by simp)
  | obey _ ih => exact ih (by simp)
  | leave passes next _ choice _ ih => exact ih (by rcases choice with rfl | rfl | rfl <;> simp)
  | replace word _ ih => exact ih (by simp)

end Script

/-! ### The course of the lifecycle thread -/

/-- A graph has run and is on its way out, with these events since its drain began. -/
def Departing (g : Nat) (since es : List WorkerEvent) : Prop :=
  ∃ story, es = story ++ .stateChanged .running .draining :: since ∧
    Script .idle 0 story .running g

/-- A graph was drained, and its thread was not joined. -/
def Flushed (g : Nat) (es : List WorkerEvent) : Prop :=
  ∃ passes, 1 ≤ passes ∧ Departing g [.drainCompleted g passes] es

/-- A graph was drained and its thread was joined. -/
def Parted (g : Nat) (es : List WorkerEvent) : Prop :=
  ∃ passes, 1 ≤ passes ∧ Departing g [.drainCompleted g passes, .graphStopped g] es

/-- After a graph was drained and its thread was joined, the worker goes to the next state. -/
lemma Parted.leave {g : Nat} {es : List WorkerEvent} (h : Parted g es) {next : WorkerState}
    (choice : next = .replacing ∨ next = .idle ∨ next = .shuttingDown) :
    Script .idle 0 (es ++ [.stateChanged .draining next]) next g := by
  obtain ⟨passes, honce, story, rfl, hstory⟩ := h
  rw [List.append_assoc]
  exact hstory.trans (.leave passes next honce choice (.nil next g))

/-- The events that have led to a state. After a thread was joined that had failed, a worker is
left draining. -/
def LedTo (st : WorkerState) (g : Nat) (es : List WorkerEvent) : Prop :=
  Script .idle 0 es st g ∨ st = .draining ∧ Flushed g es

/-- Unless the worker is draining, a complete script has led to its state. -/
lemma LedTo.script {st : WorkerState} {g : Nat} {es : List WorkerEvent} (h : LedTo st g es)
    (hst : st ≠ .draining) : Script .idle 0 es st g :=
  h.resolve_right fun hdraining => hst hdraining.1

/-- Nothing that has led to a state says that the worker failed. -/
lemma LedTo.failed_not_mem {st : WorkerState} {g : Nat} {es : List WorkerEvent} (h : LedTo st g es)
    (message : String) : .failed message ∉ es := by
  rcases h with hscript | ⟨-, passes, -, story, rfl, hscript⟩
  · exact hscript.failed_not_mem message
  · simpa using hscript.failed_not_mem message

namespace Control

variable {γ : Type}

/-- The events so far go with the course of the lifecycle thread. -/
def Told (c : Control γ) (es : List WorkerEvent) : Prop :=
  match c.stage with
  | .asking _ => Departing c.generation [] es
  | .flushing _ _ => Departing c.generation [] es
  | .drained _ passes => 1 ≤ passes ∧ Departing c.generation [] es
  | .joining _ => Flushed c.generation es
  | .settled _ => Parted c.generation es
  | .resting (.error _) => c.state ≠ .shuttingDown ∧ LedTo c.state c.generation es
  | .over (.ok _) => c.state = .shuttingDown ∧ Script .idle 0 es .shuttingDown c.generation
  | .over (.error e) => c.state = .shuttingDown ∧ ∃ story st,
      es = story ++ [.stateChanged st .shuttingDown, .failed e.message] ∧
        LedTo st c.generation story
  | _ => LedTo c.state c.generation es

namespace Shift

variable [FlowGraph γ] {c c' : Control γ} {es : List WorkerEvent}

/-- A change without events goes on with the script where what it leads to goes with the events. -/
lemma told_of_quiet (hquiet : c.news c' = []) (hc : c'.Told es) : c'.Told (es ++ c.news c') := by
  rw [hquiet, List.append_nil]
  exact hc

omit [FlowGraph γ] in
/-- A worker that has ended with an error has been between ticks, after one that failed. -/
lemma failed (h : Shift c c') {e : AcqError} (hc : c'.stage = .over (.error e)) :
    c.stage = .over (.error e) ∨ c.stage = .resting (.error e) := by
  cases h with
  | stay c => exact .inl hc
  | fail e' st g n =>
    cases hc
    exact .inr rfl
  | _ => cases hc

/-- **Every change goes on with the script.** -/
theorem told (h : Shift c c') (hsane : c.Sane) (hc : c.Told es) : c'.Told (es ++ c.news c') := by
  cases h with
  | stay c => exact told_of_quiet (by simp [news]) hc
  | begin last stop st g n =>
    refine told_of_quiet (by simp [news, issues]) ?_
    cases last with
    | ok _ => exact hc
    | error e => exact hc.2
  | finish g n =>
    have hscript : Script .idle 0 es .shuttingDown n := LedTo.script hc (by simp)
    exact told_of_quiet (by rfl) ⟨rfl, hscript⟩
  | fail e st g n =>
    obtain ⟨hst, hled⟩ := hc
    change st ≠ .shuttingDown at hst
    exact ⟨rfl, es, st, by simp [news, issues, hst, Publication.event?, List.filterMap_cons], hled⟩
  | obey g n =>
    have hscript : Script .idle 0 es .idle n := LedTo.script hc (by simp)
    exact .inl (hscript.trans (.obey (.nil .shuttingDown n)))
  | idle g n => exact told_of_quiet (by rfl) hc
  | take x g n => exact told_of_quiet (by rfl) hc
  | pass stop g n => exact told_of_quiet (by rfl) hc
  | skip stop st g n hidle hrunning => exact told_of_quiet (by simp [news, issues]) hc
  | choose st g n => exact told_of_quiet (by simp [news, issues]) hc
  | look aim st g n => exact told_of_quiet (by simp [news, issues]) hc
  | missing aim st n => exact absurd hsane.2 Bool.false_ne_true
  | goOn st n => exact told_of_quiet (by simp [news, issues]) hc
  | drain aim st n =>
    obtain rfl : st = .running := hsane.1
    exact ⟨es, rfl, LedTo.script hc (by simp)⟩
  | ask aim st g n => exact told_of_quiet (by simp [news, issues]) hc
  | flush aim passes st g n => exact told_of_quiet (by simp [news, issues]) hc
  | drained aim passes st g n =>
    exact told_of_quiet (by simp [news, issues]) ⟨by omega, hc⟩
  | clear aim passes st g n =>
    obtain ⟨honce, story, rfl, hstory⟩ := hc
    refine ⟨passes, honce, story, ?_, hstory⟩
    simp [news, issues, Publication.event?]
  | join aim st n =>
    obtain ⟨passes, honce, story, rfl, hstory⟩ := hc
    refine ⟨passes, honce, story, ?_, hstory⟩
    simp [news, issues, Publication.event?]
  | panicked aim e st n =>
    obtain rfl : st = .draining := hsane.1
    exact told_of_quiet (by rfl) ⟨by simp, .inr ⟨rfl, hc⟩⟩
  | settle st g n =>
    obtain rfl : st = .draining := hsane.1
    exact .inl (hc.leave (by simp))
  | replace x st g n =>
    obtain rfl : st = .draining := hsane.1
    exact .inl (hc.leave (by simp))
  | shutDown st g n =>
    obtain rfl : st = .draining := hsane.1
    exact .inl (hc.leave (by simp))
  | start x st g n =>
    have hst : st = .idle ∨ st = .replacing := hsane.1
    have hrunning := Script.nil .running (n + 1)
    rcases hst with rfl | rfl
    · exact .inl ((LedTo.script hc (by simp)).trans (.start _ hrunning))
    · exact .inl ((LedTo.script hc (by simp)).trans (.replace _ hrunning))
  | refused x e st g n =>
    have hst : st = .idle ∨ st = .replacing := hsane.1
    refine told_of_quiet (by simp [news, issues]) ⟨?_, hc⟩
    rcases hst with rfl | rfl <;> simp
  | crash x st g n => exact told_of_quiet (by simp [news, issues]) hc
  | close st g n =>
    exact told_of_quiet (by simp [news, issues, Publication.event?, List.filterMap_cons]) hc

end Shift

end Control

/-! ### Beginnings -/

/-- The events are the beginning of a script that leads to a lasting state. -/
def Begins (es : List WorkerEvent) : Prop :=
  ∃ rest st n, Script .idle 0 (es ++ rest) st n ∧ st.isLasting = true

section Begins

variable {es more : List WorkerEvent} {g : Nat}

/-- The beginning of a beginning. -/
lemma Begins.of_append (h : Begins (es ++ more)) : Begins es := by
  obtain ⟨rest, st, n, hscript, hlasting⟩ := h
  rw [List.append_assoc] at hscript
  exact ⟨more ++ rest, st, n, hscript, hlasting⟩

/-- More events since a drain began. -/
lemma Departing.append {since : List WorkerEvent} (h : Departing g since es) :
    Departing g (since ++ more) (es ++ more) := by
  obtain ⟨story, rfl, hstory⟩ := h
  exact ⟨story, by simp, hstory⟩

/-- After a graph was drained and its thread was joined, a worker can become idle. -/
lemma Parted.begins (h : Parted g es) : Begins es :=
  ⟨[.stateChanged .draining .idle], .idle, g, h.leave (.inr (.inl rfl)), rfl⟩

/-- After a graph was drained, its thread can be joined. -/
lemma Flushed.begins (h : Flushed g es) : Begins es := by
  obtain ⟨passes, honce, hdeparting⟩ := h
  have hparted : Parted g (es ++ [.graphStopped g]) := ⟨passes, honce, hdeparting.append⟩
  exact hparted.begins.of_append

/-- A drain that has begun can be brought to its end. -/
lemma Departing.begins (h : Departing g [] es) : Begins es := by
  have hflushed : Flushed g (es ++ [.drainCompleted g 1]) := ⟨1, le_rfl, h.append⟩
  exact hflushed.begins.of_append

/-- What has led to a state is the beginning of a script. -/
lemma LedTo.begins {st : WorkerState} (h : LedTo st g es) : Begins es := by
  rcases h with hscript | ⟨-, hflushed⟩
  · cases st with
    | idle => exact ⟨[], .idle, g, by rwa [List.append_nil], rfl⟩
    | running => exact ⟨[], .running, g, by rwa [List.append_nil], rfl⟩
    | shuttingDown => exact ⟨[], .shuttingDown, g, by rwa [List.append_nil], rfl⟩
    | replacing => exact ⟨_, _, _, hscript.trans (.replace "" (.nil .running (g + 1))), rfl⟩
    | draining => exact absurd rfl (hscript.ne_draining (by simp))
  · exact hflushed.begins

/-- **Unless the worker has ended with an error, the events so far are the beginning of a script.** -/
lemma Control.Told.begins {γ : Type} {c : Control γ} (h : c.Told es)
    (hok : ∀ e, c.stage ≠ .over (.error e)) : Begins es := by
  unfold Control.Told at h
  split at h
  · exact h.begins
  · exact h.begins
  · exact h.2.begins
  · exact Flushed.begins h
  · exact Parted.begins h
  · exact h.2.begins
  · exact LedTo.begins (.inl h.2)
  · exact absurd ‹_› (hok _)
  · exact LedTo.begins h

end Begins

/-- **Where a worker rests after a tick that did not fail**, or has ended without an error, a
complete script has led to its state. -/
lemma Control.Told.script {γ : Type} {c : Control γ} {es : List WorkerEvent} (h : c.Told es)
    (hsteady : c.Steady) (hstage : c.stage = .resting (.ok ()) ∨ c.stage = .over (.ok ())) :
    Script .idle 0 es c.state c.generation ∧ c.state.isLasting = true := by
  unfold Control.Told at h
  rcases hstage with hstage | hstage <;> rw [hstage] at h
  · have hlasting := hsteady (by rw [hstage]; rfl)
    refine ⟨LedTo.script h ?_, hlasting⟩
    intro hdraining
    rw [hdraining] at hlasting
    cases hlasting
  · obtain ⟨hst, hscript⟩ := h
    rw [hst]
    exact ⟨hscript, rfl⟩

namespace Scene

open Control

variable {γ : Type}

variable [FlowGraph γ] {s : Scene γ}

/-- The events of a run go with the course of the lifecycle thread. -/
theorem told_run (config : WorkerConfig) (moves : List (Move γ)) :
    ((start config).run moves).control.Told ((start config).decided moves) := by
  induction moves using List.reverseRecOn with
  | nil => exact .inl (.nil .idle 0)
  | append_singleton moves m ih =>
    have hsane : ((start config : Scene γ).run moves).control.Sane :=
      sane_run paced_start sane_start moves
    rw [decided_concat, run_append]
    exact (shift_perform (paced_run paced_start moves) m).told hsane ih

/-- As long as no tick fails, the worker does not end with an error. -/
lemma ne_over_error_run (hs : s.Paced) (hne : ∀ e, s.stage ≠ .over (.error e))
    {moves : List (Move γ)} (hok : s.unfailed moves = true) (e : AcqError) :
    (s.run moves).stage ≠ .over (.error e) := by
  induction moves generalizing s with
  | nil => exact hne e
  | cons m moves ih =>
    have hnow := Stage.ne_error (isFailed_of_unfailed hok)
    simp only [unfailed, Bool.and_eq_true] at hok
    refine ih (paced_perform hs m) ?_ hok.2
    intro e' he'
    rcases (shift_perform hs m).failed he' with hover | hfailed
    · exact hne e' hover
    · exact hnow e' hfailed

/-- Where the worker rests and no tick has failed, everything is made known, and the last tick or the
whole loop has ended well. -/
lemma stage_of_isAtRest (hs : s.Paced) (hne : ∀ e, s.stage ≠ .over (.error e))
    {moves : List (Move γ)} (hok : s.unfailed moves = true)
    (hrest : (s.run moves).station.worker.isAtRest = true) (hcrash : (s.run moves).stage ≠ .crashed) :
    (s.run moves).due = [] ∧
      ((s.run moves).stage = .resting (.ok ()) ∨ (s.run moves).stage = .over (.ok ())) := by
  have hdue : (s.run moves).station.worker.outbox.isEmpty = true → (s.run moves).due = [] := by
    intro hout
    rw [due, List.isEmpty_iff.mp hout]
    rfl
  have hnow : (s.run moves).stage.isFailed = false := by
    have hlast := isFailed_of_unfailed (unfailed_drop hok moves.length)
    rwa [List.take_length] at hlast
  have hover := ne_over_error_run hs hne hok
  unfold Worker.isAtRest at hrest
  split at hrest
  · rename_i last hstage
    cases last with
    | ok _ => exact ⟨hdue hrest, .inl hstage⟩
    | error e => exact absurd hstage (Stage.ne_error hnow e)
  · rename_i r hstage
    cases r with
    | ok _ => exact ⟨hdue hrest, .inr hstage⟩
    | error e => exact absurd hstage (hover e)
  · exact absurd ‹_› hcrash
  · cases hrest

/-- **The events of a worker** in every sequence of moves in which no tick fails, before any of them
is lost in the channel:
* they are offered to the channel in this order;
* they are the beginning of a script from idle, and where the worker rests the script is complete;
* a graph is reported as started directly after the change to running, and after that a script from
  running goes on;
* each change of the state starts where the one before has ended, and ends elsewhere;
* graphs are numbered one by one, and nothing follows the change to shutting down.

**Proof sketch.** What was reported and what is still to be follows from the changes in the course of
the lifecycle thread alone, and every change goes on with the script. -/
theorem events_scripted (config : WorkerConfig) (moves : List (Move γ))
    (hok : (start config).unfailed moves = true) :
    let s := (start config).run moves
    let es := (start config).reports moves
    s.station.worker.events = (Queue.ofCapacity config.eventCapacity).publishAll es ∧
    (∃ rest st n, Script .idle 0 (es ++ rest) st n ∧ st.isLasting = true ∧
      (s.station.worker.isAtRest = true → s.stage ≠ .crashed →
        rest = [] ∧ st = s.station.worker.state ∧ n = s.station.worker.generation) ∧
      ∀ before g name after, es = before ++ .graphStarted g name :: after →
        (∃ earlier source, before = earlier ++ [.stateChanged source .running]) ∧
          Script .running g (after ++ rest) st n) ∧
    Chained .idle (changes es) ∧
    generations es = List.range' 1 (generations es).length ∧
    ∀ before source after, es = before ++ .stateChanged source .shuttingDown :: after →
      after = [] := by
  intro s es
  have htold : s.control.Told ((start config).decided moves) := told_run config moves
  have hnone : ∀ e, (start config : Scene γ).stage ≠ .over (.error e) := fun e he => by cases he
  have hbegins : Begins es := by
    have hall : Begins (es ++ s.due) := by
      rw [reports_start]
      exact htold.begins (ne_over_error_run paced_start hnone hok)
    exact hall.of_append
  have hscript : ∃ rest st n, Script .idle 0 (es ++ rest) st n ∧ st.isLasting = true ∧
      (s.station.worker.isAtRest = true → s.stage ≠ .crashed →
        rest = [] ∧ st = s.station.worker.state ∧ n = s.station.worker.generation) := by
    by_cases hrest : s.station.worker.isAtRest = true ∧ s.stage ≠ .crashed
    · obtain ⟨hdue, hstage⟩ := stage_of_isAtRest paced_start hnone hok hrest.1 hrest.2
      have htold' := htold
      rw [← reports_start, show ((start config).run moves).due = [] from hdue] at htold'
      have hsteady := steady_run paced_start sane_start (fun _ => rfl) hok
      obtain ⟨hscript, hlasting⟩ := htold'.script hsteady hstage
      exact ⟨[], _, _, hscript, hlasting, fun _ _ => ⟨rfl, rfl, rfl⟩⟩
    · obtain ⟨rest, st, n, hscript, hlasting⟩ := hbegins
      exact ⟨rest, st, n, hscript, hlasting, fun h h' => absurd ⟨h, h'⟩ hrest⟩
  obtain ⟨rest, st, n, hscript, hlasting, hcomplete⟩ := hscript
  refine ⟨events_run paced_start moves, ⟨rest, st, n, hscript, hlasting, hcomplete, ?_⟩, ?_, ?_, ?_⟩
  · intro before g name after hes
    exact hscript.after_started (by rw [hes, List.append_assoc, List.cons_append])
  · have hchained := hscript.chained
    rw [changes, List.filterMap_append] at hchained
    exact hchained.of_append
  · have hgenerations := hscript.generations_eq.2
    rw [generations, List.filterMap_append, eq_comm, List.range'_eq_append_iff] at hgenerations
    obtain ⟨k, -, hes, -⟩ := hgenerations
    have hlength : (generations es).length = k := by
      rw [generations, hes, List.length_range']
    rw [hlength]
    exact hes
  · intro before source after hes
    have hall : es ++ rest = before ++ .stateChanged source .shuttingDown :: (after ++ rest) := by
      rw [hes, List.append_assoc, List.cons_append]
    exact (List.append_eq_nil_iff.mp (hscript.after_end hall)).1

/-- A graph is started, and another takes its place when its thread has ended. -/
def sampleSwap : List (Move ManualGraph) :=
  List.flatten
    [[.setGraph { name := "first", outputs := [] }, .tick], List.replicate 8 .advance,
      [.setGraph { name := "second", outputs := [] }, .tick], List.replicate 15 .advance,
      List.replicate 3 .execute, List.replicate 14 .advance]

/-- Between the two graphs lies a complete script: the first was drained and its thread was joined
before the second was started, and the second runs. -/
theorem events_scripted_swap :
    ∃ after, (start {}).reports sampleSwap =
        [.stateChanged .idle .running] ++ .graphStarted 1 "first" :: after ∧
      after.length = 6 ∧ Script .running 1 after .running 2 := by
  have hok : (start {}).unfailed sampleSwap = true := by decide +kernel
  have hrest : ((start {}).run sampleSwap).station.worker.isAtRest = true := by decide +kernel
  have hstage : ((start {}).run sampleSwap).stage = .resting (.ok ()) := by rfl
  have hstate : ((start {}).run sampleSwap).station.worker.state = .running := by decide +kernel
  have htwo : ((start {}).run sampleSwap).station.worker.generation = 2 := by decide +kernel
  have hreports : (start {}).reports sampleSwap =
      [.stateChanged .idle .running] ++ .graphStarted 1 "first" ::
        ((start {}).reports sampleSwap).drop 2 := by decide +kernel
  have hlength : (((start {}).reports sampleSwap).drop 2).length = 6 := by decide +kernel
  obtain ⟨-, ⟨rest, st, n, -, -, hcomplete, hafter⟩, -⟩ := events_scripted {} sampleSwap hok
  obtain ⟨rfl, rfl, rfl⟩ := hcomplete hrest (by rw [hstage]; simp)
  have hscript := (hafter _ 1 "first" _ hreports).2
  rw [List.append_nil, hstate, htwo] at hscript
  exact ⟨_, hreports, hlength, hscript⟩

end Scene

end Daq
