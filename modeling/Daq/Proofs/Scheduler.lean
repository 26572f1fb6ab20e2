import Daq.Graph.Manual
import Daq.Scheduler
import Mathlib.Data.List.Basic
import Mathlib.Logic.Function.Iterate

set_option autoImplicit false

/-!
# The protocol of a scheduler

A step of an execution thread is not one act. It reads the flag for a stop, calls the graph, and
goes on when the graph has returned or failed. Between any two of these acts the owner of the
scheduler may ask for a stop, ask whether the thread is running, or begin to wait for its end, and
others may change the sinks. All that happens is entered into a log.

The end of a thread comes in stages: no more work is called, the graph is stopped, it has returned,
the running flag is cleared, the thread has ended. Stages are never left backwards, and each event
belongs to some of them. So the order of events in a log follows from the stages that they belong to.

## Main definitions

* `Daq.Execution` — a scheduler with its owner, and the log.
* `Daq.Execution.execute` — what the execution thread does next.
* `Daq.Execution.Move`, `Daq.Execution.run` — what thread, owner and others do, in any order.
* `Daq.Execution.stage`, `Daq.Execution.Event.stage`, `Daq.Execution.Event.limit` — how far an end
  has come, what an event says of it, and until when the event can happen.
* `Daq.Execution.Faithful` — the log agrees with the scheduler.

## Main results

* `Daq.Execution.exists_iterate_execute` — a thread left alone makes the steps of its scheduler.
* `Daq.Execution.Faithful.perform` — every move keeps a log faithful.
* `Daq.Execution.ended_of_heeds` — a thread that is to end does so.
* `Daq.Execution.protocol_exact` — the order of events in any run.
-/

namespace Daq

/-- A graph with a thread of its own is the one that was to be started. -/
lemma Scheduler.eq_of_launch {γ : Type} [FlowGraph γ] {refusal : Option String} {g : γ} {h h' : Hub}
    {x : Scheduler γ} (hx : Scheduler.launch refusal g h = .started x h') : x = { graph := g } := by
  unfold Scheduler.launch at hx
  split at hx
  · cases hx
  · split at hx
    · cases hx
    · cases hx
      rfl

namespace Execution

/-- What happens while a graph is executed. -/
inductive Event where
  /-- The thread reads whether a stop was requested. -/
  | read (found : Bool)
  /-- A round of work begins. -/
  | workCalled
  /-- A round of work is over; its status is none if the graph failed. -/
  | workReturned (status : Option WorkStatus)
  /-- The graph is told to stop. -/
  | stopCalled
  /-- The graph has stopped; false if it failed. -/
  | stopReturned (ok : Bool)
  /-- The running flag is cleared. -/
  | cleared
  /-- The thread has ended. -/
  | ended
  /-- The owner asks for a stop. -/
  | requested
  /-- The owner asks whether the thread is running. -/
  | asked (running : Bool)
  /-- The owner has waited for the result. -/
  | joined (result : Except AcqError Unit)
  /-- The owner has given the scheduler up. -/
  | dropped
  deriving DecidableEq

/-- Whether an event is a failure of the graph. -/
def Event.isPanic : Event → Bool
  | .workReturned none => true
  | .stopReturned false => true
  | _ => false

/-- Where a thread is between the acts of a step. -/
inductive Position where
  /-- A step is over. -/
  | between
  /-- No stop was requested. -/
  | checked
  /-- A round of work is under way. -/
  | working
  /-- A round of work is over. -/
  | worked (status : Option WorkStatus)
  /-- The graph is being stopped. -/
  | halting
  /-- The graph has stopped, or failed to. -/
  | halted (ok : Bool)

/-- What the owner of a scheduler is about. -/
inductive Owner where
  /-- The scheduler is held. -/
  | holding
  /-- The owner waits for the result. -/
  | joining
  /-- The owner waits for the end, and does not want to know the result. -/
  | dropping
  /-- The scheduler is given up. -/
  | released

end Execution

/-- A scheduler with its thread, its owner and the sinks, and a log of what has happened. -/
structure Execution (γ : Type) where
  /-- The scheduler. -/
  scheduler : Scheduler γ
  /-- The sinks. -/
  hub : Hub
  /-- Where the thread is in its step. -/
  position : Execution.Position := .between
  /-- What the owner is about. -/
  owner : Execution.Owner := .holding
  /-- What has happened, in order. -/
  log : List Execution.Event := []

namespace Execution

variable {γ : Type}

/-- A scheduler that has just been launched. -/
def start (s : Scheduler γ) (h : Hub) : Execution γ where
  scheduler := s
  hub := h

/-- Enter an event into the log. -/
def note (x : Execution γ) (e : Event) : Execution γ := { x with log := x.log ++ [e] }

/-- The next act of the execution thread. -/
def execute [FlowGraph γ] (x : Execution γ) : Execution γ :=
  match x.position with
  | .between =>
    match x.scheduler.phase with
    | .looping =>
      if x.scheduler.stopRequested then
        { x with scheduler := { x.scheduler with phase := .stopping } }.note (.read true)
      else { x with position := .checked }.note (.read false)
    | .stopping => { x with position := .halting }.note .stopCalled
    | .leaving failed =>
      { x with
        scheduler := { x.scheduler with phase := .gone failed }
        hub := FlowGraph.discard x.scheduler.graph x.hub }.note .ended
    | .gone _ => x
  | .checked => { x with position := .working }.note .workCalled
  | .working =>
    let r := FlowGraph.work x.scheduler.graph x.hub
    { x with
      scheduler := { x.scheduler with graph := r.2.1 }
      hub := r.2.2
      position := .worked r.1 }.note (.workReturned r.1)
  | .worked (some status) =>
    { x with
      scheduler := { x.scheduler with phase := Scheduler.phaseAfter (some status) }
      position := .between }
  | .worked none =>
    { x with
      scheduler := { x.scheduler with phase := Scheduler.phaseAfter none }
      position := .between }.note .cleared
  | .halting =>
    let r := FlowGraph.stop x.scheduler.graph x.hub
    { x with
      scheduler := { x.scheduler with graph := r.2.1 }
      hub := r.2.2
      position := .halted r.1 }.note (.stopReturned r.1)
  | .halted ok =>
    { x with
      scheduler := { x.scheduler with phase := .leaving (!ok) }
      position := .between }.note .cleared

/-- What thread, owner and others can do. -/
inductive Move where
  /-- The thread makes its next act. -/
  | execute
  /-- The owner asks for a stop. -/
  | request
  /-- The owner asks whether the thread is running. -/
  | ask
  /-- The owner begins to wait for the result. -/
  | join
  /-- The owner begins to give the scheduler up. -/
  | drop
  /-- The owner goes on if the thread has ended. -/
  | collect
  /-- Others change the sinks. -/
  | elsewhere (h : Hub)

/-- Ask for a stop. -/
def request (x : Execution γ) : Execution γ :=
  { x with scheduler := x.scheduler.requestStop }.note .requested

/-- What comes of a move. Only who holds a scheduler can use it, and who waits does so until the
thread has ended. -/
def perform [FlowGraph γ] (x : Execution γ) : Move → Execution γ
  | .execute => x.execute
  | .request => match x.owner with
    | .holding => x.request
    | _ => x
  | .ask => match x.owner with
    | .holding => x.note (.asked x.scheduler.running)
    | _ => x
  | .join => match x.owner with
    | .holding => { x.request with owner := .joining }
    | _ => x
  | .drop => match x.owner with
    | .holding => { x.request with owner := .dropping }
    | _ => x
  | .collect => match x.owner, x.scheduler.joined? with
    | .joining, some result => { x with owner := .released }.note (.joined result)
    | .dropping, some _ => { x with owner := .released }.note .dropped
    | _, _ => x
  | .elsewhere h => { x with hub := h }

/-- What comes of several moves. -/
def run [FlowGraph γ] (x : Execution γ) (moves : List Move) : Execution γ := moves.foldl perform x

/-! ### The acts of a step make the step -/

/-- **A thread left alone makes the steps of its scheduler.** -/
theorem exists_iterate_execute [FlowGraph γ] (x : Execution γ) (hx : x.position = .between) :
    ∃ n, let y := execute^[n] x
      (y.scheduler, y.hub) = x.scheduler.step x.hub ∧ y.position = .between ∧ y.owner = x.owner := by
  obtain ⟨⟨g, phase, requested⟩, h, position, owner, log⟩ := x
  dsimp only at hx
  subst hx
  cases phase with
  | looping =>
    cases requested with
    | true => exact ⟨1, rfl, rfl, rfl⟩
    | false =>
      -- The flag is read, work is called, it returns, and the thread goes on.
      refine ⟨4, ?_⟩
      simp only [Function.iterate_succ_apply, Function.iterate_zero_apply, execute, note,
        Scheduler.step, Bool.false_eq_true, if_false]
      cases (FlowGraph.work g h).1 with
      | none => exact ⟨rfl, rfl, rfl⟩
      | some status => exact ⟨rfl, rfl, rfl⟩
  | stopping => exact ⟨3, rfl, rfl, rfl⟩
  | leaving failed => exact ⟨1, rfl, rfl, rfl⟩
  | gone failed => exact ⟨0, rfl, rfl, rfl⟩

/-! ### The stages of an end -/

/-- How far the end of the thread has come: work goes on (0), no more work is called (1), the graph
is told to stop (2), it is not called any more (3), the running flag is cleared (4), the thread has
ended (5). -/
def stage (x : Execution γ) : Nat :=
  match x.position with
  | .between =>
    match x.scheduler.phase with
    | .looping => 0
    | .stopping => 1
    | .leaving _ => 4
    | .gone _ => 5
  | .checked => 0
  | .working => 0
  | .worked (some .done) => 1
  | .worked (some _) => 0
  | .worked none => 3
  | .halting => 2
  | .halted _ => 3

/-- How far the end has come at least when an event has happened. -/
def Event.stage : Event → Nat
  | .read found => if found then 1 else 0
  | .workCalled => 0
  | .workReturned (some .done) => 1
  | .workReturned (some _) => 0
  | .workReturned none => 3
  | .stopCalled => 2
  | .stopReturned _ => 3
  | .cleared => 4
  | .ended => 5
  | .requested => 0
  | .asked running => if running then 0 else 4
  | .joined _ => 5
  | .dropped => 5

/-- How far the end can have come when an event happens. -/
def Event.limit : Event → Nat
  | .read _ => 0
  | .workCalled => 0
  | .workReturned _ => 0
  | .stopCalled => 1
  | .stopReturned _ => 2
  | .cleared => 3
  | .ended => 4
  | _ => 5

/-- Whether an event can take the end from one stage to another: it comes in time, it brings about
what it says, and what is brought about is said. -/
def Event.Takes (e : Event) (a b : Nat) : Prop :=
  a ≤ e.limit ∧ e.stage ≤ b ∧ a ≤ b ∧
    (2 ≤ b → 2 ≤ a ∨ e = .stopCalled ∨ e = .workReturned none) ∧
    (3 ≤ b → 3 ≤ a ∨ e = .stopReturned true ∨ e.isPanic = true) ∧
    (5 ≤ b → 5 ≤ a ∨ e = .ended)

/-- Whether an event takes the end from one stage to another is decided part by part. -/
instance (e : Event) (a b : Nat) : Decidable (e.Takes a b) := inferInstanceAs (Decidable (_ ∧ _))

/-- An event that comes in time and says nothing new can happen. -/
lemma Event.takes_self {e : Event} {a : Nat} (hlimit : a ≤ e.limit) (hstage : e.stage ≤ a) :
    e.Takes a a :=
  ⟨hlimit, hstage, Nat.le_refl a, .inl, .inl, .inl⟩

/-- There are no stages after the end. -/
lemma stage_le (x : Execution γ) : x.stage ≤ 5 := by
  unfold stage
  repeat' split
  all_goals decide

/-- Whether the graph has failed. -/
def failed (x : Execution γ) : Bool :=
  match x.position with
  | .between =>
    match x.scheduler.phase with
    | .leaving failed => failed
    | .gone failed => failed
    | _ => false
  | .worked none => true
  | .halted ok => !ok
  | _ => false

/-- The phases in which a thread can be in the middle of a step. -/
def Position.Suits : Position → Phase → Prop
  | .between, _ => True
  | .checked, phase => phase = .looping
  | .working, phase => phase = .looping
  | .worked _, phase => phase = .looping
  | .halting, phase => phase = .stopping
  | .halted _, phase => phase = .stopping

/-- What has to have happened before an event of the owner. -/
def Grounded (before : List Event) : Event → Prop
  | .asked false => .stopReturned true ∈ before ∨ ∃ e ∈ before, e.isPanic = true
  | .joined result =>
    .ended ∈ before ∧ ((∃ e, result = .error e) ↔ ∃ e ∈ before, e.isPanic = true)
  | .dropped => .ended ∈ before
  | _ => True

/-- The log agrees with the scheduler. -/
structure Faithful (x : Execution γ) : Prop where
  /-- The graph is called in the phases that are meant for it. -/
  suits : x.position.Suits x.scheduler.phase
  /-- No event says more than what has come to pass. -/
  reached : ∀ e ∈ x.log, e.stage ≤ x.stage
  /-- No event comes too late. -/
  ordered : x.log.Pairwise fun e f => e.stage ≤ f.limit
  /-- A graph that was not told to stop has failed in a round of work. -/
  stopped : 2 ≤ x.stage → .stopCalled ∈ x.log ∨ .workReturned none ∈ x.log
  /-- A graph that is not called any more has stopped or failed. -/
  returned : 3 ≤ x.stage → .stopReturned true ∈ x.log ∨ ∃ e ∈ x.log, e.isPanic = true
  /-- A failure of the graph is not forgotten. -/
  panicked : x.failed = true ↔ ∃ e ∈ x.log, e.isPanic = true
  /-- The end is noted. -/
  finished : 5 ≤ x.stage → .ended ∈ x.log
  /-- A request is not forgotten. -/
  heeded : .requested ∈ x.log → x.scheduler.stopRequested = true
  /-- Who waits has asked for a stop. -/
  waiting : x.owner = .joining → .requested ∈ x.log
  /-- The answers to the owner have their grounds. -/
  grounded : ∀ before e after, x.log = before ++ e :: after → Grounded before e

namespace Faithful

variable {x y : Execution γ}

/-- Nothing has happened to a scheduler that has just been launched. -/
lemma start (g : γ) (h : Hub) : (Execution.start { graph := g } h).Faithful := by
  have hearly : ∀ n, 0 < n → ¬ n ≤ (Execution.start { graph := g } h).stage :=
    fun n hn hle => absurd hle (Nat.not_le_of_lt hn)
  constructor
  case suits => trivial
  case reached => exact fun e he => nomatch he
  case ordered => exact .nil
  case stopped => exact fun hs => absurd hs (hearly 2 (by decide))
  case returned => exact fun hs => absurd hs (hearly 3 (by decide))
  case panicked => simp [failed, Execution.start]
  case finished => exact fun hs => absurd hs (hearly 5 (by decide))
  case heeded => exact fun hr => nomatch hr
  case waiting => exact fun ho => nomatch ho
  case grounded =>
    intro before e after hlog
    simp [Execution.start] at hlog

/-- A move that says nothing about the thread and its owner keeps a log faithful. -/
lemma silent (hx : x.Faithful) (hlog : y.log = x.log)
    (hsuits : y.position.Suits y.scheduler.phase)
    (hstage : y.stage = x.stage) (hfailed : y.failed = x.failed)
    (hrequested : y.scheduler.stopRequested = x.scheduler.stopRequested)
    (howner : y.owner = x.owner) : y.Faithful where
  suits := hsuits
  reached := by
    rw [hlog, hstage]
    exact hx.reached
  ordered := by
    rw [hlog]
    exact hx.ordered
  stopped := by
    rw [hlog, hstage]
    exact hx.stopped
  returned := by
    rw [hlog, hstage]
    exact hx.returned
  panicked := by
    rw [hlog, hfailed]
    exact hx.panicked
  finished := by
    rw [hlog, hstage]
    exact hx.finished
  heeded := by
    rw [hlog, hrequested]
    exact hx.heeded
  waiting := by
    rw [hlog, howner]
    exact hx.waiting
  grounded := by
    rw [hlog]
    exact hx.grounded

/-- **An event that comes at its stage keeps a log faithful.** -/
lemma logged (hx : x.Faithful) (e : Event) (a b : Nat) (hlog : y.log = x.log ++ [e])
    (ha : x.stage = a) (hb : y.stage = b) (htakes : e.Takes a b)
    (hsuits : y.position.Suits y.scheduler.phase)
    (hfailed : y.failed = (x.failed || e.isPanic))
    (hheeded : x.scheduler.stopRequested = true ∨ e = .requested →
      y.scheduler.stopRequested = true)
    (hwaiting : y.owner = .joining → x.owner = .joining ∨ e = .requested)
    (hground : Grounded x.log e) : y.Faithful := by
  subst ha hb
  obtain ⟨hlimit, hreached, hmono, hstopped, hreturned, hfinished⟩ := htakes
  constructor
  case suits => exact hsuits
  case reached =>
    intro f hf
    rw [hlog, List.mem_append, List.mem_singleton] at hf
    obtain hf | rfl := hf
    · exact Nat.le_trans (hx.reached f hf) hmono
    · exact hreached
  case ordered =>
    rw [hlog, List.pairwise_append]
    refine ⟨hx.ordered, List.pairwise_singleton _ e, fun f hf f' hf' => ?_⟩
    obtain rfl := List.mem_singleton.mp hf'
    exact Nat.le_trans (hx.reached f hf) hlimit
  case stopped =>
    intro hs
    rw [hlog, List.mem_append, List.mem_append, List.mem_singleton, List.mem_singleton]
    obtain hs | rfl | rfl := hstopped hs
    · exact (hx.stopped hs).imp .inl .inl
    · exact .inl (.inr rfl)
    · exact .inr (.inr rfl)
  case returned =>
    intro hs
    simp only [hlog, List.mem_append, List.mem_singleton]
    obtain hs | rfl | hpanic := hreturned hs
    · obtain hstop | ⟨f, hf, hpanic⟩ := hx.returned hs
      · exact .inl (.inl hstop)
      · exact .inr ⟨f, .inl hf, hpanic⟩
    · exact .inl (.inr rfl)
    · exact .inr ⟨e, .inr rfl, hpanic⟩
  case panicked =>
    rw [hfailed, Bool.or_eq_true, hx.panicked, hlog]
    simp [or_and_right, exists_or]
  case finished =>
    intro hs
    rw [hlog, List.mem_append, List.mem_singleton]
    obtain hs | rfl := hfinished hs
    · exact .inl (hx.finished hs)
    · exact .inr rfl
  case heeded =>
    intro hr
    rw [hlog, List.mem_append, List.mem_singleton] at hr
    obtain hr | rfl := hr
    · exact hheeded (.inl (hx.heeded hr))
    · exact hheeded (.inr rfl)
  case waiting =>
    intro ho
    rw [hlog, List.mem_append, List.mem_singleton]
    obtain ho | rfl := hwaiting ho
    · exact .inl (hx.waiting ho)
    · exact .inr rfl
  case grounded =>
    intro before f after hsplit
    rw [hlog] at hsplit
    obtain rfl | ⟨init, last, rfl⟩ := List.eq_nil_or_concat after
    · obtain ⟨rfl, hef⟩ := List.append_inj' hsplit rfl
      cases hef
      exact hground
    · rw [List.concat_eq_append, ← List.cons_append, ← List.append_assoc] at hsplit
      exact hx.grounded before f init (List.append_inj' hsplit rfl).1

/-- A thread that is not running any more is not in the course of a step, and its end has come to the
clearing of the flag at least. -/
lemma between (hx : x.Faithful) (hrunning : x.scheduler.running = false) :
    x.position = .between ∧ 4 ≤ x.stage := by
  obtain ⟨⟨g, phase, requested⟩, h, position, owner, log⟩ := x
  have hsuits := hx.suits
  have hphase : phase ≠ .looping ∧ phase ≠ .stopping := by
    constructor
    · rintro rfl
      cases hrunning
    · rintro rfl
      cases hrunning
  cases position with
  | between =>
    cases phase with
    | looping => exact absurd rfl hphase.1
    | stopping => exact absurd rfl hphase.2
    | leaving failed => exact ⟨rfl, Nat.le_refl 4⟩
    | gone failed => exact ⟨rfl, Nat.le_succ 4⟩
  | checked => exact absurd hsuits hphase.1
  | working => exact absurd hsuits hphase.1
  | worked status => exact absurd hsuits hphase.1
  | halting => exact absurd hsuits hphase.2
  | halted ok => exact absurd hsuits hphase.2

/-- The result of a thread is there when it has ended, and says whether the graph has failed. -/
lemma joined_iff [FlowGraph γ] (hx : x.Faithful) {result : Except AcqError Unit}
    (hj : x.scheduler.joined? = some result) :
    x.stage = 5 ∧ ((∃ e, result = .error e) ↔ x.failed = true) := by
  have hgone : ∃ failed, x.scheduler.phase = .gone failed := by
    unfold Scheduler.joined? at hj
    split at hj
    · exact ⟨false, ‹_›⟩
    · exact ⟨true, ‹_›⟩
    · cases hj
  obtain ⟨failed, hphase⟩ := hgone
  have hposition := (hx.between (by simp [Scheduler.running, hphase])).1
  unfold Scheduler.joined? at hj
  unfold stage Execution.failed
  rw [hphase] at hj
  rw [hposition, hphase]
  cases failed with
  | false =>
    cases hj
    simp
  | true =>
    cases hj
    simp

/-- A request of the owner keeps a log faithful. -/
lemma request (hx : x.Faithful) (owner : Owner) :
    { x.request with owner := owner }.Faithful :=
  hx.logged .requested x.stage x.stage rfl rfl rfl
    (Event.takes_self x.stage_le (Nat.zero_le x.stage)) hx.suits (Bool.or_false _).symm
    (fun _ => rfl) (fun _ => .inr rfl) trivial

/-- A look at the running flag keeps a log faithful. -/
lemma ask (hx : x.Faithful) : (x.note (.asked x.scheduler.running)).Faithful := by
  cases hrunning : x.scheduler.running with
  | true =>
    exact hx.logged (.asked true) x.stage x.stage rfl rfl rfl
      (Event.takes_self x.stage_le (Nat.zero_le x.stage)) hx.suits (Bool.or_false _).symm
      (fun hr => hr.resolve_right nofun) .inl trivial
  | false =>
    have hcleared := (hx.between hrunning).2
    have hground := hx.returned (Nat.le_of_succ_le hcleared)
    exact hx.logged (.asked false) x.stage x.stage rfl rfl rfl
      (Event.takes_self x.stage_le hcleared) hx.suits (Bool.or_false _).symm
      (fun hr => hr.resolve_right nofun) .inl hground

variable [FlowGraph γ]

/-- **An act of the thread keeps a log faithful.** -/
lemma execute (hx : x.Faithful) : x.execute.Faithful := by
  obtain ⟨⟨g, phase, requested⟩, h, position, owner, log⟩ := x
  have hsuits := hx.suits
  have hheeded : ∀ {e : Event}, e ≠ .requested → requested = true ∨ e = .requested →
      requested = true := fun he hr => hr.resolve_right he
  cases position with
  | between =>
    cases phase with
    | looping =>
      cases requested with
      | true =>
        exact hx.logged (.read true) 0 1 rfl rfl rfl (by decide) trivial rfl (hheeded (by decide))
          .inl trivial
      | false =>
        exact hx.logged (.read false) 0 0 rfl rfl rfl (by decide) rfl rfl (hheeded (by decide))
          .inl trivial
    | stopping =>
      exact hx.logged .stopCalled 1 2 rfl rfl rfl (by decide) rfl rfl (hheeded (by decide))
        .inl trivial
    | leaving failed =>
      exact hx.logged .ended 4 5 rfl rfl rfl (by decide) trivial (Bool.or_false _).symm
        (hheeded (by decide)) .inl trivial
    | gone failed => exact hx
  | checked =>
    exact hx.logged .workCalled 0 0 rfl rfl rfl (by decide) hsuits rfl (hheeded (by decide))
      .inl trivial
  | working =>
    unfold Execution.execute
    dsimp only
    generalize FlowGraph.work g h = r
    obtain ⟨status, g', h'⟩ := r
    cases status with
    | none =>
      exact hx.logged (.workReturned none) 0 3 rfl rfl rfl (by decide) hsuits rfl
        (hheeded (by decide)) .inl trivial
    | some status =>
      cases status with
      | done =>
        exact hx.logged (.workReturned (some .done)) 0 1 rfl rfl rfl (by decide) hsuits rfl
          (hheeded (by decide)) .inl trivial
      | ok =>
        exact hx.logged (.workReturned (some .ok)) 0 0 rfl rfl rfl (by decide) hsuits rfl
          (hheeded (by decide)) .inl trivial
      | idle =>
        exact hx.logged (.workReturned (some .idle)) 0 0 rfl rfl rfl (by decide) hsuits rfl
          (hheeded (by decide)) .inl trivial
  | worked status =>
    obtain rfl : phase = .looping := hsuits
    cases status with
    | none =>
      exact hx.logged .cleared 3 4 rfl rfl rfl (by decide) trivial rfl (hheeded (by decide))
        .inl trivial
    | some status => cases status <;> exact hx.silent rfl trivial rfl rfl rfl rfl
  | halting =>
    unfold Execution.execute
    dsimp only
    generalize FlowGraph.stop g h = r
    obtain ⟨ok, g', h'⟩ := r
    cases ok with
    | true =>
      exact hx.logged (.stopReturned true) 2 3 rfl rfl rfl (by decide) hsuits rfl
        (hheeded (by decide)) .inl trivial
    | false =>
      exact hx.logged (.stopReturned false) 2 3 rfl rfl rfl (by decide) hsuits rfl
        (hheeded (by decide)) .inl trivial
  | halted ok =>
    exact hx.logged .cleared 3 4 rfl rfl rfl (by decide) trivial (Bool.or_false _).symm
      (hheeded (by decide)) .inl trivial

/-- **Every move keeps a log faithful.** -/
theorem perform (hx : x.Faithful) (m : Move) : (x.perform m).Faithful := by
  cases m with
  | execute => exact hx.execute
  | request =>
    unfold Execution.perform
    dsimp only
    split
    · exact hx.request x.owner
    · exact hx
  | ask =>
    unfold Execution.perform
    dsimp only
    split
    · exact hx.ask
    · exact hx
  | join =>
    unfold Execution.perform
    dsimp only
    split
    · exact hx.request .joining
    · exact hx
  | drop =>
    unfold Execution.perform
    dsimp only
    split
    · exact hx.request .dropping
    · exact hx
  | collect =>
    unfold Execution.perform
    dsimp only
    split
    · rename_i result howner hj
      obtain ⟨hstage, herror⟩ := hx.joined_iff hj
      refine hx.logged (.joined result) 5 5 rfl hstage hstage
        (Event.takes_self (Nat.le_refl 5) (Nat.le_refl 5)) hx.suits (Bool.or_false _).symm
        (fun hr => hr.resolve_right nofun) nofun ⟨hx.finished (Nat.le_of_eq hstage.symm), ?_⟩
      rw [herror, hx.panicked]
    · rename_i result howner hj
      obtain ⟨hstage, -⟩ := hx.joined_iff hj
      exact hx.logged .dropped 5 5 rfl hstage hstage
        (Event.takes_self (Nat.le_refl 5) (Nat.le_refl 5)) hx.suits (Bool.or_false _).symm
        (fun hr => hr.resolve_right nofun) nofun (hx.finished (Nat.le_of_eq hstage.symm))
    · exact hx
  | elsewhere h => exact hx.silent rfl hx.suits rfl rfl rfl rfl

/-- **Every run keeps a log faithful.** -/
lemma run (hx : x.Faithful) (moves : List Move) : (x.run moves).Faithful := by
  induction moves generalizing x with
  | nil => exact hx
  | cons m moves ih => exact ih (hx.perform m)

end Faithful

/-! ### A thread that is to end does so -/

/-- Whether a move is an act of the thread. -/
def Move.isExecute : Move → Bool
  | .execute => true
  | _ => false

/-- The thread will find that it is to end: a stop was requested, or no more work is called. -/
def Heeds (x : Execution γ) : Prop := x.scheduler.stopRequested = true ∨ 1 ≤ x.stage

/-- How many acts the thread has left at most, if it is to end. -/
def left (x : Execution γ) : Nat :=
  match x.position with
  | .between =>
    match x.scheduler.phase with
    | .looping => 5
    | .stopping => 4
    | .leaving _ => 1
    | .gone _ => 0
  | .checked => 8
  | .working => 7
  | .worked none => 2
  | .worked (some _) => 6
  | .halting => 3
  | .halted _ => 2

/-- There are never more than eight acts left. -/
lemma left_le (x : Execution γ) : x.left ≤ 8 := by
  unfold left
  repeat' split
  all_goals decide

/-- If no acts are left, the thread has ended. -/
lemma stage_of_left {x : Execution γ} (hx : x.left = 0) : x.stage = 5 := by
  obtain ⟨⟨g, phase, requested⟩, h, position, owner, log⟩ := x
  cases position with
  | between =>
    cases phase with
    | gone failed => rfl
    | looping => cases hx
    | stopping => cases hx
    | leaving failed => cases hx
  | worked status => cases status <;> cases hx
  | checked => cases hx
  | working => cases hx
  | halting => cases hx
  | halted ok => cases hx

section Progress

variable [FlowGraph γ] {x : Execution γ}

/-- What the others do leaves the thread where it is; a request stays made. -/
lemma perform_of_not_isExecute {m : Move} (hm : m.isExecute = false) :
    (x.perform m).position = x.position ∧
      (x.perform m).scheduler.phase = x.scheduler.phase ∧
      (x.scheduler.stopRequested = true → (x.perform m).scheduler.stopRequested = true) := by
  cases m with
  | execute => cases hm
  | elsewhere h => exact ⟨rfl, rfl, id⟩
  | request =>
    unfold perform
    dsimp only
    split
    · exact ⟨rfl, rfl, fun _ => rfl⟩
    · exact ⟨rfl, rfl, id⟩
  | ask =>
    unfold perform
    dsimp only
    split <;> exact ⟨rfl, rfl, id⟩
  | join =>
    unfold perform
    dsimp only
    split
    · exact ⟨rfl, rfl, fun _ => rfl⟩
    · exact ⟨rfl, rfl, id⟩
  | drop =>
    unfold perform
    dsimp only
    split
    · exact ⟨rfl, rfl, fun _ => rfl⟩
    · exact ⟨rfl, rfl, id⟩
  | collect =>
    unfold perform
    dsimp only
    split <;> exact ⟨rfl, rfl, id⟩

/-- **An act of a thread that is to end brings the end nearer**, and the thread stays so. -/
lemma heeds_execute (hx : x.Faithful) (hh : x.Heeds) :
    x.execute.Heeds ∧ x.execute.left ≤ x.left - 1 := by
  obtain ⟨⟨g, phase, requested⟩, h, position, owner, log⟩ := x
  have hsuits := hx.suits
  cases position with
  | between =>
    cases phase with
    | looping =>
      cases requested with
      | true => exact ⟨.inl rfl, Nat.le_refl 4⟩
      | false =>
        obtain hr | hs := hh
        · cases hr
        · exact absurd hs (Nat.not_succ_le_zero 0)
    | stopping => exact ⟨.inr (Nat.le_succ 1), Nat.le_refl 3⟩
    | leaving failed => exact ⟨.inr (Nat.succ_le_succ (Nat.zero_le 4)), Nat.le_refl 0⟩
    | gone failed => exact ⟨.inr (Nat.succ_le_succ (Nat.zero_le 4)), Nat.le_refl 0⟩
  | checked => exact ⟨hh, Nat.le_refl 7⟩
  | working =>
    obtain hr | hs := hh
    · refine ⟨.inl hr, ?_⟩
      unfold Execution.execute
      dsimp only
      cases (FlowGraph.work g h).1 with
      | none => exact Nat.le_add_right 2 4
      | some status => exact Nat.le_refl 6
    · exact absurd hs (Nat.not_succ_le_zero 0)
  | worked status =>
    obtain rfl : phase = .looping := hsuits
    cases status with
    | none => exact ⟨.inr (Nat.succ_le_succ (Nat.zero_le 3)), Nat.le_refl 1⟩
    | some status =>
      cases status with
      | done => exact ⟨.inr (Nat.le_refl 1), Nat.le_succ 4⟩
      | ok => exact ⟨hh, Nat.le_refl 5⟩
      | idle => exact ⟨hh, Nat.le_refl 5⟩
  | halting => exact ⟨.inr (Nat.succ_le_succ (Nat.zero_le 2)), Nat.le_refl 2⟩
  | halted ok => exact ⟨.inr (Nat.succ_le_succ (Nat.zero_le 3)), Nat.le_refl 1⟩

/-- A move of a thread that is to end, or of another, brings the end nearer by an act or not at
all. -/
lemma heeds_perform (hx : x.Faithful) (hh : x.Heeds) (m : Move) :
    (x.perform m).Heeds ∧ (x.perform m).left ≤ x.left - if m.isExecute then 1 else 0 := by
  cases hm : m.isExecute with
  | true =>
    cases m with
    | execute => exact heeds_execute hx hh
    | _ => cases hm
  | false =>
    obtain ⟨hposition, hphase, hrequested⟩ := perform_of_not_isExecute (x := x) hm
    have hstage : (x.perform m).stage = x.stage := by
      unfold stage
      rw [hposition, hphase]
    have hleft : (x.perform m).left = x.left := by
      unfold left
      rw [hposition, hphase]
    refine ⟨hh.imp hrequested fun hs => ?_, Nat.le_of_eq hleft⟩
    rw [hstage]
    exact hs

/-- **A thread that is to end does so**, whatever the others do. -/
theorem ended_of_heeds (hx : x.Faithful) (hh : x.Heeds) {moves : List Move}
    (hm : 8 ≤ moves.countP Move.isExecute) : (x.run moves).stage = 5 := by
  have hnear : ∀ moves (x : Execution γ), x.Faithful → x.Heeds →
      (x.run moves).left ≤ x.left - moves.countP Move.isExecute := by
    intro moves
    induction moves with
    | nil => exact fun x _ _ => Nat.le_refl x.left
    | cons m moves ih =>
      intro x hx hh
      obtain ⟨hheeds, hleft⟩ := heeds_perform hx hh m
      have hrest := ih (x.perform m) (hx.perform m) hheeds
      rw [List.countP_cons]
      change ((x.perform m).run moves).left ≤ _
      omega
  have hrun := hnear moves x hx hh
  have hbound := x.left_le
  exact stage_of_left (by omega)

/-! ### A log only grows -/

/-- What has happened stays in the log. -/
lemma subset_perform (x : Execution γ) (m : Move) : x.log ⊆ (x.perform m).log := by
  have hnote : ∀ (y : Execution γ) (e : Event), y.log = x.log → x.log ⊆ (y.note e).log := by
    intro y e hy f hf
    exact List.mem_append_left [e] (hy ▸ hf)
  cases m with
  | elsewhere h => exact List.Subset.refl x.log
  | execute =>
    unfold perform execute
    dsimp only
    repeat' split
    all_goals first | exact hnote _ _ rfl | exact List.Subset.refl x.log
  | _ =>
    unfold perform
    dsimp only
    split <;> first | exact hnote _ _ rfl | exact List.Subset.refl x.log

/-- An owner who waits does so until there is a result. -/
lemma joining_run (ho : x.owner = .joining ∨ ∃ r, .joined r ∈ x.log) (moves : List Move) :
    (x.run moves).owner = .joining ∨ ∃ r, .joined r ∈ (x.run moves).log := by
  induction moves generalizing x with
  | nil => exact ho
  | cons m moves ih =>
    refine ih ?_
    obtain ho | ⟨r, hr⟩ := ho
    · cases m with
      | collect =>
        cases hj : x.scheduler.joined? with
        | none =>
          left
          simp [perform, ho, hj]
        | some r =>
          right
          exact ⟨r, by simp [perform, ho, hj, note]⟩
      | execute =>
        left
        unfold perform execute
        dsimp only
        repeat' split
        all_goals exact ho
      | elsewhere h => exact .inl ho
      | _ =>
        left
        simp [perform, ho]
    · exact .inr ⟨r, x.subset_perform m hr⟩

end Progress

/-! ### The order of events -/

namespace Faithful

variable {x : Execution γ} (hx : x.Faithful)

include hx

/-- An event comes in time after what is before it, and what is after it comes in time. -/
lemma around {before after : List Event} {e : Event} (hlog : x.log = before ++ e :: after) :
    (∀ f ∈ before, f.stage ≤ e.limit) ∧ ∀ f ∈ after, e.stage ≤ f.limit := by
  have hordered := hx.ordered
  rw [hlog, List.pairwise_append, List.pairwise_cons] at hordered
  obtain ⟨-, ⟨hafter, -⟩, hbefore⟩ := hordered
  exact ⟨fun f hf => hbefore f hf e List.mem_cons_self, hafter⟩

/-- After the running flag was cleared the graph is not called any more. -/
lemma not_called_after {before after : List Event} {e : Event} (hlog : x.log = before ++ e :: after)
    (he : 4 ≤ e.stage) : .workCalled ∉ after ∧ .stopCalled ∉ after := by
  have hafter := (hx.around hlog).2
  constructor
  · intro hf
    exact absurd (Nat.le_trans he (hafter _ hf)) (by decide)
  · intro hf
    exact absurd (Nat.le_trans he (hafter _ hf)) (by decide)

/-- The graph is told to stop at most once. -/
lemma count_stopCalled_le : x.log.count .stopCalled ≤ 1 := by
  by_cases hmem : .stopCalled ∈ x.log
  · obtain ⟨before, after, hlog⟩ := List.append_of_mem hmem
    obtain ⟨hbefore, hafter⟩ := hx.around hlog
    have hnot : .stopCalled ∉ before := fun hf => absurd (hbefore _ hf) (by decide)
    have hnot' : .stopCalled ∉ after := fun hf => absurd (hafter _ hf) (by decide)
    refine Nat.le_of_eq ?_
    rw [hlog, List.count_append, List.count_cons_self, List.count_eq_zero_of_not_mem hnot,
      List.count_eq_zero_of_not_mem hnot']
  · rw [List.count_eq_zero_of_not_mem hmem]
    exact Nat.zero_le 1

/-- A graph that has failed in a round of work is not told to stop. -/
lemma not_stopCalled (hpanic : .workReturned none ∈ x.log) : .stopCalled ∉ x.log := by
  intro hstop
  obtain ⟨before, after, hlog⟩ := List.append_of_mem hstop
  obtain ⟨hbefore, hafter⟩ := hx.around hlog
  rw [hlog, List.mem_append, List.mem_cons] at hpanic
  obtain hpanic | hpanic | hpanic := hpanic
  · exact absurd (hbefore _ hpanic) (by decide)
  · cases hpanic
  · exact absurd (hafter _ hpanic) (by decide)

/-- A thread heeds a request, the end of the work, and a failure. -/
lemma heeds (h : .requested ∈ x.log ∨ .workReturned (some .done) ∈ x.log ∨
    ∃ e ∈ x.log, e.isPanic = true) : x.Heeds := by
  obtain h | h | ⟨e, he, hpanic⟩ := h
  · exact .inl (hx.heeded h)
  · exact .inr (hx.reached _ h)
  · have hstage : 3 ≤ e.stage := by
      unfold Event.isPanic at hpanic
      split at hpanic
      · exact Nat.le_refl 3
      · exact Nat.le_refl 3
      · cases hpanic
    exact .inr (Nat.le_trans (Nat.le_of_succ_le (Nat.le_of_succ_le hstage)) (hx.reached e he))

end Faithful

/-- The result of a thread that has ended is handed to an owner who waits for it. -/
lemma exists_joined [FlowGraph γ] {x : Execution γ} (hstage : x.stage = 5)
    (ho : x.owner = .joining) :
    ∃ r, .joined r ∈ (x.perform .collect).log := by
  have hfinished : x.scheduler.joined? ≠ none := by
    unfold stage at hstage
    unfold Scheduler.joined?
    split at hstage
    · split at hstage
      · cases hstage
      · cases hstage
      · cases hstage
      · rename_i failed hphase
        rw [hphase]
        cases failed <;> exact nofun
    all_goals cases hstage
  obtain ⟨r, hr⟩ := Option.ne_none_iff_exists'.mp hfinished
  exact ⟨r, by simp [perform, ho, hr, note]⟩

/-- **The order of events in any run.** A graph is launched, and thread, owner and others act in any
order. The graph may behave in any way.

No work is called after the graph was done, after the thread has found a request for a stop, or after
the graph was told to stop. The graph is told to stop at most once, not at all if it has failed in a
round of work, and exactly once if it has not and the thread has ended. When the owner finds that the
thread is not running, the graph has stopped or failed, and it is not called again. When the owner
gets the result, or has given the scheduler up, the thread has ended; the result is an error exactly
if the graph has failed. A thread that was asked to stop, or whose graph is done or has failed, ends
within eight acts, and then an owner who waits gets the result. -/
theorem protocol_exact [FlowGraph γ] {refusal : Option String} {g : γ} {h h' : Hub}
    {s : Scheduler γ} (hs : Scheduler.launch refusal g h = .started s h') (moves : List Move) :
    let x := (start s h').run moves
    let Failed := fun log : List Event => ∃ e ∈ log, e.isPanic = true
    (∀ before after, x.log = before ++ .workCalled :: after →
      .workReturned (some .done) ∉ before ∧ .read true ∉ before ∧ .stopCalled ∉ before) ∧
    x.log.count .stopCalled ≤ 1 ∧
    (.workReturned none ∈ x.log → .stopCalled ∉ x.log) ∧
    (.ended ∈ x.log → .workReturned none ∉ x.log → x.log.count .stopCalled = 1) ∧
    (∀ before after, x.log = before ++ .asked false :: after →
      (.stopReturned true ∈ before ∨ Failed before) ∧
        .workCalled ∉ after ∧ .stopCalled ∉ after) ∧
    (∀ before result after, x.log = before ++ .joined result :: after →
      .ended ∈ before ∧ ((∃ e, result = .error e) ↔ Failed before) ∧
        .workCalled ∉ after ∧ .stopCalled ∉ after) ∧
    (∀ before after, x.log = before ++ .dropped :: after → .ended ∈ before) ∧
    ∀ more : List Move, 8 ≤ more.countP Move.isExecute →
      (.requested ∈ x.log ∨ .workReturned (some .done) ∈ x.log ∨ Failed x.log →
        .ended ∈ (x.run more).log) ∧
      (x.owner = .joining → ∃ result, .joined result ∈ ((x.run more).perform .collect).log) := by
  intro x Failed
  obtain rfl := Scheduler.eq_of_launch hs
  have hx : x.Faithful := (Faithful.start g h').run moves
  refine ⟨?_, hx.count_stopCalled_le, hx.not_stopCalled, ?_, ?_, ?_, ?_, ?_⟩
  · intro before after hlog
    have hbefore := (hx.around hlog).1
    refine ⟨fun hf => ?_, fun hf => ?_, fun hf => ?_⟩
    · exact absurd (hbefore _ hf) (by decide)
    · exact absurd (hbefore _ hf) (by decide)
    · exact absurd (hbefore _ hf) (by decide)
  · intro hended hpanic
    have hstage : 2 ≤ x.stage := Nat.le_trans (by decide) (hx.reached _ hended)
    have hcalled := (hx.stopped hstage).resolve_right hpanic
    have hpos := List.count_pos_iff.mpr hcalled
    have hle := hx.count_stopCalled_le
    omega
  · intro before after hlog
    exact ⟨hx.grounded _ _ _ hlog, hx.not_called_after hlog (Nat.le_refl 4)⟩
  · intro before result after hlog
    obtain ⟨hended, herror⟩ := hx.grounded _ _ _ hlog
    exact ⟨hended, herror, hx.not_called_after hlog (Nat.le_succ 4)⟩
  · intro before after hlog
    exact hx.grounded _ _ _ hlog
  · intro more hm
    have hrun := hx.run more
    refine ⟨fun hcause => ?_, fun ho => ?_⟩
    · exact hrun.finished (Nat.le_of_eq (ended_of_heeds hx (hx.heeds hcause) hm).symm)
    · have hstage := ended_of_heeds hx (hx.heeds (.inl (hx.waiting ho))) hm
      obtain hjoining | ⟨r, hr⟩ := joining_run (.inl ho) more
      · exact exists_joined hstage hjoining
      · exact ⟨r, (x.run more).subset_perform .collect hr⟩

/-- A graph that fails in its second round of work. -/
def sampleFailing : ManualGraph where
  name := "test"
  outputs := []
  inbox := [⟨"A", ⟨[], []⟩⟩]
  fails := true

/-- If a stop is requested before the first round of work, the graph above does not fail, and it is
told to stop all the same. If it fails in its second round, the thread ends as well, and an owner who
began to wait in the course of that round gets an error. -/
theorem protocol_exact_sample :
    let x := (start { graph := sampleFailing } {}).run
      [.request, .execute, .execute, .execute, .execute, .execute, .ask]
    let y := (start { graph := sampleFailing } {}).run
      [.execute, .execute, .execute, .execute, .execute, .execute, .join, .request, .drop]
    let z := y.run (List.replicate 8 .execute)
    x.log.count .stopCalled = 1 ∧ .workCalled ∉ x.log ∧ .ended ∈ z.log ∧
      .joined (.error (.scheduler "Graph 'test' panicked")) ∈ (z.perform .collect).log := by
  intro x y z
  have hs : Scheduler.launch none sampleFailing {} = .started { graph := sampleFailing } {} := rfl
  obtain ⟨-, -, -, honce, -, -, -, -⟩ := protocol_exact hs
    [.request, .execute, .execute, .execute, .execute, .execute, .ask]
  obtain ⟨-, -, -, -, -, -, -, hends⟩ := protocol_exact hs
    [.execute, .execute, .execute, .execute, .execute, .execute, .join, .request, .drop]
  refine ⟨?_, ?_, ?_, ?_⟩
  · exact honce (by decide +kernel) (by decide +kernel)
  · decide +kernel
  · exact (hends (List.replicate 8 .execute) (by decide)).1 (.inl (by decide +kernel))
  · decide +kernel

end Execution

end Daq
