import Daq.Proofs.Worker.Deeds

set_option autoImplicit false

/-!
# What becomes of pollers, items and graphs

Three things that a run of a worker must not do by accident. Pollers come and go in passes, and
when a drain is over, but not otherwise. What a step hands out is what the broker is notified of. A
graph enters its sinks before it is held, and it is let go when its thread has ended, and not before.

## Main definitions

* `Daq.Reconciler.poller?` — the poller of a key.
* `Daq.Scene.Fate` — what becomes of the poller of a key.
* `Daq.Scene.Launched` — a graph is started.

## Main results

* `Daq.Scene.Orderly.fate` — what becomes of the poller of a key in a move.
* `Daq.Scene.broker_advance` — what a step hands out is what the broker is notified of.
* `Daq.Scene.gone_of_dropped` — a graph is let go after its thread has ended.
* `Daq.Scene.launched_of_held` — a graph that comes to be held has entered its sinks.
-/

namespace Daq

variable {γ : Type}

/-- A graph with a thread of its own has entered its sinks. -/
lemma Scheduler.start_of_launch [FlowGraph γ] {refusal : Option String} {g : γ} {h h' : Hub}
    {x : Scheduler γ} (hx : Scheduler.launch refusal g h = .started x h') :
    FlowGraph.start g h = some h' := by
  unfold Scheduler.launch at hx
  split at hx
  · cases hx
  · rename_i hub hstart
    split at hx
    · cases hx
    · cases hx
      exact hstart

namespace Reconciler

/-- The poller of a key. -/
def poller? (r : Reconciler) (k : PollerKey) : Option PollerRef := (r.held? k).map fun e => e.poller

section Pollers

variable (r : Reconciler) (k j : PollerKey)

/-- Marking a poller does not replace it. -/
@[simp]
lemma poller?_mark : (r.mark k).poller? j = r.poller? j := by
  unfold poller?
  rw [held?_mark]
  split
  · rename_i hjk
    rw [hjk, Option.map_map]
    rfl
  · rfl

/-- Noting a report does not replace a poller. -/
@[simp]
lemma poller?_report (d : Descriptor) : (r.report k d).poller? j = r.poller? j := by
  unfold report
  split
  · rfl
  · split
    · rename_i hk _ e he
      unfold poller? held?
      by_cases hjk : j = k
      · simp [hjk, hk, he, StreamEntry.view]
      · simp [hjk]
    · rfl

/-- Marking all pollers as not visited does not replace any. -/
@[simp]
lemma poller?_markUnused : r.markUnused.poller? j = r.poller? j := by
  unfold poller?
  rw [held?_markUnused, Option.map_map]
  rfl

/-- A poller is opened where there is none. -/
lemma poller?_ensure {grant : Grant} (hg : grant.Lawful) (flush : Bool) {h : Hub}
    (hw : h.WellFormed) :
    let p := Pass.ensure grant flush { reconciler := r, hub := h } k
    p.reconciler.poller? j = r.poller? j ∨
      flush = false ∧ r.poller? j = none ∧
        ∃ q, p.reconciler.poller? j = some q ∧ ¬ h.Attached q := by
  dsimp only
  obtain ⟨-, heq⟩ | ⟨-, -, e, -, heq⟩ | ⟨hcon, hfl, q, h', hok, heq⟩ :=
    Pass.ensure_cases { reconciler := r, hub := h } grant flush k
  · exact .inl (by rw [heq])
  · exact .inl (by rw [heq]; rfl)
  · rw [heq]
    unfold poller?
    dsimp only
    rw [held?_enter]
    split
    · rename_i hjk
      refine .inr ⟨hfl, ?_, q, rfl, (hg h h' k q hw hok).2.1⟩
      rw [hjk, (r.contains_eq_false_iff k).mp hcon, Option.map_none]
    · exact .inl rfl

end Pollers

end Reconciler

namespace Station

/-- Where no pass is due, nothing is handed out. -/
lemma broker_step [FlowGraph γ] {s : Station γ} (hdue : s.pass? = none) :
    s.step.broker = s.broker := by
  unfold step
  split
  · rfl
  · rename_i hout
    split
    · rfl
    · rename_i stop hstage
      unfold stepBegun
      split
      · split <;> rfl
      · rename_i hstate
        simp [pass?, hout, hstage, hstate] at hdue
      · rfl
    · unfold stepPassed
      split <;> rfl
    · rfl
    · rfl
    · rename_i aim passes hstage
      simp [pass?, hout, hstage] at hdue
    · rfl
    · rename_i aim _
      unfold stepJoining giveUp
      split
      · rfl
      · rfl
      · cases aim <;> rfl
    · rfl
    · unfold stepStarting
      split <;> rfl
    · rfl
    · rfl
    · rfl

/-- A thread that has not ended is waited for. -/
lemma scheduler_step_joining [FlowGraph γ] {s : Station γ} {aim : Aim γ}
    (hstage : s.worker.stage = .joining aim) {x : Scheduler γ} (hx : s.worker.scheduler = some x)
    (hgone : x.isGone = false) : s.step.worker.scheduler = some x := by
  have hjoined : x.joined? = none := by
    unfold Scheduler.isGone at hgone
    unfold Scheduler.joined?
    split at hgone
    · cases hgone
    · rename_i hphase
      split
      · exact absurd ‹_› (hphase _)
      · exact absurd ‹_› (hphase _)
      · rfl
  unfold step
  split
  · rename_i p rest _
    cases p <;> exact hx
  · rw [hstage]
    simp only [stepJoining, hx, Option.bind_some, hjoined]

/-- A graph that is started has entered its sinks. -/
lemma start_of_step [FlowGraph γ] {s : Station γ} {x : γ} (hstage : s.worker.stage = .starting x)
    (hfree : s.worker.control.holds = false) (hholds : s.step.worker.control.holds = true) :
    FlowGraph.start x s.hub = some s.step.hub := by
  unfold step at hholds ⊢
  split at hholds
  · rename_i p _ _
    cases p <;> cases hfree.symm.trans hholds
  · simp only [hstage, stepStarting] at hholds ⊢
    split at hholds
    · rename_i hlaunch
      exact Scheduler.start_of_launch hlaunch
    · cases hfree.symm.trans hholds
    · cases hfree.symm.trans hholds

end Station

namespace Scene

/-- What becomes of the poller of a key. -/
inductive Fate (s : Scene γ) (m : Move γ) (s' : Scene γ) (k : PollerKey) : Prop where
  /-- It stays. -/
  | kept (same : s'.reconciler.poller? k = s.reconciler.poller? k)
  /-- It is opened by a pass that does not flush, and was not attached before. -/
  | opened (p : PollerRef) (move : m = .advance) (due : s.station.pass? = some false)
      (missing : s.reconciler.poller? k = none) (opened : s'.reconciler.poller? k = some p)
      (fresh : ¬ s.hub.Attached p)
  /-- It is let go at the end of a pass that has not visited it. -/
  | evicted (w : Walk) (e : Entry) (move : m = .advance) (walk : s.walk = some w)
      (last : w.current = none ∧ w.todo = []) (held : s.reconciler.held? k = some e)
      (unused : e.inUse = false) (gone : s'.reconciler.poller? k = none)
  /-- It is let go because a drain is over. -/
  | cleared (aim : Aim γ) (passes : Nat) (move : m = .advance)
      (stage : s.stage = .drained aim passes) (gone : s'.reconciler.poller? k = none)

/-- Going on with a visit does not replace a poller. -/
lemma poller?_proceed (s : Scene γ) (w : Walk) (x : Stop) (k : PollerKey) :
    (s.proceed w x).reconciler.poller? k = s.reconciler.poller? k := by
  unfold proceed
  dsimp only
  split
  · rfl
  · split
    · rfl
    · split <;> rfl
  · rfl
  · unfold hand
    split
    · rfl
    · exact s.reconciler.poller?_report _ _ _

/-- Going on with a pass leaves the graph alone. -/
lemma scheduler_walkOn (s : Scene γ) (w : Walk) :
    (s.walkOn w).station.worker.scheduler = s.station.worker.scheduler := by
  cases hcur : w.current with
  | some x =>
    rw [walkOn_of_current s hcur]
    unfold proceed
    dsimp only
    split
    · rfl
    · split
      · rfl
      · split <;> rfl
    · rfl
    · unfold hand
      split <;> rfl
  | none =>
    cases htodo : w.todo with
    | cons v rest =>
      rw [walkOn_of_todo s hcur htodo]
      rfl
    | nil =>
      rw [walkOn_of_done s hcur htodo]
      rfl

/-! ### What is handed out -/

section Handover

variable {s : Scene γ} {w : Walk} {x : Stop}

/-- Nothing is handed out between passes. -/
lemma handover?_of_still (h : s.walk = none) : s.handover? = none := by simp [handover?, h]

/-- Nothing is handed out between visits. -/
lemma handover?_of_between (hw : s.walk = some w) (hcur : w.current = none) :
    s.handover? = none := by
  simp [handover?, hw, hcur]

/-- Nothing is handed out before a batch is complete, or when it is used up. -/
lemma handover?_of_progress (hw : s.walk = some w) (hx : w.current = some x)
    (hp : ∀ finished item left, x.progress ≠ .handing finished (item :: left)) :
    s.handover? = none := by
  simp only [handover?, hw, hx, Option.bind_eq_bind, Option.bind_some]

/-- What is handed out next. -/
lemma handover?_of_handing (hw : s.walk = some w) (hx : w.current = some x)
    {finished : Bool} {item : Item} {left : List Item}
    (hp : x.progress = .handing finished (item :: left)) {e : Entry}
    (he : s.reconciler.held? x.visit.key = some e) :
    s.handover? = some (x.poller, ⟨x.visit.filter, (answer e.reported item).1⟩) := by
  simp [handover?, hw, hx, hp, he]

/-- Going on with a visit notifies the broker of what is handed out. -/
lemma broker_proceed (hw : s.walk = some w) (hx : w.current = some x) :
    (s.proceed w x).station.broker =
      match s.handover? with
      | some (_, n) => s.station.broker.notify s.reconciler.service n
      | none => s.station.broker := by
  cases hp : x.progress with
  | reading =>
    rw [handover?_of_progress hw hx (by simp [hp])]
    simp only [proceed, hp]
    rfl
  | taking finished batch =>
    rw [handover?_of_progress hw hx (by simp [hp])]
    simp only [proceed, hp]
    split
    · rfl
    · split <;> rfl
  | handing finished left =>
    cases left with
    | nil =>
      rw [handover?_of_progress hw hx (by simp [hp])]
      simp only [proceed, hp]
      rfl
    | cons item left =>
      simp only [proceed, hp, hand]
      cases he : s.reconciler.held? x.visit.key with
      | none =>
        have hnone : s.handover? = none := by simp [handover?, hw, hx, hp, he]
        rw [hnone]
      | some e =>
        rw [handover?_of_handing hw hx hp he]
        have hservice := (s.reconciler.report_counters x.visit.key (answer e.reported item).2).2
        dsimp only
        rw [← hservice]
        rfl

end Handover

/-! ### What becomes of a poller in a move -/

variable [FlowGraph γ]

section Lawful

variable [LawfulGraph γ] {s : Scene γ}

/-- **What becomes of the poller of a key in a move.** -/
theorem Orderly.fate (hs : s.Orderly) (hw : s.hub.WellFormed) (m : Move γ) (k : PollerKey) :
    s.Fate m (s.perform m) k := by
  have hdeed := hs.deed m
  generalize s.perform m = s' at hdeed
  cases hdeed with
  | aside still walk hub reconciler joining drained => exact .kept (by rw [reconciler])
  | begin flush still due => exact .kept (s.reconciler.poller?_markUnused k)
  | onward w walk =>
    cases hcur : w.current with
    | some x =>
      rw [walkOn_of_current s hcur]
      exact .kept (s.poller?_proceed w x k)
    | none =>
      cases htodo : w.todo with
      | cons v rest =>
        rw [walkOn_of_todo s hcur htodo]
        have hmark := (Pass.ensure Hub.serve w.flush { reconciler := s.reconciler, hub := s.hub }
          v.key).reconciler.poller?_mark v.key k
        rcases s.reconciler.poller?_ensure v.key k Hub.lawful_serve w.flush hw with
          hsame | ⟨hflush, hmissing, q, hopened, hfresh⟩
        · exact .kept (hmark.trans hsame)
        · have hdue := hs.paced w walk
          rw [hflush] at hdue
          exact .opened q rfl hdue hmissing (hmark.trans hopened) hfresh
      | nil =>
        rw [walkOn_of_done s hcur htodo]
        have hevict : (s.endWalk w).reconciler.held? k =
            (s.reconciler.held? k).filter fun e => e.inUse := s.reconciler.held?_evict k s.hub
        cases he : s.reconciler.held? k with
        | none =>
          refine .kept ?_
          unfold Reconciler.poller?
          rw [hevict, he]
          rfl
        | some e =>
          cases huse : e.inUse with
          | false =>
            refine .evicted w e rfl walk ⟨hcur, htodo⟩ he huse ?_
            unfold Reconciler.poller?
            rw [hevict, he, Option.filter_some, if_neg (by simp [huse])]
            rfl
          | true =>
            refine .kept ?_
            unfold Reconciler.poller?
            rw [hevict, he, Option.filter_some, if_pos huse]
  | clear aim passes still still' stage stage' clear =>
    have hreconciler : s'.reconciler = (s.reconciler.clear s.hub).1 := by rw [clear]
    refine .cleared aim passes rfl stage ?_
    unfold Reconciler.poller?
    rw [hreconciler, Reconciler.held?_clear]
    rfl

end Lawful

/-! ### What is made known, and what is let go -/

/-- **What a step of the lifecycle thread hands out is what the broker is notified of.** -/
theorem broker_advance (s : Scene γ) :
    s.advance.station.broker =
      match s.handover? with
      | some (_, n) => s.station.broker.notify s.reconciler.service n
      | none => s.station.broker := by
  unfold advance
  cases hw : s.walk with
  | none =>
    rw [handover?_of_still hw]
    dsimp only
    split
    · rfl
    · exact Station.broker_step ‹_›
  | some w =>
    dsimp only
    cases hcur : w.current with
    | some x =>
      rw [walkOn_of_current s hcur]
      exact broker_proceed hw hcur
    | none =>
      rw [handover?_of_between hw hcur]
      cases htodo : w.todo with
      | cons v rest =>
        rw [walkOn_of_todo s hcur htodo]
        rfl
      | nil =>
        rw [walkOn_of_done s hcur htodo]
        rfl

/-- Whether a graph is held is changed by the steps of the lifecycle thread outside of passes
only. -/
lemma perform_of_holds_ne {s : Scene γ} {m : Move γ}
    (hne : (s.perform m).control.holds ≠ s.control.holds) :
    m = .advance ∧ s.perform m = { s with station := s.station.step } := by
  have hforeign : m.isForeign = true → False := by
    intro hm
    exact hne (congrArg Control.holds (s.apart_perform hm).control)
  cases m with
  | advance =>
    refine ⟨rfl, ?_⟩
    simp only [perform, advance] at hne ⊢
    split at hne
    · exact absurd (congrArg Option.isSome (s.scheduler_walkOn _)) hne
    · split at hne
      · exact absurd rfl hne
      · rfl
  | tick =>
    simp only [perform, withStation, tick] at hne
    split at hne
    · exact absurd rfl hne
    · exact absurd rfl hne
  | resume =>
    simp only [perform, withStation] at hne
    split at hne
    · unfold Station.resume at hne
      split at hne
      · split at hne
        · exact absurd rfl hne
        · exact absurd rfl hne
      · exact absurd (congrArg Control.holds (Worker.control_transition _ _)) hne
      · exact absurd rfl hne
    · exact absurd rfl hne
  | _ => exact (hforeign rfl).elim

/-- **A graph is let go when its thread has ended**, by the lifecycle thread that waited for it. -/
theorem gone_of_dropped {s : Scene γ} {m : Move γ} {x : Scheduler γ}
    (hx : s.station.worker.scheduler = some x)
    (hnone : (s.perform m).station.worker.scheduler = none) :
    m = .advance ∧ (∃ aim, s.stage = .joining aim) ∧ x.isGone = true := by
  have hholds : s.control.holds = true := congrArg Option.isSome hx
  have hdropped : (s.perform m).control.holds = false := congrArg Option.isSome hnone
  obtain ⟨rfl, hstep⟩ := perform_of_holds_ne (by rw [hholds, hdropped]; decide)
  rw [hstep] at hnone hdropped
  obtain ⟨aim, hstage⟩ := s.station.shift_step.joining hholds hdropped
  refine ⟨rfl, ⟨aim, hstage⟩, ?_⟩
  by_contra hgone
  cases (Station.scheduler_step_joining hstage hx (by simpa using hgone)).symm.trans hnone

/-- A graph is started between two scenes. -/
structure Launched (s s' : Scene γ) (x : γ) : Prop where
  /-- No other graph is held. -/
  free : s.station.worker.scheduler.isSome = false
  /-- The graph is about to be started. -/
  stage : s.stage = .starting x
  /-- It enters its sinks. -/
  sinks : FlowGraph.start x s.hub = some s'.hub
  /-- It is held. -/
  held : s'.station.worker.scheduler.isSome = true

/-- **A graph that comes to be held has entered its sinks** in the same move. -/
theorem launched_of_held {s : Scene γ} {m : Move γ} (hfree : s.control.holds = false)
    (hholds : (s.perform m).control.holds = true) : ∃ x, s.Launched (s.perform m) x := by
  obtain ⟨rfl, hstep⟩ := perform_of_holds_ne (by rw [hholds, hfree]; decide)
  rw [hstep] at hholds ⊢
  obtain ⟨x, hstage⟩ := s.station.shift_step.starting hfree hholds
  exact ⟨x, hfree, hstage, Station.start_of_step hstage hfree hholds, hholds⟩

end Scene

end Daq
