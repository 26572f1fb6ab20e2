import Daq.Proofs.Reconciler.Pass

set_option autoImplicit false

/-!
# How refused requests are counted

Whoever grants pollers may refuse, and may say in which circumstances. The circumstances are
contexts around the error, and what went wrong is the error inside all of them. A pass counts a
refusal by one of three counters, and nothing else of it depends on the error.

The counters do not always go by what went wrong: a signal that is not registered is counted as
such only if no context surrounds the error, and among the refused parameters otherwise.

## Main definitions

* `Daq.AcqError.root` — the error inside all contexts.
* `Daq.AcqError.masked` — contexts around an error for a signal that is not registered.
* `Daq.Grant.mapErrors` — a grant that words its refusals in another way.
* `Daq.Pass.met` — the errors that a walk meets.
* `Daq.Pass.withoutRefusals` — all of a pass but the three counters.

## Main results

* `Daq.AcqError.cause_eq` — the counter of an error, by its root.
* `Daq.Pass.withoutRefusals_visit` — one stop does not depend on the wording of refusals.
* `Daq.Pass.refused_walk` — each error that is met is counted once.
* `Daq.Reconciler.refusals_exact` — a pass that meets errors in contexts beside the pass that meets
  the errors inside them.
-/

namespace Daq

/-! ### Errors in contexts -/

namespace AcqError

/-- The error inside all contexts. -/
def root : AcqError → AcqError
  | .withContext _ source => source.root
  | e => e

/-- Whether contexts surround the error for a signal that is not registered. -/
def masked : AcqError → Bool
  | .withContext _ source => source.root.cause == .unknown
  | _ => false

/-- No contexts are left around the root. -/
lemma root_ne_withContext (e : AcqError) (context : String) (source : AcqError) :
    e.root ≠ .withContext context source := by
  induction e with
  | withContext c s ih => exact ih
  | _ => simp [root]

/-- Contexts leave the root alone. -/
@[simp]
lemma root_inContexts (e : AcqError) (contexts : List String) :
    (e.inContexts contexts).root = e.root := by
  induction contexts generalizing e with
  | nil => rfl
  | cons context contexts ih => exact ih (.withContext context e)

/-- Contexts leave it alone whether only one subscription is concerned. -/
lemma isRecoverable_root (e : AcqError) : e.root.isRecoverable = e.isRecoverable := by
  induction e with
  | withContext c s ih => exact ih
  | _ => rfl

/-- The counters of errors without contexts. -/
lemma cause_root (e : AcqError) :
    (e.root.cause = .unknown ↔ ∃ name, e.root = .unknownSignal name) ∧
      (e.root.cause = .rejected ↔
        (∃ text, e.root = .invalidArgument text) ∨
          ∃ key text, e.root = .deserialization key text) := by
  have hbare := e.root_ne_withContext
  generalize e.root = x at hbare ⊢
  cases x with
  | withContext context source => exact absurd rfl (hbare context source)
  | _ => simp [cause, isRecoverable]

/-- Of the errors without contexts that concern one subscription only, a signal that is not
registered is the one that has a counter of its own. -/
lemma cause_bare {x : AcqError} (hbare : ∀ context source, x ≠ .withContext context source) :
    (if x.isRecoverable then .rejected else .failed) =
      if x.cause == .unknown then .rejected else x.cause := by
  cases x with
  | withContext context source => exact absurd rfl (hbare context source)
  | _ => rfl

/-- **The counter of an error is that of its root**, unless the root is masked: then the error is
counted with the refused parameters. -/
theorem cause_eq (e : AcqError) : e.cause = if e.masked then .rejected else e.root.cause := by
  cases e with
  | withContext context source =>
    have hcause : (withContext context source).cause =
        if source.root.isRecoverable then .rejected else .failed := by
      rw [isRecoverable_root]
      rfl
    exact hcause.trans (cause_bare source.root_ne_withContext)
  | _ => rfl

/-- What is masked is a signal that is not registered. -/
lemma cause_root_of_masked {e : AcqError} (h : e.masked = true) : e.root.cause = .unknown := by
  cases e with
  | withContext context source => exact eq_of_beq h
  | _ => cases h

end AcqError

/-- A grant that words its refusals in another way. -/
def Grant.mapErrors (f : AcqError → AcqError) (grant : Grant) : Grant := fun h k =>
  (grant h k).mapError f

/-! ### The counters of refusals, and all the others -/

/-- The counters without those of refused requests. -/
def Counters.withoutRefusals (c : Counters) : Counters :=
  { c with unknownSignals := 0, rejectedRequests := 0, failedRequests := 0 }

/-- A refusal changes only its own counters. -/
lemma Counters.withoutRefusals_refuse (c : Counters) (e : AcqError) :
    (c.refuse e).withoutRefusals = c.withoutRefusals := by
  cases e <;> simp only [refuse] <;> first | rfl | (split <;> rfl)

/-- Counters that agree on refusals and on all else are the same. -/
lemma Counters.eq_of_withoutRefusals {c c' : Counters} (h : c.withoutRefusals = c'.withoutRefusals)
    (hrefused : ∀ cause, c.refused cause = c'.refused cause) : c = c' := by
  obtain ⟨_, _, _, _, _, _, _, _⟩ := c
  obtain ⟨_, _, _, _, _, _, _, _⟩ := c'
  have hunknown := hrefused .unknown
  have hrejected := hrefused .rejected
  have hfailed := hrefused .failed
  simp only [withoutRefusals, refused, mk.injEq] at *
  tauto

/-- All of a pass but the counters of refused requests. -/
def Pass.withoutRefusals (p : Pass) : Pass :=
  { p with reconciler := p.reconciler.count Counters.withoutRefusals }

/-- Passes that agree on refusals and on all else are the same. -/
lemma Pass.eq_of_withoutRefusals {p p' : Pass} (h : p.withoutRefusals = p'.withoutRefusals)
    (hrefused : ∀ cause,
      p.reconciler.counters.refused cause = p'.reconciler.counters.refused cause) :
    p = p' := by
  obtain ⟨⟨service, streams, captures, counters⟩, hub, finished, notifications⟩ := p
  obtain ⟨⟨service', streams', captures', counters'⟩, hub', finished', notifications'⟩ := p'
  simp only [withoutRefusals, Reconciler.count, mk.injEq, Reconciler.mk.injEq] at h
  obtain ⟨⟨rfl, rfl, rfl, hcounters⟩, rfl, rfl, rfl⟩ := h
  rw [Counters.eq_of_withoutRefusals hcounters hrefused]

namespace Reconciler

/-- A visit of a poller reads and changes no counters. -/
lemma collect_count (r : Reconciler) (f : Counters → Counters) (h : Hub) (k : PollerKey) :
    (r.count f).collect h k = (r.collect h k).map fun x => (x.1, x.2.1.count f, x.2.2) := by
  unfold collect
  split
  · cases hentry : r.captures.get? k with
    | none => simp [count, hentry]
    | some e => cases hqueue : h.captures? e.poller <;> simp [count, hentry, hqueue]
  · cases hentry : r.streams.get? k with
    | none => simp [count, hentry]
    | some e => cases hqueue : h.stream? e.poller <;> simp [count, hentry, hqueue]

/-- Entering a poller changes no counter of refusals. -/
lemma withoutRefusals_enter (r : Reconciler) (k : PollerKey) (q : PollerRef) :
    (r.enter k q).count Counters.withoutRefusals =
      (r.count Counters.withoutRefusals).enter k q := by
  unfold enter
  cases k.mode.isDataset <;> rfl

end Reconciler

/-! ### One stop of a walk -/

namespace Pass

/-- The error that a key without a poller meets when it is requested. -/
def refused? (grant : Grant) (flush : Bool) (p : Pass) (k : PollerKey) : Option AcqError :=
  if p.reconciler.contains k || flush then none else refusal? (grant p.hub k)

/-- The errors that a walk meets, one after the other. -/
def met (grant : Grant) (flush : Bool) (p : Pass) : List Visit → List AcqError
  | [] => []
  | v :: vs => (p.refused? grant flush v.key).toList ++ (p.visit grant flush v).met grant flush vs

variable {grant : Grant} {flush : Bool} {p p' : Pass}

/-- A visit hands out the same, whatever was refused before. -/
lemma withoutRefusals_serve (p : Pass) (v : Visit) :
    (p.serve v).withoutRefusals = p.withoutRefusals.serve v := by
  have hcollect := p.reconciler.collect_count Counters.withoutRefusals p.hub v.key
  unfold serve
  simp only [withoutRefusals, hcollect]
  cases p.reconciler.collect p.hub v.key <;> rfl

/-- A visit counts no refusal. -/
lemma refused_serve (p : Pass) (v : Visit) (cause : Cause) :
    (p.serve v).reconciler.counters.refused cause = p.reconciler.counters.refused cause := by
  have hkeeps : ∀ x ∈ p.reconciler.collect p.hub v.key,
      x.2.1.counters = p.reconciler.counters := by
    -- What comes back has the counters that were put in, also if these are all zero.
    intro x hx
    have hcount := p.reconciler.collect_count (fun _ => p.reconciler.counters) p.hub v.key
    have hself : p.reconciler.count (fun _ => p.reconciler.counters) = p.reconciler := rfl
    rw [hself, Option.mem_def.mp hx, Option.map_some] at hcount
    exact congrArg (fun x => x.2.1.counters) (Option.some.inj hcount)
  unfold serve
  cases hx : p.reconciler.collect p.hub v.key with
  | none => rfl
  | some x =>
    dsimp only
    rw [← hkeeps x hx]
    cases cause <;> rfl

/-- What a request reads does not depend on what was refused before. -/
lemma request_congr (grant : Grant) (hp : p.withoutRefusals = p'.withoutRefusals) (k : PollerKey) :
    p.reconciler.contains k = p'.reconciler.contains k ∧ grant p.hub k = grant p'.hub k := by
  have hcontains : p.withoutRefusals.reconciler.contains k =
      p'.withoutRefusals.reconciler.contains k := by rw [hp]
  have hhub : p.withoutRefusals.hub = p'.withoutRefusals.hub := by rw [hp]
  exact ⟨hcontains, congrArg (grant · k) hhub⟩

/-- **A request opens the same pollers, however refusals are worded and whatever was refused
before.** -/
lemma withoutRefusals_ensure (hp : p.withoutRefusals = p'.withoutRefusals)
    (f : AcqError → AcqError) (k : PollerKey) :
    (p.ensure grant flush k).withoutRefusals =
      (p'.ensure (grant.mapErrors f) flush k).withoutRefusals := by
  obtain ⟨hcontains, hgrant⟩ := request_congr grant hp k
  unfold ensure Grant.mapErrors
  rw [hcontains, hgrant]
  split
  · exact hp
  · cases grant p'.hub k with
    | error e =>
      simp only [Except.mapError, withoutRefusals, Reconciler.count,
        Counters.withoutRefusals_refuse]
      exact hp
    | ok x =>
      simp only [Except.mapError, withoutRefusals, Reconciler.withoutRefusals_enter]
      exact congrArg (fun q : Pass => { q with
        reconciler := q.reconciler.enter k x.1
        hub := x.2 }) hp

/-- A request that is refused is counted once. -/
lemma refused_ensure (p : Pass) (k : PollerKey) (cause : Cause) :
    (p.ensure grant flush k).reconciler.counters.refused cause =
      p.reconciler.counters.refused cause +
        (p.refused? grant flush k).toList.countP fun e => e.cause = cause := by
  unfold ensure refused?
  split
  · rfl
  · cases grant p.hub k with
    | error e =>
      simpa [refusal?, Reconciler.count, List.countP_singleton] using
        p.reconciler.counters.refused_refuse e cause
    | ok x =>
      dsimp only
      rw [(p.reconciler.enter_counters k x.1).1]
      cases cause <;> rfl

/-- **One stop of a walk does not depend on the wording of refusals.** -/
theorem withoutRefusals_visit (hp : p.withoutRefusals = p'.withoutRefusals)
    (f : AcqError → AcqError) (v : Visit) :
    (p.visit grant flush v).withoutRefusals =
      (p'.visit (grant.mapErrors f) flush v).withoutRefusals := by
  unfold visit
  rw [withoutRefusals_serve, withoutRefusals_serve, withoutRefusals_ensure hp f]

/-- What a request meets is worded as the grant words it. -/
lemma refused?_mapErrors (hp : p.withoutRefusals = p'.withoutRefusals) (f : AcqError → AcqError)
    (k : PollerKey) :
    p'.refused? (grant.mapErrors f) flush k = (p.refused? grant flush k).map f := by
  obtain ⟨hcontains, hgrant⟩ := request_congr grant hp k
  unfold refused? Grant.mapErrors
  rw [hcontains, hgrant]
  split
  · rfl
  · cases grant p'.hub k <;> rfl

/-! ### Walks -/

/-- A walk does not depend on the wording of refusals. -/
lemma withoutRefusals_walk (hp : p.withoutRefusals = p'.withoutRefusals) (f : AcqError → AcqError)
    (vs : List Visit) :
    (vs.foldl (Pass.visit grant flush) p).withoutRefusals =
      (vs.foldl (Pass.visit (grant.mapErrors f) flush) p').withoutRefusals := by
  induction vs generalizing p p' with
  | nil => exact hp
  | cons v vs ih => exact ih (withoutRefusals_visit hp f v)

/-- A walk meets the same refusals, however they are worded. -/
lemma met_mapErrors (hp : p.withoutRefusals = p'.withoutRefusals) (f : AcqError → AcqError)
    (vs : List Visit) :
    p'.met (grant.mapErrors f) flush vs = (p.met grant flush vs).map f := by
  induction vs generalizing p p' with
  | nil => rfl
  | cons v vs ih =>
    simp only [met, List.map_append, refused?_mapErrors hp f, ih (withoutRefusals_visit hp f v),
      Option.toList_map]

/-- **Each error that a walk meets is counted once**, by its counter. -/
theorem refused_walk (p : Pass) (vs : List Visit) (cause : Cause) :
    (vs.foldl (Pass.visit grant flush) p).reconciler.counters.refused cause =
      p.reconciler.counters.refused cause +
        (p.met grant flush vs).countP fun e => e.cause = cause := by
  induction vs generalizing p with
  | nil => rfl
  | cons v vs ih =>
    have hstop : (p.visit grant flush v).reconciler.counters.refused cause =
        p.reconciler.counters.refused cause +
          (p.refused? grant flush v.key).toList.countP fun e => e.cause = cause :=
      (refused_serve _ v cause).trans (refused_ensure p v.key cause)
    rw [List.foldl_cons, ih, hstop, met, List.countP_append, Nat.add_assoc]

end Pass

/-! ### Passes -/

namespace AcqError

/-- **The counters of several errors beside those of their roots**: the masked ones are missing
among the signals that are not registered, and are found among the refused parameters. -/
lemma countP_cause (es : List AcqError) (cause : Cause) :
    ((es.countP fun e => e.cause = cause) + if cause = .unknown then es.countP masked else 0) =
      (es.countP fun e => e.root.cause = cause) +
        if cause = .rejected then es.countP masked else 0 := by
  induction es with
  | nil => cases cause <;> rfl
  | cons e es ih =>
    simp only [List.countP_cons, e.cause_eq]
    cases hmasked : e.masked with
    | true =>
      rw [cause_root_of_masked hmasked]
      cases cause <;> simp at ih ⊢ <;> omega
    | false =>
      simp only [Bool.false_eq_true, if_false, Nat.add_zero]
      omega

end AcqError

namespace Reconciler

section Pass

variable (r : Reconciler) (grant : Grant) (flush : Bool) (h : Hub) (topics : List Topic)

/-- A pass counts the errors that its walk meets. -/
lemma refused_pass_met (cause : Cause) :
    (r.pass grant flush h topics).reconciler.counters.refused cause =
      r.counters.refused cause +
        ((r.begin h topics).met grant flush (visits r.service topics)).countP fun e =>
          e.cause = cause := by
  have hbegin : r.counters.refused cause =
      (r.begin h topics).reconciler.counters.refused cause := by
    cases cause <;> rfl
  rw [hbegin, ← Pass.refused_walk]
  cases cause <;> rfl

/-- A pass does not depend on the wording of refusals. -/
lemma withoutRefusals_pass (f : AcqError → AcqError) :
    (r.pass grant flush h topics).withoutRefusals =
      (r.pass (grant.mapErrors f) flush h topics).withoutRefusals :=
  congrArg (fun p : Pass => { p with
    reconciler := (p.reconciler.evict p.hub).1
    hub := (p.reconciler.evict p.hub).2 })
    (Pass.withoutRefusals_walk (p := r.begin h topics) rfl f (visits r.service topics))

end Pass

/-- **How a pass counts errors in contexts.**

Let a pass meet errors in any contexts, and a second pass the errors inside of these. The passes
agree in everything but the counters of refused requests: in tables, pollers, notifications, result
and all other counters. Each error that is met adds one to one of the three counters. In the second
pass that is the counter of the cause: signals that are not registered, refused parameters (an
invalid argument, or one that does not convert), or all else. In the first pass an error that has
contexts around a signal that is not registered goes to the refused parameters instead, and every
other error goes to the counter of its cause; so the passes are the same exactly if no such error is
met. -/
theorem refusals_exact (r : Reconciler) (grant : Grant) (flush : Bool) (h : Hub)
    (topics : List Topic) :
    let p := r.pass grant flush h topics
    let p' := r.pass (grant.mapErrors AcqError.root) flush h topics
    let met := (r.begin h topics).met grant flush (visits r.service topics)
    p.withoutRefusals = p'.withoutRefusals ∧
      (∀ cause, p.reconciler.counters.refused cause =
        r.counters.refused cause + met.countP fun e => e.cause = cause) ∧
      (∀ cause, p'.reconciler.counters.refused cause =
        r.counters.refused cause + met.countP fun e => e.root.cause = cause) ∧
      (∀ e : AcqError, ∀ contexts, (e.inContexts contexts).root = e.root) ∧
      (∀ e : AcqError, (e.root.cause = .unknown ↔ ∃ name, e.root = .unknownSignal name) ∧
        (e.root.cause = .rejected ↔ (∃ text, e.root = .invalidArgument text) ∨
          ∃ key text, e.root = .deserialization key text)) ∧
      (∀ e : AcqError, e.cause = if e.masked then .rejected else e.root.cause) ∧
      p'.reconciler.counters.unknownSignals =
        p.reconciler.counters.unknownSignals + met.countP AcqError.masked ∧
      p.reconciler.counters.rejectedRequests =
        p'.reconciler.counters.rejectedRequests + met.countP AcqError.masked ∧
      p.reconciler.counters.failedRequests = p'.reconciler.counters.failedRequests ∧
      (p = p' ↔ ∀ e ∈ met, e.masked = false) := by
  intro p p' met
  have hsame := r.withoutRefusals_pass grant flush h topics AcqError.root
  have hcounts : ∀ cause, p.reconciler.counters.refused cause =
      r.counters.refused cause + met.countP fun e => e.cause = cause :=
    r.refused_pass_met grant flush h topics
  have hcounts' : ∀ cause, p'.reconciler.counters.refused cause =
      r.counters.refused cause + met.countP fun e => e.root.cause = cause := by
    intro cause
    have hmet : (r.begin h topics).met (grant.mapErrors AcqError.root) flush
        (visits r.service topics) = met.map AcqError.root := Pass.met_mapErrors rfl _ _
    rw [r.refused_pass_met, hmet, List.countP_map]
    rfl
  have hunknown : p'.reconciler.counters.refused .unknown =
      p.reconciler.counters.refused .unknown + met.countP AcqError.masked := by
    have hcause := AcqError.countP_cause met .unknown
    simp only [if_true, reduceCtorEq, if_false, Nat.add_zero] at hcause
    rw [hcounts, hcounts', ← hcause, Nat.add_assoc]
  have hrejected : p.reconciler.counters.refused .rejected =
      p'.reconciler.counters.refused .rejected + met.countP AcqError.masked := by
    have hcause := AcqError.countP_cause met .rejected
    simp only [if_true, reduceCtorEq, if_false, Nat.add_zero] at hcause
    rw [hcounts, hcounts', hcause, Nat.add_assoc]
  have hfailed : p.reconciler.counters.refused .failed =
      p'.reconciler.counters.refused .failed := by
    have hcause := AcqError.countP_cause met .failed
    simp only [reduceCtorEq, if_false, Nat.add_zero] at hcause
    rw [hcounts, hcounts', hcause]
  have hzero : met.countP AcqError.masked = 0 ↔ ∀ e ∈ met, e.masked = false := by
    simp [List.countP_eq_zero]
  refine ⟨hsame, hcounts, hcounts', AcqError.root_inContexts, AcqError.cause_root,
    AcqError.cause_eq, hunknown, hrejected, hfailed, ?_⟩
  rw [← hzero]
  constructor
  · intro hp
    rw [← hp] at hunknown
    omega
  · intro hnone
    rw [hnone, Nat.add_zero] at hunknown hrejected
    refine Pass.eq_of_withoutRefusals hsame fun cause => ?_
    cases cause with
    | unknown => exact hunknown.symm
    | rejected => exact hrejected
    | failed => exact hfailed

/-- A registry that knows no signal: with a context around its error the refusal is counted among
the refused parameters, and without one as a signal that is not registered. -/
theorem unknown_in_context :
    let r : Reconciler := { service := "/daq" }
    let grant : Grant := fun _ k =>
      .error (AcqError.inContexts (.unknownSignal k.signal) ["registry offline"])
    let topics : List Topic := [⟨"/daq", Table.ofList [(Filter.channelsParam, "S")]⟩]
    let counters := (r.pass grant false {} topics).reconciler.counters
    let bare := (r.pass (grant.mapErrors AcqError.root) false {} topics).reconciler.counters
    (counters.unknownSignals, counters.rejectedRequests) = (0, 1) ∧
      (bare.unknownSignals, bare.rejectedRequests) = (1, 0) ∧ counters ≠ bare := by
  decide +kernel

end Reconciler

end Daq
