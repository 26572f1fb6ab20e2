import Daq.Proofs.Filter
import Daq.Proofs.Reconciler.Course
import Daq.Proofs.Routing

set_option autoImplicit false

/-!
# What the directory is asked for

A pass asks the directory for the pollers that are missing. Between any two steps of a pass others
act: sinks are made, registered, replaced, unregistered and stopped. A filter is checked when it is
read, and a sink checks a request once more when it attaches a tap; the two checks agree, so the one
of the sink never fails. All that a request can meet is a signal that is not registered when it is
asked for.

## Main definitions

* `Daq.PollerKey.Proper` — the keys that filters ask for.
* `Daq.Hub.Directed` — directories that name sinks that are there.
* `Daq.Patrol`, `Daq.Patrol.run` — a reconciler with its hub between the steps of its passes.
* `Daq.Patrol.request?` — the request that a move makes.

## Main results

* `Daq.Sink.refusal?_attach_eq_none_iff` — a sink refuses exactly the filters that cannot be read.
* `Daq.Patrol.exists_iterate_advance` — the steps of a pass, left alone, make the pass.
* `Daq.Patrol.requests_exact` — how the requests of any run of passes are answered.
-/

namespace Daq

/-! ### Proper keys -/

/-- What reading a filter ensures of the keys that the filter asks for. -/
structure PollerKey.Proper (k : PollerKey) : Prop where
  /-- Only the parameters of the mode are set. -/
  canonical : k =
    match k.mode with
    | .continuous => .continuous k.signal
    | .triggered => .triggered k.signal k.trigger k.pre k.post
    | .multiplexed => .multiplexed k.signal k.trigger k.window
    | .snapshot => .snapshot k.signal k.trigger k.delay
  /-- Captures around triggers have samples. -/
  samples : ¬ (k.mode = .triggered ∧ k.pre + k.post = 0)

/-- A filter that can be read asks for proper keys. -/
lemma Filter.proper_key {f : Filter} (hf : f.Expressible) (channel : String) :
    (f.key channel).Proper := by
  have hwindow := hf.window
  unfold key
  cases hm : f.mode with
  | triggered =>
    refine ⟨rfl, fun h => hwindow ⟨hm, ?_⟩⟩
    exact Nat.add_eq_zero_iff.mp h.2
  | continuous => exact ⟨rfl, fun h => nomatch h.1⟩
  | multiplexed => exact ⟨rfl, fun h => nomatch h.1⟩
  | snapshot => exact ⟨rfl, fun h => nomatch h.1⟩

/-- A pass visits proper keys only. -/
lemma proper_of_mem_visits {service : String} {topics : List Topic} {v : Visit}
    (hv : v ∈ visits service topics) : v.key.Proper := by
  obtain ⟨f, channel, -, rfl, params, hf⟩ := exists_of_mem_visits hv
  exact f.proper_key (Filter.expressible_of_ofParams hf).1 channel

namespace Sink

/-- A sink attaches a tap for every request but one for captures without samples. -/
lemma refusal?_attach (s : Sink) (capacity : Nat) (k : PollerKey) :
    refusal? (s.attach capacity (Hub.requestOf k)) =
      if k.mode = .triggered ∧ k.pre + k.post = 0 then
        some (.invalidArgument
          ("trigger window on '" ++ s.descriptor.name ++ "' needs pre or post samples"))
      else none := by
  unfold attach Hub.requestOf
  cases hm : k.mode with
  | triggered =>
    dsimp only [outletFor]
    by_cases hzero : k.pre + k.post = 0
    · rw [if_pos hzero, if_pos ⟨rfl, hzero⟩]
      rfl
    · rw [if_neg hzero, if_neg fun h => hzero h.2]
      rfl
  | continuous => rfl
  | multiplexed => rfl
  | snapshot => rfl

/-- **A sink refuses exactly what cannot be read.** Take a filter whose counts and delay have
sixty-four bits. A sink attaches a tap for a key of the filter exactly if the filter is read back
from its parameters. -/
theorem refusal?_attach_eq_none_iff {f : Filter} (hpre : f.pre < countBound)
    (hpost : f.post < countBound) (hwindow : f.window < countBound)
    (hdelay : f.delay.nanoseconds < countBound) (s : Sink) (capacity : Nat) (channel : String) :
    refusal? (s.attach capacity (Hub.requestOf (f.key channel))) = none ↔
      Filter.ofParams f.toParams = .ok f := by
  have hread := f.ofParams_toParams hpre hpost hwindow
  rw [if_neg (not_not.mpr hdelay)] at hread
  have hkey : ((f.key channel).mode = .triggered ∧ (f.key channel).pre + (f.key channel).post = 0) ↔
      (f.mode = .triggered ∧ f.pre + f.post = 0) := by
    unfold Filter.key
    cases hm : f.mode <;> simp [PollerKey.continuous, PollerKey.triggered, PollerKey.multiplexed,
      PollerKey.snapshot]
  rw [refusal?_attach, hread]
  by_cases hnone : f.mode = .triggered ∧ f.pre + f.post = 0
  · rw [if_pos (hkey.mpr hnone), if_pos hnone]
    simp
  · rw [if_neg (fun h => hnone (hkey.mp h)), if_neg hnone]
    simp

end Sink

/-! ### Directories -/

namespace Hub

/-- The directory names sinks that are there. -/
def Directed (h : Hub) : Prop :=
  ∀ signal sink, h.lookup? signal = some sink → sink < h.sinks.length

/-- A directory that stays names the sinks it named, if none is taken away. -/
lemma Directed.of_frame {h h' : Hub} (hd : h.Directed) (hdir : h'.directory = h.directory)
    (hsinks : h.sinks.length ≤ h'.sinks.length) : h'.Directed := by
  intro signal sink hl
  rw [lookup?, hdir] at hl
  exact (hd signal sink hl).trans_le hsinks

/-- Changing a sink leaves a directory in order. -/
lemma Directed.modify {h : Hub} (hd : h.Directed) (sink : Nat) (f : Sink → Sink) :
    (h.modify sink f).Directed :=
  hd.of_frame rfl (h.length_sinks_modify sink f).ge

/-- Attaching a poller leaves a directory in order. -/
lemma Directed.attach {h h' : Hub} (hd : h.Directed) {sink capacity : Nat} {r : Request}
    {p : PollerRef} (ha : h.attach sink capacity r = .ok (p, h')) : h'.Directed := by
  unfold Hub.attach at ha
  split at ha
  · cases ha
  · split at ha
    · cases ha
    · cases ha
      exact hd.modify sink _

/-- **Whatever is done to a hub, its directory stays in order.** -/
lemma Directed.perform {h : Hub} (hd : h.Directed) (a : Act) : (h.perform a).Directed := by
  cases a with
  | make d rate => exact hd.of_frame rfl (by simp [Hub.perform, make])
  | register sink =>
    unfold Hub.perform register
    dsimp only
    split
    · rename_i s hs
      obtain ⟨hlt, -⟩ := List.getElem?_eq_some_iff.mp hs
      intro signal other hl
      rw [lookup?, Table.get?_insert] at hl
      split at hl
      · cases hl
        exact hlt
      · exact hd signal other hl
    · exact hd
  | unregister signal =>
    intro other sink hl
    rw [lookup?, Hub.perform, unregister, Table.get?_erase] at hl
    split at hl
    · cases hl
    · exact hd other sink hl
  | attach sink capacity r =>
    unfold Hub.perform
    dsimp only
    cases ha : h.attach sink capacity r with
    | error e => exact hd
    | ok x => exact hd.attach ha
  | push sink b => exact hd.modify sink _
  | stop sink => exact hd.modify sink _
  | offer p x => exact hd.modify p.sink _
  | halt sink => exact hd.modify sink _
  | finish p => exact hd.modify p.sink _

/-- Letting go of pollers leaves a directory in order. -/
lemma Directed.releaseAll {h : Hub} (hd : h.Directed) (ps : List PollerRef) :
    (ps.foldl release h).Directed := by
  induction ps generalizing h with
  | nil => exact hd
  | cons p ps ih => exact ih (hd.modify p.sink _)

/-- Granting a request leaves a directory in order. -/
lemma Directed.serve {h h' : Hub} (hd : h.Directed) {k : PollerKey} {p : PollerRef}
    (hok : h.serve k = .ok (p, h')) : h'.Directed := by
  obtain ⟨s, s', -, -, -, rfl⟩ := serve_eq_ok hok
  exact hd.modify p.sink _

/-- **A proper key is refused exactly if its signal is not registered.** -/
theorem refusal?_serve_of_proper {h : Hub} (hd : h.Directed) {k : PollerKey} (hk : k.Proper) :
    refusal? (h.serve k) =
      if k.signal ∈ h.names then none else some (.unknownSignal k.signal) := by
  have hnames : k.signal ∈ h.names ↔ (h.lookup? k.signal).isSome :=
    h.directory.mem_keys k.signal
  rw [serve_eq, request]
  cases hl : h.lookup? k.signal with
  | none =>
    rw [if_neg (by simp [hnames, hl])]
    rfl
  | some sink =>
    rw [if_pos (by simp [hnames, hl])]
    dsimp only
    obtain ⟨s, hs⟩ : ∃ s, h.sinks[sink]? = some s := ⟨_, List.getElem?_eq_getElem (hd _ _ hl)⟩
    have hattach := s.refusal?_attach (h.capacityFor (requestOf k)) k
    rw [if_neg hk.samples] at hattach
    rw [attach, hs]
    dsimp only
    split
    · rename_i e he
      rw [he] at hattach
      cases hattach
    · rfl

end Hub

/-! ### Passes with others between their steps -/

/-- Where a reconciler stands. -/
inductive Patrol.Position where
  /-- No pass is under way. -/
  | resting
  /-- The poller of the first of these visits is asked for next, unless the pass flushes. -/
  | asking (flush : Bool) (todo : List Visit)
  /-- The poller of a visit is emptied next. -/
  | serving (flush : Bool) (v : Visit) (todo : List Visit)

/-- A reconciler with its hub, between the steps of its passes. -/
structure Patrol where
  /-- Reconciler and hub, and what the last pass has come to. -/
  pass : Pass
  /-- Where the reconciler stands. -/
  position : Patrol.Position := .resting

namespace Patrol

/-- A reconciler without pollers and a hub without sinks. -/
def start (service : String) (capacities : Capacities) : Patrol where
  pass := { reconciler := { service }, hub := { capacities } }

/-- The sinks. -/
def hub (x : Patrol) : Hub := x.pass.hub

/-- The counters of the reconciler. -/
def counters (x : Patrol) : Counters := x.pass.reconciler.counters

/-- What happens to reconciler and hub. -/
inductive Move where
  /-- A pass is begun over the topics that are active then. -/
  | begin (flush : Bool) (topics : List Topic)
  /-- The pass makes its next step. -/
  | advance
  /-- All pollers are let go of. -/
  | clear
  /-- Someone else acts on the hub. -/
  | act (a : Hub.Act)

/-- The next step of a pass: a poller is asked for, or it is emptied, or, after the last visit, the
pollers that were not visited are let go of. -/
def advance (x : Patrol) : Patrol :=
  match x.position with
  | .resting => x
  | .asking _ [] =>
    let (reconciler, hub) := x.pass.reconciler.evict x.pass.hub
    ⟨{ x.pass with reconciler, hub }, .resting⟩
  | .asking flush (v :: todo) =>
    ⟨x.pass.ensure Hub.serve flush v.key, .serving flush v todo⟩
  | .serving flush v todo => ⟨x.pass.serve v, .asking flush todo⟩

/-- Reconciler and hub after a move. Passes are not nested, and pollers are not cleared during a
pass. -/
def take (x : Patrol) : Move → Patrol
  | .begin flush topics =>
    match x.position with
    | .resting =>
      ⟨x.pass.reconciler.begin x.hub topics,
        .asking flush (visits x.pass.reconciler.service topics)⟩
    | _ => x
  | .advance => x.advance
  | .clear =>
    match x.position with
    | .resting =>
      let (reconciler, hub) := x.pass.reconciler.clear x.hub
      ⟨{ x.pass with reconciler, hub }, .resting⟩
    | _ => x
  | .act a => { x with pass := { x.pass with hub := x.hub.perform a } }

/-- Reconciler and hub after several moves. -/
def run (x : Patrol) (moves : List Move) : Patrol := moves.foldl take x

/-- The key that the next step of a pass asks the directory for: one without a poller, unless the
pass flushes. -/
def due? (x : Patrol) : Option PollerKey :=
  match x.position with
  | .asking flush (v :: _) =>
    if x.pass.reconciler.contains v.key || flush then none else some v.key
  | _ => none

/-- The key that a move asks the directory for. -/
def request? (x : Patrol) : Move → Option PollerKey
  | .advance => x.due?
  | _ => none

/-- The visits that a pass has still to make. -/
def Position.todo : Position → List Visit
  | .resting => []
  | .asking _ todo => todo
  | .serving _ v todo => v :: todo

/-! ### The steps of a pass make the pass -/

/-- Two steps make a visit. -/
lemma iterate_advance_asking (p : Pass) (flush : Bool) (vs : List Visit) :
    advance^[2 * vs.length] ⟨p, .asking flush vs⟩ =
      ⟨vs.foldl (Pass.visit Hub.serve flush) p, .asking flush []⟩ := by
  induction vs generalizing p with
  | nil => rfl
  | cons v vs ih =>
    rw [List.length_cons, Nat.mul_succ, Function.iterate_succ_apply, Function.iterate_succ_apply]
    exact ih (p.visit Hub.serve flush v)

/-- **A pass that nobody interrupts** is the pass of the reconciler. -/
theorem exists_iterate_advance (p : Pass) (flush : Bool) (topics : List Topic) :
    ∃ n, advance^[n] (take ⟨p, .resting⟩ (.begin flush topics)) =
      ⟨p.reconciler.pass Hub.serve flush p.hub topics, .resting⟩ := by
  refine ⟨2 * (visits p.reconciler.service topics).length + 1, ?_⟩
  rw [Function.iterate_succ_apply', take]
  exact congrArg advance (iterate_advance_asking _ flush _)

/-! ### What every move keeps -/

/-- The directory is in order, and the keys that are still to be visited are proper. -/
structure Ordered (x : Patrol) : Prop where
  /-- The directory names sinks that are there. -/
  directed : x.hub.Directed
  /-- The keys ahead are proper. -/
  proper : ∀ v ∈ x.position.todo, v.key.Proper

/-- At the start nothing is registered and nothing is to be visited. -/
lemma ordered_start (service : String) (capacities : Capacities) :
    (start service capacities).Ordered := by
  refine ⟨fun signal sink hl => ?_, fun v hv => nomatch hv⟩
  rw [Hub.lookup?, start, hub, Table.get?_empty] at hl
  cases hl

/-- A step of a pass keeps order. -/
lemma Ordered.advance {x : Patrol} (hx : x.Ordered) : x.advance.Ordered := by
  obtain ⟨p, position⟩ := x
  obtain ⟨hd, hproper⟩ := hx
  change p.hub.Directed at hd
  match position with
  | .resting => exact ⟨hd, hproper⟩
  | .asking flush [] => exact ⟨hd.releaseAll p.reconciler.stale, hproper⟩
  | .asking flush (v :: todo) =>
    refine ⟨?_, hproper⟩
    change (p.ensure Hub.serve flush v.key).hub.Directed
    obtain ⟨-, heq⟩ | ⟨-, -, e, -, heq⟩ | ⟨-, -, q, h', hok, heq⟩ :=
      p.ensure_cases Hub.serve flush v.key
    · rwa [heq]
    · rwa [heq]
    · rw [heq]
      exact hd.serve hok
  | .serving flush v todo =>
    refine ⟨?_, fun u hu => hproper u (List.mem_cons_of_mem v hu)⟩
    obtain ⟨-, -, hdir, hlen⟩ := p.serve_frame v
    exact hd.of_frame hdir hlen.ge

/-- **Every move keeps order.** -/
lemma Ordered.take {x : Patrol} (hx : x.Ordered) (m : Move) : (x.take m).Ordered := by
  cases m with
  | begin flush topics =>
    unfold Patrol.take
    dsimp only
    split
    · exact ⟨hx.directed, fun v hv => proper_of_mem_visits hv⟩
    · exact hx
  | advance => exact hx.advance
  | clear =>
    unfold Patrol.take
    dsimp only
    split
    · exact ⟨hx.directed.releaseAll x.pass.reconciler.pollers, fun v hv => nomatch hv⟩
    · exact hx
  | act a => exact ⟨hx.directed.perform a, hx.proper⟩

/-- The key that is due is proper. -/
lemma Ordered.proper_due {x : Patrol} (hx : x.Ordered) {k : PollerKey} (hk : x.due? = some k) :
    k.Proper := by
  unfold due? at hk
  split at hk
  · rename_i flush v todo hpos
    split at hk
    · cases hk
    · cases hk
      exact hx.proper v (by simp [hpos, Position.todo])
  · cases hk

/-- A move counts the refusal of the request that it makes, and no other. -/
lemma refused_take (x : Patrol) (m : Move) (cause : Cause) :
    (x.take m).counters.refused cause = x.counters.refused cause +
      ((x.request? m).bind fun k => refusal? (x.hub.serve k)).elim 0 fun e =>
        if e.cause = cause then 1 else 0 := by
  obtain ⟨p, position⟩ := x
  cases m with
  | begin flush topics => cases position <;> cases cause <;> rfl
  | clear => cases position <;> cases cause <;> rfl
  | act a => rfl
  | advance =>
    match position with
    | .resting => rfl
    | .asking flush [] => cases cause <;> rfl
    | .serving flush v todo =>
      obtain ⟨-, ⟨n, hcounters⟩, -, -⟩ := p.serve_frame v
      change (p.serve v).reconciler.counters.refused cause = _
      rw [hcounters]
      cases cause <;> rfl
    | .asking flush (v :: todo) =>
      change (p.ensure Hub.serve flush v.key).reconciler.counters.refused cause =
        p.reconciler.counters.refused cause +
          ((due? ⟨p, .asking flush (v :: todo)⟩).bind fun k => refusal? (p.hub.serve k)).elim 0 _
      obtain ⟨hskip, heq⟩ | ⟨hcon, hfl, e, he, heq⟩ | ⟨hcon, hfl, q, h', hok, heq⟩ :=
        p.ensure_cases Hub.serve flush v.key
      · have hdue : due? ⟨p, .asking flush (v :: todo)⟩ = none := by simp [due?, hskip]
        rw [heq, hdue]
        rfl
      · have hdue : due? ⟨p, .asking flush (v :: todo)⟩ = some v.key := by simp [due?, hcon, hfl]
        rw [heq, hdue, Option.bind_some, he]
        exact Counters.refused_refuse p.reconciler.counters e cause
      · have hdue : due? ⟨p, .asking flush (v :: todo)⟩ = some v.key := by simp [due?, hcon, hfl]
        rw [heq, hdue, Option.bind_some, hok]
        dsimp only
        rw [(p.reconciler.enter_counters v.key q).1]
        cases cause <;> rfl

/-- What the directory answers to the request of a move. -/
lemma Ordered.answer {x : Patrol} (hx : x.Ordered) {m : Move} {k : PollerKey}
    (hk : x.request? m = some k) :
    k.Proper ∧ refusal? (x.hub.serve k) =
      if k.signal ∈ x.hub.names then none else some (.unknownSignal k.signal) := by
  cases m with
  | advance =>
    have hproper := hx.proper_due hk
    exact ⟨hproper, Hub.refusal?_serve_of_proper hx.directed hproper⟩
  | begin flush topics => cases hk
  | clear => cases hk
  | act a => cases hk

/-- A move counts at most one request, for a signal that is not registered. -/
lemma Ordered.refused_take {x : Patrol} (hx : x.Ordered) (m : Move) (cause : Cause) :
    (x.take m).counters.refused cause = x.counters.refused cause +
      (x.request? m).elim 0 fun k =>
        if k.signal ∉ x.hub.names ∧ cause = .unknown then 1 else 0 := by
  rw [x.refused_take m cause]
  cases hk : x.request? m with
  | none => rfl
  | some k =>
    rw [Option.bind_some, (hx.answer hk).2]
    by_cases hname : k.signal ∈ x.hub.names
    · simp [hname]
    · cases cause <;> simp [hname, AcqError.cause]

/-- A run keeps order, and refuses no request but for an unknown signal. -/
lemma ordered_run (service : String) (capacities : Capacities) (moves : List Move) :
    let x := (start service capacities).run moves
    x.Ordered ∧ x.counters.refused .rejected = 0 ∧ x.counters.refused .failed = 0 := by
  have hstart := ordered_start service capacities
  have hnone : ∀ cause, (start service capacities).counters.refused cause = 0 := by
    intro cause
    cases cause <;> rfl
  unfold run
  generalize start service capacities = x at hstart hnone
  have hrejected := hnone .rejected
  have hfailed := hnone .failed
  clear hnone
  induction moves generalizing x with
  | nil => exact ⟨hstart, hrejected, hfailed⟩
  | cons m moves ih =>
    refine ih (x.take m) (hstart.take m) ?_ ?_
    · rw [hstart.refused_take m, hrejected]
      cases x.request? m <;> simp
    · rw [hstart.refused_take m, hfailed]
      cases x.request? m <;> simp

/-- **How the requests of any run of passes are answered.** Others act at any time.

No request is ever rejected or fails. A move that makes no request counts none. A move that requests
the poller of a key finds a key that stands for a request, which no sink would refuse; the directory
grants it if the signal is registered at that moment, and otherwise answers that the signal is
unknown, which is counted. -/
theorem requests_exact (service : String) (capacities : Capacities) (moves : List Move) (m : Move) :
    let x := (start service capacities).run moves
    let c := x.counters
    let c' := (x.take m).counters
    c.rejectedRequests = 0 ∧ c.failedRequests = 0 ∧
      (x.request? m = none → c'.unknownSignals = c.unknownSignals) ∧
      ∀ k, x.request? m = some k →
        k.Proper ∧
        (k.mode.isDataset = true → Hub.captureRequest k = .ok (Hub.requestOf k)) ∧
        (∀ (s : Sink) (capacity : Nat), refusal? (s.attach capacity (Hub.requestOf k)) = none) ∧
        refusal? (x.hub.serve k) =
          (if k.signal ∈ x.hub.names then none else some (.unknownSignal k.signal)) ∧
        c'.unknownSignals = c.unknownSignals + if k.signal ∈ x.hub.names then 0 else 1 := by
  intro x c c'
  obtain ⟨hx, hrejected, hfailed⟩ := ordered_run service capacities moves
  have hcount : c'.unknownSignals = c.unknownSignals + (x.request? m).elim 0 fun k =>
      if k.signal ∉ x.hub.names ∧ Cause.unknown = .unknown then 1 else 0 :=
    hx.refused_take m .unknown
  refine ⟨hrejected, hfailed, fun hk => ?_, fun k hk => ?_⟩
  · rw [hcount, hk]
    rfl
  · obtain ⟨hproper, hanswer⟩ := hx.answer hk
    refine ⟨hproper, Hub.captureRequest_eq_ok, fun s capacity => ?_, hanswer, ?_⟩
    · rw [s.refusal?_attach, if_neg hproper.samples]
    · rw [hcount, hk]
      by_cases hname : k.signal ∈ x.hub.names <;> simp [hname]

/-- A sink is made, registered, and a pass begun over a topic that asks for captures of two signals,
the first of which has become unknown by the time of its request. -/
def sampleMoves : List Move :=
  [.act (.make (.unknown "A") .zero), .act (.make (.unknown "B") .zero), .act (.register 0),
    .act (.register 1),
    .begin false [⟨"/daq", Table.ofList
      [(Filter.modeParam, "triggered"), (Filter.preParam, "2"), (Filter.channelsParam, "A,B")]⟩],
    .act (.unregister "A"), .act (.stop 1)]

/-- The request for `A` is refused as unknown and counted, and then the one for `B`, whose sink has
stopped in the meantime, is granted. -/
theorem requests_exact_sample :
    let x := (start "/daq" {}).run sampleMoves
    let y := (start "/daq" {}).run (sampleMoves ++ [.advance, .advance])
    x.request? .advance = some (.triggered "A" "" 2 0) ∧
      refusal? (x.hub.serve (.triggered "A" "" 2 0)) = some (.unknownSignal "A") ∧
      (x.take .advance).counters.unknownSignals = 1 ∧
      y.request? .advance = some (.triggered "B" "" 2 0) ∧
      refusal? (y.hub.serve (.triggered "B" "" 2 0)) = none ∧ y.counters.rejectedRequests = 0 := by
  intro x y
  obtain ⟨-, -, -, hx⟩ := requests_exact "/daq" {} sampleMoves .advance
  obtain ⟨hrejected, -, -, hy⟩ :=
    requests_exact "/daq" {} (sampleMoves ++ [.advance, .advance]) .advance
  have hA : x.request? .advance = some (.triggered "A" "" 2 0) := by decide +kernel
  have hB : y.request? .advance = some (.triggered "B" "" 2 0) := by decide +kernel
  obtain ⟨-, -, -, hrefused, hcount⟩ := hx _ hA
  obtain ⟨-, -, -, hgranted, -⟩ := hy _ hB
  refine ⟨hA, ?_, ?_, hB, ?_, hrejected⟩
  · rw [hrefused]
    decide +kernel
  · rw [hcount]
    decide +kernel
  · rw [hgranted]
    decide +kernel

end Patrol

end Daq
