import Daq.Proofs.Hub.Producers
import Daq.Proofs.Reconciler.Sound
import Daq.Worker

set_option autoImplicit false

/-!
# Passes step by step

The passes of a worker are made while the execution thread works and clients come and go. Here a
pass is taken apart into the steps between which others act: it comes to a key, opens its poller if
that is missing, reads the flag of the producer, takes items one at a time, up to a batch, hands
them out one at a time, and sweeps in the end. All other steps of the lifecycle thread are those of
`Daq.Station.step`.

## Main definitions

* `Daq.Progress`, `Daq.Stop`, `Daq.Walk` — how far a pass has come.
* `Daq.Scene` — a station in the course of a pass or between passes.
* `Daq.Scene.advance` — the next step of the lifecycle thread.
* `Daq.Scene.Move`, `Daq.Scene.perform`, `Daq.Scene.run` — what everyone may do, in any order.
-/

namespace Daq

/-- How far the visit of a poller has come. -/
inductive Progress where
  /-- The flag of the producer is to be read. -/
  | reading
  /-- A batch is taken from the queue, item by item. -/
  | taking (finished : Bool) (batch : List Item)
  /-- The items of a batch are handed out. -/
  | handing (finished : Bool) (left : List Item)

namespace Progress

/-- The items that were taken but not handed out. -/
def inHand : Progress → List Item
  | reading => []
  | taking _ batch => batch
  | handing _ left => left

/-- Whether the flag was read, and was up. -/
def sawFinished : Progress → Bool
  | reading => false
  | taking finished _ => finished
  | handing finished _ => finished

end Progress

/-- The visit of a poller. -/
structure Stop where
  /-- The key, with the filter that asks for it. -/
  visit : Visit
  /-- The poller. -/
  poller : PollerRef
  /-- How far the visit has come. -/
  progress : Progress

/-- A pass under way. -/
structure Walk where
  /-- Whether missing pollers stay missing. -/
  flush : Bool
  /-- Whether every poller visited so far had ended. -/
  finished : Bool := true
  /-- The visit under way. -/
  current : Option Stop := none
  /-- The visits to come. -/
  todo : List Visit

/-- A station in the course of a pass, or between passes. -/
structure Scene (γ : Type) where
  /-- The station. -/
  station : Station γ
  /-- The pass under way. -/
  walk : Option Walk := none

/-- Whether the next step of the lifecycle thread is a pass, and then whether it flushes. -/
def Station.pass? {γ : Type} (s : Station γ) : Option Bool :=
  match s.worker.outbox, s.worker.stage with
  | [], .begun _ => if s.worker.state = .running then some false else none
  | [], .flushing _ _ => some true
  | _, _ => none

/-- The stage after a pass. -/
def Stage.afterPass {γ : Type} (finished : Bool) : Stage γ → Stage γ
  | .begun stop => .passed stop
  | .flushing aim passes => if finished then .drained aim (passes + 1) else .flushing aim (passes + 1)
  | stage => stage

namespace Scene

variable {γ : Type}

/-- The sinks. -/
def hub (s : Scene γ) : Hub := s.station.hub

/-- The poller tables. -/
def reconciler (s : Scene γ) : Reconciler := s.station.worker.reconciler

/-- Where the lifecycle thread is. -/
def stage (s : Scene γ) : Stage γ := s.station.worker.stage

/-- The scene with other tables, sinks and pass. -/
def update (s : Scene γ) (r : Reconciler) (h : Hub) (walk : Option Walk) : Scene γ where
  station := { s.station with hub := h, worker := { s.station.worker with reconciler := r } }
  walk

/-! ### The steps of a pass -/

/-- Begin a pass over the active topics. -/
def beginWalk (s : Scene γ) (flush : Bool) : Scene γ :=
  let topics := s.station.broker.active
  s.update (s.reconciler.begin s.hub topics).reconciler s.hub
    (some { flush, todo := visits s.reconciler.service topics })

/-- Come to the next key: open its poller if that is missing, and mark it if it is there. -/
def approach (s : Scene γ) (w : Walk) (v : Visit) (rest : List Visit) : Scene γ :=
  let p := Pass.ensure Hub.serve w.flush { reconciler := s.reconciler, hub := s.hub } v.key
  s.update (p.reconciler.mark v.key) p.hub
    (some { w with
      todo := rest
      current := (p.reconciler.held? v.key).map fun e => ⟨v, e.poller, .reading⟩ })

/-- What is handed out next: the poller and the notification. -/
def handover? (s : Scene γ) : Option (PollerRef × Notification) := do
  let w ← s.walk
  let x ← w.current
  match x.progress with
  | .handing _ (item :: _) =>
    let e ← s.reconciler.held? x.visit.key
    some (x.poller, ⟨x.visit.filter, (answer e.reported item).1⟩)
  | _ => none

/-- Hand out an item: note what it reports, count it, and notify the subscribers. -/
def hand (s : Scene γ) (w : Walk) (x : Stop) (finished : Bool) (item : Item) (left : List Item) :
    Scene γ :=
  match s.reconciler.held? x.visit.key with
  | none => s
  | some e =>
    let r := answer e.reported item
    let s := s.update
      ((s.reconciler.report x.visit.key r.2).count fun n =>
        { n with notifications := n.notifications + 1 })
      s.hub (some { w with current := some { x with progress := .handing finished left } })
    { s with station := { s.station with
        broker := s.station.broker.notify s.reconciler.service ⟨x.visit.filter, r.1⟩ } }

/-- Go on with the visit of a poller. -/
def proceed (s : Scene γ) (w : Walk) (x : Stop) : Scene γ :=
  let goTo (h : Hub) (progress : Progress) : Scene γ :=
    s.update s.reconciler h (some { w with current := some { x with progress } })
  match x.progress with
  | .reading => goTo s.hub (.taking (s.hub.finished x.poller) [])
  | .taking finished batch =>
    match if batch.length < batchSize then s.hub.pop? x.poller else none with
    | some (item, h) => goTo h (.taking finished (batch ++ [item]))
    | none =>
      if batch.isEmpty then
        s.update s.reconciler s.hub
          (some { w with finished := w.finished && finished, current := none })
      else goTo s.hub (.handing finished batch)
  | .handing finished [] => goTo s.hub (.taking finished [])
  | .handing finished (item :: left) => s.hand w x finished item left

/-- Sweep, and end the pass. -/
def endWalk (s : Scene γ) (w : Walk) : Scene γ :=
  let swept := s.reconciler.evict s.hub
  let s := s.update swept.1 swept.2 none
  { s with station := s.station.withWorker fun x => x.enter (x.stage.afterPass w.finished) }

/-- The next step of a pass. -/
def walkOn (s : Scene γ) (w : Walk) : Scene γ :=
  match w.current, w.todo with
  | some x, _ => s.proceed w x
  | none, v :: rest => s.approach w v rest
  | none, [] => s.endWalk w

section WalkOn

variable {w : Walk} (s : Scene γ)

/-- A visit under way is gone on with. -/
lemma walkOn_of_current {x : Stop} (hx : w.current = some x) : s.walkOn w = s.proceed w x := by
  simp only [walkOn, hx]

/-- After a visit comes the next. -/
lemma walkOn_of_todo {v : Visit} {rest : List Visit} (hcur : w.current = none)
    (htodo : w.todo = v :: rest) : s.walkOn w = s.approach w v rest := by
  simp only [walkOn, hcur, htodo]

/-- After the last visit the pass ends. -/
lemma walkOn_of_done (hcur : w.current = none) (htodo : w.todo = []) :
    s.walkOn w = s.endWalk w := by
  simp only [walkOn, hcur, htodo]

end WalkOn

variable [FlowGraph γ]

/-- The next step of the lifecycle thread. -/
def advance (s : Scene γ) : Scene γ :=
  match s.walk with
  | some w => s.walkOn w
  | none =>
    match s.station.pass? with
    | some flush => s.beginWalk flush
    | none => { s with station := s.station.step }

/-! ### Everyone -/

/-- What anyone may do. What the execution thread does to the sinks in the course of a call may be
seen piece by piece. -/
inductive Move (γ : Type) where
  /-- The lifecycle thread makes its next step. -/
  | advance
  /-- A tick is begun by hand, if none is under way. -/
  | tick
  /-- The loop over ticks goes on, if no tick is under way. -/
  | resume
  /-- The execution thread makes its next step. -/
  | execute
  /-- The execution thread ends a call that was seen piece by piece. -/
  | conclude (g : γ) (phase : Phase)
  /-- A producer acts on its own, or in the course of a call. -/
  | act (a : Hub.Act)
  /-- A client sets a graph. -/
  | setGraph (g : γ)
  /-- A client requests a stop. -/
  | requestStop
  /-- Threads can be made again, or no more. -/
  | refuse (why : Option String)
  /-- A client subscribes. -/
  | subscribe (t : Topic)
  /-- A subscription ends. -/
  | unsubscribe (id : Nat)
  /-- A client takes the replies that wait. -/
  | receive (id : Nat)

/-- The scene with another station. -/
def withStation (s : Scene γ) (f : Station γ → Station γ) : Scene γ :=
  { s with station := f s.station }

/-- Begin a tick by hand, if the lifecycle thread rests between ticks. -/
def tick (s : Station γ) : Station γ :=
  match s.worker.stage, s.worker.outbox with
  | .resting _, [] => s.beginTick
  | _, _ => s

/-- End a call of the execution thread that was seen piece by piece. -/
def conclude (s : Station γ) (g : γ) (phase : Phase) : Station γ :=
  s.withWorker fun w =>
    { w with
      scheduler := w.scheduler.map fun x => if x.isGone then x else { x with graph := g, phase } }

/-- The scene after a move. -/
def perform (s : Scene γ) : Move γ → Scene γ
  | .advance => s.advance
  | .tick => s.withStation tick
  | .resume => s.withStation fun t => if t.worker.isAtRest then t.resume else t
  | .execute => s.withStation Station.execute
  | .conclude g phase => s.withStation fun t => conclude t g phase
  | .act a => s.withStation fun t => { t with hub := t.hub.perform a }
  | .setGraph g => s.withStation fun t => (t.setGraph g).2
  | .requestStop => s.withStation Station.requestStop
  | .refuse why => s.withStation fun t => { t with refusal := why }
  | .subscribe t => s.withStation fun u => { u with broker := (u.broker.subscribe t).2 }
  | .unsubscribe id => s.withStation fun u => { u with broker := u.broker.unsubscribe id }
  | .receive id => s.withStation fun u => { u with broker := (u.broker.receive id).2 }

/-- The scene after several moves. -/
def run (s : Scene γ) (moves : List (Move γ)) : Scene γ := moves.foldl perform s

/-- The scene before the first tick. -/
def start (config : WorkerConfig) : Scene γ := { station := .ofConfig config }

end Scene

end Daq
