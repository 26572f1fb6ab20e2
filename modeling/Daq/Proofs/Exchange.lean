import Daq.Proofs.Delivery
import Daq.Proofs.Reconciler.Emissions
import Daq.Session
import Daq.Worker

set_option autoImplicit false

/-!
# The exchange between pollers and subscribers

A broker tells one reconciler which topics are active and delivers what the reconciler hands out.
Clients subscribe, receive and leave, producers push and stop, and passes are made, in any order.

Whatever the order, a subscriber is offered exactly what the passes handed out from the pollers
whose keys its topic asks for: each reply once and in order, however many other topics ask for the
same keys, and nothing else.

## Main definitions

* `Daq.Exchange` — hub, broker and reconciler.
* `Daq.Exchange.Move`, `Daq.Exchange.perform`, `Daq.Exchange.run` — what may happen, in any order.
* `Daq.Exchange.emitted`, `Daq.Exchange.received` — what passes hand out and what a client receives.

## Main results

* `Daq.Exchange.reconcile_session`, `Daq.Exchange.reconcile_station` — the passes of a session and
  of a worker are passes of an exchange.
* `Daq.Exchange.Follows.perform` — what one move does to one subscription.
* `Daq.Exchange.offered_exactly_once` — what a subscription is offered in a run.
-/

namespace Daq

/-- A broker that feeds one reconciler with topics and takes its notifications. -/
structure Exchange where
  /-- The sinks. -/
  hub : Hub
  /-- The broker. -/
  broker : Broker
  /-- The reconciler. -/
  reconciler : Reconciler

namespace Exchange

/-- What may happen. -/
inductive Move where
  /-- A client subscribes. -/
  | subscribe (t : Topic)
  /-- A subscription ends. -/
  | unsubscribe (id : Nat)
  /-- A client takes all replies that wait. -/
  | receive (id : Nat)
  /-- A producer acts: it pushes, stops, makes or registers a sink. -/
  | act (a : Hub.Act)
  /-- A pass is made. -/
  | reconcile (grant : Grant) (flush : Bool)
  /-- All pollers are let go of. -/
  | clear

/-- Passes ask lawful grants only. -/
def Move.Lawful : Move → Prop
  | .reconcile grant _ => grant.Lawful
  | _ => True

/-- A pass over the active topics, with its notifications delivered. -/
def reconcile (x : Exchange) (grant : Grant) (flush : Bool) : Exchange :=
  let p := x.reconciler.pass grant flush x.hub x.broker.active
  { hub := p.hub
    broker := x.broker.notifyAll x.reconciler.service p.notifications
    reconciler := p.reconciler }

/-- The exchange after a move. -/
def perform (x : Exchange) : Move → Exchange
  | .subscribe t => { x with broker := (x.broker.subscribe t).2 }
  | .unsubscribe id => { x with broker := x.broker.unsubscribe id }
  | .receive id => { x with broker := (x.broker.receive id).2 }
  | .act a => { x with hub := x.hub.perform a }
  | .reconcile grant flush => x.reconcile grant flush
  | .clear =>
    let cleared := x.reconciler.clear x.hub
    { x with reconciler := cleared.1, hub := cleared.2 }

/-- The exchange after several moves. -/
def run (x : Exchange) (moves : List Move) : Exchange := moves.foldl perform x

/-- An exchange without subscriptions and pollers. -/
def start (service : String) (capacity : Nat) (h : Hub) : Exchange :=
  ⟨h, .ofCapacity capacity, { service }⟩

/-- What a move hands out, with the keys of the pollers: only passes hand out anything. -/
def emission (x : Exchange) : Move → List (PollerKey × Reply)
  | .reconcile grant flush => x.reconciler.emissions grant flush x.hub x.broker.active
  | _ => []

/-- What the passes of a run hand out. -/
def emitted (x : Exchange) : List Move → List (PollerKey × Reply)
  | [] => []
  | m :: moves => x.emission m ++ (x.perform m).emitted moves

/-- What a client receives in a move. -/
def reception (x : Exchange) (id : Nat) : Move → List Reply
  | .receive other => if other = id then (x.broker.receive id).1 else []
  | _ => []

/-- What a client receives in a run. -/
def received (x : Exchange) (id : Nat) : List Move → List Reply
  | [] => []
  | m :: moves => x.reception id m ++ (x.perform m).received id moves

/-- A pass of a session over the topics of its broker is a pass of an exchange. -/
theorem reconcile_session {γ : Type} (s : Session γ) (hs : s.topics = none) (flush : Bool) :
    let s' := (s.reconcile flush).2
    (⟨s'.hub, s'.broker, s'.reconciler⟩ : Exchange) =
      (⟨s.hub, s.broker, s.reconciler⟩ : Exchange).reconcile s.grant flush := by
  simp only [Session.reconcile, hs, Option.getD_none]
  rfl

/-- A pass of a worker is a pass of an exchange. -/
theorem reconcile_station {γ : Type} [FlowGraph γ] (s : Station γ) (flush : Bool) :
    let s' := (s.reconcile flush).2
    (⟨s'.hub, s'.broker, s'.worker.reconciler⟩ : Exchange) =
      (⟨s.hub, s.broker, s.worker.reconciler⟩ : Exchange).reconcile Hub.serve flush := rfl

/-! ### What holds in every run -/

/-- Broker and reconciler are in order. -/
structure Kept (service : String) (x : Exchange) : Prop where
  /-- Numbers of subscriptions are given away once. -/
  broker : x.broker.WellFormed
  /-- The service does not change. -/
  service_eq : x.reconciler.service = service

/-- A move keeps broker and reconciler in order. -/
lemma Kept.perform {service : String} {x : Exchange} (hk : x.Kept service) (m : Move) :
    (x.perform m).Kept service := by
  cases m with
  | subscribe t => exact ⟨hk.broker.subscribe t, hk.service_eq⟩
  | unsubscribe id => exact ⟨hk.broker.unsubscribe id, hk.service_eq⟩
  | receive id => exact ⟨hk.broker.receive id, hk.service_eq⟩
  | act a => exact ⟨hk.broker, hk.service_eq⟩
  | reconcile grant flush =>
    refine ⟨hk.broker.notifyAll _ _, ?_⟩
    exact (x.reconciler.service_pass grant flush x.hub x.broker.active).trans hk.service_eq
  | clear => exact ⟨hk.broker, hk.service_eq⟩

/-- A run keeps broker and reconciler in order. -/
lemma Kept.run {service : String} {x : Exchange} (hk : x.Kept service) (moves : List Move) :
    (x.run moves).Kept service := by
  unfold Exchange.run
  induction moves generalizing x with
  | nil => exact hk
  | cons m moves ih => exact ih (hk.perform m)

/-- A move keeps the reconciler sound. -/
lemma sound_perform {x : Exchange} (hs : x.reconciler.Sound x.hub) {m : Move} (hm : m.Lawful) :
    (x.perform m).reconciler.Sound (x.perform m).hub := by
  cases m with
  | subscribe t => exact hs
  | unsubscribe id => exact hs
  | receive id => exact hs
  | act a => exact hs.evolves (x.hub.evolves_perform a)
  | reconcile grant flush => exact hs.pass hm flush x.broker.active
  | clear => exact hs.clear

/-- A run keeps the reconciler sound. -/
lemma sound_run {x : Exchange} (hs : x.reconciler.Sound x.hub) {moves : List Move}
    (hm : ∀ m ∈ moves, m.Lawful) : (x.run moves).reconciler.Sound (x.run moves).hub := by
  unfold run
  induction moves generalizing x with
  | nil => exact hs
  | cons m moves ih =>
    exact ih (sound_perform hs (hm m (by simp))) fun n hn => hm n (by simp [hn])

/-! ### One subscription -/

/-- A live subscription to `t` with a log that explains what it has received and what it missed. -/
def Follows (x : Exchange) (id : Nat) (t : Topic) (received : List Reply)
    (log : List (Reply × Bool)) : Prop :=
  ∃ s, x.broker.get? id = some s ∧ s.topic = t ∧ s.Accounts received log

/-- **What one move does to a subscription** that it does not end: the log is extended by what the
move hands out from the keys that the topic asks for, and what the client receives is noted. -/
lemma Follows.perform {service : String} {x : Exchange} (hk : x.Kept service) {id : Nat} {t : Topic}
    {received : List Reply} {log : List (Reply × Bool)} (hf : x.Follows id t received log)
    {m : Move} (hm : m ≠ .unsubscribe id) :
    ∃ more, (x.perform m).Follows id t (received ++ x.reception id m) (log ++ more) ∧
      more.map (fun o => o.1) =
        ((x.emission m).filter fun e => e.1 ∈ t.keysFor service).map fun e => e.2 := by
  obtain ⟨s, hs, rfl, ha⟩ := hf
  cases m with
  | subscribe u =>
    refine ⟨[], ⟨s, Broker.get?_subscribe hs u, rfl, ?_⟩, rfl⟩
    simpa [reception] using ha
  | unsubscribe other =>
    have hne : other ≠ id := fun h => hm (by rw [h])
    refine ⟨[], ⟨s, Broker.get?_unsubscribe hne hs, rfl, ?_⟩, rfl⟩
    simpa [reception] using ha
  | receive other =>
    obtain rfl := Broker.id_of_get? hs
    have hget := x.broker.get?_receive s.id other
    rw [hs, Option.map_some] at hget
    by_cases hother : other = s.id
    · rw [if_pos hother.symm] at hget
      refine ⟨[], ⟨_, hget, rfl, ?_⟩, rfl⟩
      have htaken : (x.broker.receive s.id).1 = s.waiting := by
        simp [Broker.receive, hs]
      rw [reception, if_pos hother, htaken, List.append_nil]
      exact ha.receive
    · rw [if_neg (fun h => hother h.symm)] at hget
      refine ⟨[], ⟨s, hget, rfl, ?_⟩, rfl⟩
      simpa [reception, hother] using ha
  | act a =>
    refine ⟨[], ⟨s, hs, rfl, ?_⟩, rfl⟩
    simpa [reception] using ha
  | reconcile grant flush =>
    have hwanted := Reconciler.wanted_notifications s x.reconciler grant flush x.hub x.broker.active
    rw [hk.service_eq] at hwanted
    obtain ⟨more, hmore, htopic, hreplies⟩ := ha.deliverAll x.broker.capacity service
      (x.reconciler.pass grant flush x.hub x.broker.active).notifications
    refine ⟨more, ⟨_, ?_, htopic, ?_⟩, hreplies.trans hwanted⟩
    · simp only [Exchange.perform, Exchange.reconcile]
      rw [Broker.get?_notifyAll, hs, hk.service_eq]
      rfl
    · simpa [reception] using hmore
  | clear =>
    refine ⟨[], ⟨s, hs, rfl, ?_⟩, rfl⟩
    simpa [reception] using ha

/-- What a run does to a subscription that it does not end. -/
lemma Follows.run {service : String} {id : Nat} {t : Topic} (moves : List Move)
    (hm : .unsubscribe id ∉ moves) {x : Exchange} (hk : x.Kept service) {received : List Reply}
    {log : List (Reply × Bool)} (hf : x.Follows id t received log) :
    ∃ more, (x.run moves).Follows id t (received ++ x.received id moves) (log ++ more) ∧
      more.map (fun o => o.1) =
        ((x.emitted moves).filter fun e => e.1 ∈ t.keysFor service).map fun e => e.2 := by
  induction moves generalizing x received log with
  | nil => exact ⟨[], by simpa [Exchange.run, Exchange.received] using hf, rfl⟩
  | cons m moves ih =>
    rw [List.mem_cons, not_or] at hm
    obtain ⟨first, hfirst, hreplies⟩ := hf.perform hk fun h => hm.1 h.symm
    obtain ⟨rest, hrest, hreplies'⟩ := ih hm.2 (hk.perform m) hfirst
    refine ⟨first ++ rest, ?_, ?_⟩
    · rw [Exchange.received, ← List.append_assoc, ← List.append_assoc]
      exact hrest
    · rw [emitted, List.filter_append, List.map_append, List.map_append, hreplies, hreplies']

/-- A topic of another service, or one that cannot be read, asks for no key. -/
lemma keysFor_eq_nil {service : String} {t : Topic}
    (ht : t.path ≠ service ∨ (Filter.ofParams t.params).toOption = none) :
    t.keysFor service = [] := by
  unfold Topic.keysFor
  split
  · rename_i hpath
    rcases ht with ht | ht
    · exact absurd hpath ht
    · cases hf : Filter.ofParams t.params with
      | ok f => simp [hf, Except.toOption] at ht
      | error e => rfl
  · rfl

/-- **A subscriber is offered exactly what comes from the keys that its topic asks for.**

A client subscribes to `t` after any run and stays for another one. Then there is a log of all
replies offered to it, each with a note whether it was queued, such that

* the offered replies are what the passes of the second run handed out from those keys, each once
  and in the order of the passes,
* the queued ones are what the client has received followed by what waits, and the others were
  counted as dropped,
* nothing was offered if the topic is of another service or cannot be read.

Each pass hands out what waits at a requested key exactly once, however often the key is asked for,
and nothing of other keys. -/
theorem offered_exactly_once (service : String) (capacity : Nat) (h : Hub) (hw : h.WellFormed)
    (before after : List Move) (hl : ∀ m ∈ before ++ after, m.Lawful) (t : Topic)
    (hlive : .unsubscribe ((start service capacity h).run before).broker.nextId ∉ after) :
    let x := (start service capacity h).run before
    let id := x.broker.nextId
    let y := x.perform (.subscribe t)
    let z := y.run after
    (∃ s log, z.broker.get? id = some s ∧ s.topic = t ∧
      log.map (fun o : Reply × Bool => o.1) =
        ((y.emitted after).filter (fun e => e.1 ∈ t.keysFor service)).map (fun e => e.2) ∧
      (log.filter (fun o => o.2)).map (fun o => o.1) = y.received id after ++ s.waiting ∧
      (log.filter (fun o => !o.2)).length = s.dropped ∧
      (t.path ≠ service ∨ (Filter.ofParams t.params).toOption = none → log = [])) ∧
    ∀ first grant flush rest, after = first ++ .reconcile grant flush :: rest →
      let u := y.run first
      ∀ k, ((u.emission (.reconcile grant flush)).filter (fun e => e.1 = k)).map (fun e => e.2) =
        if k ∈ requested service u.broker.active then u.reconciler.pending u.hub k else [] := by
  intro x id y z
  have hstart : (start service capacity h).Kept service :=
    ⟨Broker.wellFormed_ofCapacity capacity, rfl⟩
  have hx : x.Kept service := hstart.run before
  have hy : y.Kept service := hx.perform (.subscribe t)
  have hsound : y.reconciler.Sound y.hub :=
    sound_run (Reconciler.sound_empty service hw) fun m hm => hl m (by simp [hm])
  refine ⟨?_, ?_⟩
  · have hnew : y.Follows id t [] [] :=
      ⟨_, Broker.get?_subscribe_new hx.broker t, rfl, Subscription.accounts_new id t⟩
    obtain ⟨log, ⟨s, hs, htopic, ha⟩, hreplies⟩ := hnew.run after hlive hy
    refine ⟨s, log, hs, htopic, hreplies, ha.queued, ha.missed, fun ht => ?_⟩
    rw [keysFor_eq_nil ht] at hreplies
    simpa using hreplies
  · intro first grant flush rest hsplit u k
    have hfirst : ∀ m ∈ first, m.Lawful := fun m hm => hl m (by simp [hsplit, hm])
    have hgrant : (Move.reconcile grant flush).Lawful := hl _ (by simp [hsplit])
    have hu : u.Kept service := hy.run first
    have hsu : u.reconciler.Sound u.hub := sound_run hsound hfirst
    have hemit := Reconciler.emissions_of_key hsu hgrant flush u.broker.active k
    rw [hu.service_eq] at hemit
    exact hemit

/-- A topic for some channels. -/
def sampleTopic (channels : String) : Topic :=
  ⟨"/daq", Table.ofList [(Filter.channelsParam, channels)]⟩

/-- A signal is registered, and a client has asked for it twice over. -/
def sampleBefore : List Move :=
  [.act (.make (.unknown "A") .zero), .act (.register 0), .subscribe (sampleTopic "A,A")]

/-- A poller is opened, two blocks are pushed and handed out, and the second client receives. -/
def sampleAfter : List Move :=
  [.reconcile Hub.serve false, .act (.push 0 ⟨[.zero], []⟩), .act (.push 0 ⟨[], []⟩),
    .subscribe (sampleTopic "B,A"), .reconcile Hub.serve false, .receive 2]

/-- The second client, who asks for one of the signals that others ask for, is offered the two
replies once each. -/
theorem offered_exactly_once_sample :
    let x := (start "/daq" 4 {}).run sampleBefore
    let y := x.perform (.subscribe (sampleTopic "A"))
    ∃ s, (y.run sampleAfter).broker.get? x.broker.nextId = some s ∧
      (y.received x.broker.nextId sampleAfter ++ s.waiting).length + s.dropped = 2 := by
  intro x y
  have hlawful : ∀ m ∈ sampleBefore ++ sampleAfter, m.Lawful := by
    intro m hm
    simp only [sampleBefore, sampleAfter, List.cons_append, List.nil_append, List.mem_cons,
      List.not_mem_nil, or_false] at hm
    rcases hm with rfl | rfl | rfl | rfl | rfl | rfl | rfl | rfl | rfl
    all_goals first | exact Hub.lawful_serve | trivial
  have hlive : .unsubscribe ((start "/daq" 4 {}).run sampleBefore).broker.nextId ∉ sampleAfter := by
    simp [sampleAfter]
  have hsample := offered_exactly_once "/daq" 4 {} (Hub.wellFormed_empty _) sampleBefore sampleAfter
    hlawful (sampleTopic "A") hlive
  obtain ⟨⟨s, log, hs, -, hreplies, hqueued, hmissed, -⟩, -⟩ := hsample
  refine ⟨s, hs, ?_⟩
  have htwo : (((y.emitted sampleAfter).filter fun e =>
      e.1 ∈ (sampleTopic "A").keysFor "/daq").map fun e => e.2).length = 2 := by decide +kernel
  have hlog : log.length = 2 := by
    rw [← htwo, ← hreplies, List.length_map]
  have hsplit := List.length_eq_length_filter_add (l := log) fun o => o.2
  have hlength : (log.filter fun o => o.2).length =
      (y.received x.broker.nextId sampleAfter ++ s.waiting).length := by
    rw [← List.length_map (fun o : Reply × Bool => o.1), hqueued]
  omega

end Exchange

end Daq
