import Daq.Broker
import Mathlib.Data.List.Basic

set_option autoImplicit false

/-!
# Delivery to one subscription

A broker serves many subscriptions at once. What becomes of a single one is seen through its number:
clients that come and go do not touch it, and every reply that belongs to it is offered to it, which
queues or drops it.

## Main definitions

* `Daq.Broker.WellFormed` — numbers of subscriptions are given away once.
* `Daq.Subscription.Accounts` — a log of offers that explains what a subscription has received, what
  waits for it and what it has missed.

## Main results

* `Daq.Broker.get?_subscribe`, `get?_subscribe_new`, `get?_unsubscribe`, `get?_receive`,
  `get?_notifyAll` — one subscription after each operation.
* `Daq.Subscription.Accounts.deliverAll` — notifications extend the log by the wanted replies.
* `Daq.Subscription.Accounts.receive` — receiving moves waiting replies to the received ones.
-/

namespace Daq

/-! ### Looking up a subscription -/

namespace Broker

/-- Numbers of subscriptions are below the number of the next one. -/
def WellFormed (b : Broker) : Prop := ∀ s ∈ b.subscriptions, s.id < b.nextId

/-- A new broker is well-formed. -/
lemma wellFormed_ofCapacity (capacity : Nat) : (ofCapacity capacity).WellFormed := by
  intro s hs
  simp [ofCapacity] at hs

/-- A change of all subscriptions that keeps their numbers changes what is looked up. -/
lemma find?_map_id (f : Subscription → Subscription) (hf : ∀ s, (f s).id = s.id) (id : Nat)
    (ss : List Subscription) :
    (ss.map f).find? (fun s => s.id == id) = (ss.find? fun s => s.id == id).map f := by
  rw [List.find?_map]
  have hcomp : ((fun s : Subscription => s.id == id) ∘ f) = fun s => s.id == id := by
    funext s
    simp [hf]
  rw [hcomp]

/-- The subscription that is looked up has the number. -/
lemma id_of_get? {b : Broker} {id : Nat} {s : Subscription} (h : b.get? id = some s) :
    s.id = id := by
  simpa using List.find?_some h

/-- A subscription stays when another one comes. -/
lemma get?_subscribe {b : Broker} {id : Nat} {s : Subscription} (h : b.get? id = some s)
    (t : Topic) : (b.subscribe t).2.get? id = some s := by
  unfold get? subscribe at *
  dsimp only
  rw [List.find?_append, h]
  rfl

/-- A new subscription is empty. -/
lemma get?_subscribe_new {b : Broker} (hw : b.WellFormed) (t : Topic) :
    (b.subscribe t).2.get? b.nextId = some { id := b.nextId, topic := t } := by
  have hnone : b.subscriptions.find? (fun s => s.id == b.nextId) = none := by
    rw [List.find?_eq_none]
    intro s hs heq
    have := hw s hs
    simp only [beq_iff_eq] at heq
    omega
  unfold get? subscribe
  dsimp only
  rw [List.find?_append, hnone]
  simp

/-- A subscription stays when another one ends. -/
lemma get?_unsubscribe {b : Broker} {id other : Nat} (hne : other ≠ id) {s : Subscription}
    (h : b.get? id = some s) : (b.unsubscribe other).get? id = some s := by
  unfold get? unsubscribe at *
  dsimp only
  rw [List.find?_filter]
  rw [← h]
  congr 1
  funext u
  by_cases hu : u.id = id
  · simp [hu, Ne.symm hne]
  · simp [hu]

/-- Receiving empties one queue and leaves the others alone. -/
lemma get?_receive (b : Broker) (id other : Nat) :
    (b.receive other).2.get? id =
      (b.get? id).map fun s => if s.id = other then { s with waiting := [] } else s := by
  unfold get? receive
  refine find?_map_id _ ?_ id b.subscriptions
  intro s
  split <;> rfl

/-- A reply is offered to every subscription that wants it. -/
lemma get?_notify (b : Broker) (service : String) (n : Notification) (id : Nat) :
    (b.notify service n).get? id = (b.get? id).map (deliver b.capacity service n) := by
  unfold get? notify
  refine find?_map_id _ ?_ id b.subscriptions
  intro s
  unfold deliver Subscription.offer
  split
  · split <;> rfl
  · rfl

/-- Replies are offered one after the other. -/
lemma get?_notifyAll (b : Broker) (service : String) (ns : List Notification) (id : Nat) :
    (b.notifyAll service ns).get? id =
      (b.get? id).map fun s => ns.foldl (fun s n => deliver b.capacity service n s) s := by
  unfold notifyAll
  induction ns generalizing b with
  | nil => simp
  | cons n ns ih =>
    rw [List.foldl_cons, ih, get?_notify, Option.map_map]
    rfl

/-- Clients keep a broker well-formed. -/
lemma WellFormed.subscribe {b : Broker} (hw : b.WellFormed) (t : Topic) :
    (b.subscribe t).2.WellFormed := by
  intro s hs
  simp only [Broker.subscribe, List.mem_append, List.mem_singleton] at hs ⊢
  rcases hs with hs | rfl
  · have := hw s hs
    omega
  · dsimp only
    omega

/-- The end of a subscription keeps a broker well-formed. -/
lemma WellFormed.unsubscribe {b : Broker} (hw : b.WellFormed) (id : Nat) :
    (b.unsubscribe id).WellFormed :=
  fun s hs => hw s (List.mem_of_mem_filter hs)

/-- A change of all subscriptions that keeps their numbers keeps a broker well-formed. -/
lemma WellFormed.map {b : Broker} (hw : b.WellFormed) (f : Subscription → Subscription)
    (hf : ∀ s, (f s).id = s.id) (delivered : Nat) :
    WellFormed { b with subscriptions := b.subscriptions.map f, delivered } := by
  intro s hs
  obtain ⟨u, hu, rfl⟩ := List.mem_map.mp hs
  rw [hf]
  exact hw u hu

/-- Receiving keeps a broker well-formed. -/
lemma WellFormed.receive {b : Broker} (hw : b.WellFormed) (id : Nat) :
    (b.receive id).2.WellFormed := by
  refine hw.map (fun s => if s.id = id then { s with waiting := [] } else s) ?_ b.delivered
  intro s
  split <;> rfl

/-- Notifications keep a broker well-formed. -/
lemma WellFormed.notifyAll {b : Broker} (hw : b.WellFormed) (service : String)
    (ns : List Notification) : (b.notifyAll service ns).WellFormed := by
  unfold Broker.notifyAll
  induction ns generalizing b with
  | nil => exact hw
  | cons n ns ih =>
    refine ih (hw.map (deliver b.capacity service n) ?_ _)
    intro s
    unfold deliver Subscription.offer
    split
    · split <;> rfl
    · rfl

end Broker

/-! ### The log of a subscription -/

namespace Subscription

/-- A log of all replies offered so far, each with a note whether it was queued, explains what a
subscription has received, what waits for it, and how much it has missed. -/
structure Accounts (s : Subscription) (received : List Reply) (log : List (Reply × Bool)) : Prop where
  /-- What was queued was received or waits, in the order of the offers. -/
  queued : (log.filter fun o => o.2).map (fun o => o.1) = received ++ s.waiting
  /-- What was not queued is counted. -/
  missed : (log.filter fun o => !o.2).length = s.dropped

/-- Nothing was offered to a new subscription. -/
lemma accounts_new (id : Nat) (t : Topic) : ({ id, topic := t } : Subscription).Accounts [] [] :=
  ⟨rfl, rfl⟩

section Log

variable {s : Subscription} {received : List Reply} {log : List (Reply × Bool)}

/-- An offer is logged as queued or as missed. -/
lemma Accounts.offer (ha : s.Accounts received log) (capacity : Nat) (reply : Reply) :
    ∃ queued, (s.offer capacity reply).Accounts received (log ++ [(reply, queued)]) := by
  have hq := ha.queued
  have hm := ha.missed
  unfold Subscription.offer
  by_cases hroom : s.waiting.length < capacity
  · refine ⟨true, ?_⟩
    rw [if_pos hroom]
    refine ⟨?_, ?_⟩
    · rw [List.filter_append, List.map_append, hq]
      simp
    · rw [List.filter_append, List.length_append, hm]
      simp
  · refine ⟨false, ?_⟩
    rw [if_neg hroom]
    refine ⟨?_, ?_⟩
    · rw [List.filter_append, List.map_append, hq]
      simp
    · rw [List.filter_append, List.length_append, hm]
      simp

/-- **Notifications extend the log by the wanted replies**, each once and in order. -/
lemma Accounts.deliverAll (ha : s.Accounts received log) (capacity : Nat) (service : String)
    (ns : List Notification) :
    ∃ more, (ns.foldl (fun s n => Broker.deliver capacity service n s) s).Accounts received
          (log ++ more) ∧
      (ns.foldl (fun s n => Broker.deliver capacity service n s) s).topic = s.topic ∧
      more.map (fun o => o.1) =
        (ns.filter fun n => s.wants service n.filter).map fun n => n.reply := by
  induction ns generalizing s log with
  | nil => exact ⟨[], by simpa using ha, rfl, rfl⟩
  | cons n ns ih =>
    rw [List.foldl_cons]
    unfold Broker.deliver
    by_cases hwant : s.wants service n.filter = true
    · rw [if_pos hwant]
      obtain ⟨queued, hoffer⟩ := ha.offer capacity n.reply
      obtain ⟨more, hmore, htopic, hreplies⟩ := ih hoffer
      have hsame : (s.offer capacity n.reply).topic = s.topic := by
        unfold Subscription.offer
        split <;> rfl
      have hwants : ∀ f, (s.offer capacity n.reply).wants service f = s.wants service f := by
        intro f
        unfold wants filter?
        rw [hsame]
      refine ⟨(n.reply, queued) :: more, ?_, htopic.trans hsame, ?_⟩
      · rw [List.append_assoc, List.singleton_append] at hmore
        exact hmore
      · simp only [hwants] at hreplies
        rw [List.filter_cons_of_pos (by simpa using hwant), List.map_cons, List.map_cons, hreplies]
    · rw [if_neg hwant]
      obtain ⟨more, hmore, htopic, hreplies⟩ := ih ha
      refine ⟨more, hmore, htopic, ?_⟩
      rw [List.filter_cons_of_neg (by simpa using hwant), hreplies]

/-- Receiving moves the waiting replies to the received ones. -/
lemma Accounts.receive (ha : s.Accounts received log) :
    ({ s with waiting := [] } : Subscription).Accounts (received ++ s.waiting) log :=
  ⟨by simpa using ha.queued, ha.missed⟩

end Log

end Subscription

end Daq
