import Daq.Queue
import Mathlib.Data.List.Basic

set_option autoImplicit false

/-!
# Accounts of a queue

Whoever watches a queue can keep an account of it: every item that was published, with the number of
items that were pending at the time, and every item that was passed to the consumer. The account
always balances: what was passed on, followed by what is pending, are the published items without
those that found the queue full, and the others are the dropped ones.

## Main definitions

* `Daq.QueueStep` — what producer and consumer do.
* `Daq.Account` — a queue with what went in and what came out.
* `Daq.Offering.accepted`, `Daq.Offering.refused` — which of the published items had a place.

## Main results

* `Daq.Queue.flatten_calls_process`, `Daq.Queue.any_process` — what one call of the consumer does.
* `Daq.Account.Balanced.perform` — every step keeps an account balanced.
* `Daq.Account.account_exact` — the account of every run balances.
-/

namespace Daq

variable {α : Type}

/-! ### One call of the consumer -/

/-- However items are passed to a consumer, all of them are, in order. -/
@[simp]
lemma Callback.flatten_calls (callback : Callback) (items : List α) :
    (callback.calls items).flatten = items := by
  cases callback with
  | perItem => simp [calls, List.flatten_eq_flatMap, List.flatMap_map]
  | perBatch => cases items <;> simp [calls]

namespace Queue

variable (q : Queue α) (callback : Callback) (limit : Nat)

/-- **A consumer is passed the oldest items**, as many as it wants or as there are. -/
lemma flatten_calls_process :
    (q.process callback limit).calls.flatten = q.items.take (min limit q.pending) := by
  simp [process, take, pending, List.take_eq_take_iff]

/-- The other items stay. -/
lemma items_process :
    (q.process callback limit).queue.items = q.items.drop (min limit q.pending) := by
  rcases Nat.le_total limit q.pending with h | h
  · rw [Nat.min_eq_left h]
    rfl
  · rw [Nat.min_eq_right h, pending, List.drop_length]
    exact List.drop_eq_nil_of_le h

/-- **A call says whether any item was passed.** -/
lemma any_process :
    (q.process callback limit).any = true ↔ 0 < min limit q.pending := by
  have hany : (q.process callback limit).any = !(q.items.take limit).isEmpty := rfl
  rw [hany, Bool.not_eq_true', ← Bool.not_eq_true, List.isEmpty_iff, ← List.length_eq_zero_iff,
    List.length_take, pending]
  omega

end Queue

/-! ### Accounts -/

/-- What producer and consumer of a queue do. -/
inductive QueueStep (α : Type) where
  /-- The producer publishes an item. -/
  | publish (a : α)
  /-- The consumer processes at most `limit` items. -/
  | process (callback : Callback) (limit : Nat)
  /-- The producer marks the queue finished. -/
  | finish

/-- The item of a step, if it publishes one. -/
def QueueStep.published? : QueueStep α → Option α
  | publish a => some a
  | _ => none

/-- A published item. -/
structure Offering (α : Type) where
  /-- The item. -/
  item : α
  /-- The number of items that were pending at the time. -/
  pending : Nat

namespace Offering

/-- The items that were published while fewer than `bound` items were pending. -/
def accepted (bound : Nat) (os : List (Offering α)) : List α :=
  (os.filter fun o => o.pending ≠ bound).map item

/-- The items that were published while `bound` items were pending. -/
def refused (bound : Nat) (os : List (Offering α)) : List α :=
  (os.filter fun o => o.pending = bound).map item

section Append

variable (bound : Nat) (os : List (Offering α)) {o : Offering α}

/-- One more item that has a place. -/
lemma accepted_append (ho : o.pending < bound) :
    accepted bound (os ++ [o]) = accepted bound os ++ [o.item] ∧
      refused bound (os ++ [o]) = refused bound os := by
  have hne : o.pending ≠ bound := Nat.ne_of_lt ho
  simp [accepted, refused, List.filter_append, hne]

/-- One more item that has none. -/
lemma refused_append (ho : o.pending = bound) :
    accepted bound (os ++ [o]) = accepted bound os ∧
      refused bound (os ++ [o]) = refused bound os ++ [o.item] := by
  simp [accepted, refused, List.filter_append, ho]

end Append

/-- An item either had a place or had none. -/
lemma length_accepted_add_length_refused (bound : Nat) (os : List (Offering α)) :
    (accepted bound os).length + (refused bound os).length = os.length := by
  have hsplit := List.length_eq_length_filter_add (l := os) fun o => decide (o.pending ≠ bound)
  simpa [accepted, refused] using hsplit.symm

end Offering

/-- A queue with an account of what went in and what came out. -/
structure Account (α : Type) where
  /-- The queue. -/
  queue : Queue α
  /-- The published items, in order. -/
  published : List (Offering α) := []
  /-- The items passed to the consumer, in order. -/
  handed : List α := []

namespace Account

/-- The account of a new queue. -/
def start (capacity : Nat) : Account α where
  queue := .ofCapacity capacity

/-- The account after a step. -/
def perform (x : Account α) : QueueStep α → Account α
  | .publish a =>
    { x with
      queue := x.queue.publish a
      published := x.published ++ [⟨a, x.queue.pending⟩] }
  | .process callback limit =>
    let r := x.queue.process callback limit
    { x with queue := r.queue, handed := x.handed ++ r.calls.flatten }
  | .finish => { x with queue := x.queue.finish }

/-- The account after several steps. -/
def run (x : Account α) (steps : List (QueueStep α)) : Account α := steps.foldl perform x

/-- All that was published is in the account. -/
lemma published_run (x : Account α) (steps : List (QueueStep α)) :
    (x.run steps).published.map Offering.item =
      x.published.map Offering.item ++ steps.filterMap QueueStep.published? := by
  induction steps generalizing x with
  | nil => simp [run]
  | cons step steps ih =>
    refine (ih (x.perform step)).trans ?_
    cases step with
    | publish a => simp [perform, QueueStep.published?]
    | process callback limit => rfl
    | finish => rfl

/-- An account that balances, for a queue of `bound` items. -/
structure Balanced (bound : Nat) (x : Account α) : Prop where
  /-- The queue has this bound. -/
  capacity : x.queue.capacity = bound
  /-- What was passed on, followed by what is pending, is what was accepted. -/
  ledger : x.handed ++ x.queue.items = Offering.accepted bound x.published
  /-- The others were dropped. -/
  dropped : x.queue.dropped = (Offering.refused bound x.published).length
  /-- The queue does not outgrow its bound. -/
  pending_le : x.queue.pending ≤ bound

namespace Balanced

variable {bound : Nat} {x : Account α}

/-- A published item is pending or dropped. -/
lemma publish (hx : x.Balanced bound) (a : α) : (x.perform (.publish a)).Balanced bound := by
  have hcap := hx.capacity
  by_cases hroom : x.queue.pending < bound
  · have hqueue : x.queue.publish a = { x.queue with items := x.queue.items ++ [a] } :=
      if_pos (hcap ▸ hroom)
    obtain ⟨haccepted, hrefused⟩ :=
      Offering.accepted_append bound x.published (o := ⟨a, x.queue.pending⟩) hroom
    refine ⟨?_, ?_, ?_, ?_⟩
    · simp only [perform, hqueue, hcap]
    · simp only [perform, hqueue, haccepted]
      rw [← List.append_assoc, hx.ledger]
    · simp only [perform, hqueue, hrefused]
      exact hx.dropped
    · simp only [perform, hqueue, Queue.pending, List.length_append, List.length_singleton]
      exact hroom
  · -- The bound is reached but never passed.
    have hfull : x.queue.pending = bound := Nat.le_antisymm hx.pending_le (Nat.le_of_not_lt hroom)
    have hqueue : x.queue.publish a = { x.queue with dropped := x.queue.dropped + 1 } :=
      if_neg (hcap ▸ hroom)
    obtain ⟨haccepted, hrefused⟩ :=
      Offering.refused_append bound x.published (o := ⟨a, x.queue.pending⟩) hfull
    refine ⟨?_, ?_, ?_, ?_⟩
    · simp only [perform, hqueue, hcap]
    · simp only [perform, hqueue, haccepted]
      exact hx.ledger
    · simp only [perform, hqueue, hrefused, List.length_append, List.length_singleton]
      rw [hx.dropped]
    · simp only [perform, hqueue]
      exact hx.pending_le

/-- A processed item was pending. -/
lemma process (hx : x.Balanced bound) (callback : Callback) (limit : Nat) :
    (x.perform (.process callback limit)).Balanced bound := by
  refine ⟨hx.capacity, ?_, hx.dropped, ?_⟩
  · simp only [perform, Queue.flatten_calls_process, Queue.items_process]
    rw [List.append_assoc, List.take_append_drop, hx.ledger]
  · simp only [perform, Queue.pending, Queue.items_process, List.length_drop]
    exact Nat.le_trans (Nat.sub_le _ _) hx.pending_le

/-- **Every step keeps an account balanced.** -/
theorem perform (hx : x.Balanced bound) (step : QueueStep α) : (x.perform step).Balanced bound := by
  cases step with
  | publish a => exact hx.publish a
  | process callback limit => exact hx.process callback limit
  | finish => exact ⟨hx.capacity, hx.ledger, hx.dropped, hx.pending_le⟩

/-- Every run keeps an account balanced. -/
lemma run (hx : x.Balanced bound) (steps : List (QueueStep α)) : (x.run steps).Balanced bound := by
  induction steps generalizing x with
  | nil => exact hx
  | cons step steps ih => exact ih (hx.perform step)

end Balanced

/-- The account of a new queue balances. -/
lemma balanced_start (capacity : Nat) : (start capacity : Account α).Balanced (max capacity 1) where
  capacity := rfl
  ledger := rfl
  dropped := rfl
  pending_le := Nat.zero_le _

/-- **The account of every run balances.** Whatever producer and consumer of a queue do, the items
passed on so far, followed by the pending ones, are the published items without those that found the
queue full, in order; those are the dropped ones, and the queue never outgrows its bound. The next
call of the consumer passes on the oldest items and says whether there were any. -/
theorem account_exact (capacity : Nat) (steps : List (QueueStep α)) :
    let x := (start capacity).run steps
    let bound := max capacity 1
    x.published.map Offering.item = steps.filterMap QueueStep.published? ∧
      x.handed ++ x.queue.items = Offering.accepted bound x.published ∧
      x.queue.dropped = (Offering.refused bound x.published).length ∧
      x.queue.pending ≤ bound ∧
      x.published.length = x.handed.length + x.queue.pending + x.queue.dropped ∧
      ∀ (callback : Callback) (limit : Nat),
        let r := x.queue.process callback limit
        r.calls.flatten = x.queue.items.take (min limit x.queue.pending) ∧
          r.calls.flatten.length = min limit x.queue.pending ∧
          r.queue.items = x.queue.items.drop (min limit x.queue.pending) ∧
          (r.any = true ↔ 0 < min limit x.queue.pending) := by
  intro x bound
  have hx : x.Balanced bound := (balanced_start capacity).run steps
  refine ⟨?_, hx.ledger, hx.dropped, hx.pending_le, ?_, ?_⟩
  · exact (published_run (start capacity) steps).trans (List.nil_append _)
  · have hin := congrArg List.length hx.ledger
    have hall := Offering.length_accepted_add_length_refused bound x.published
    rw [List.length_append] at hin
    rw [hx.dropped, Queue.pending]
    omega
  · intro callback limit r
    have hgiven := x.queue.flatten_calls_process callback limit
    refine ⟨hgiven, ?_, x.queue.items_process callback limit, x.queue.any_process callback limit⟩
    rw [hgiven, List.length_take, Queue.pending]
    omega

/-- A queue of one item, although none was asked for: of three items one is passed on, one is
dropped, and one is pending. -/
example :
    let x := (start 0).run
      [.publish 1, .publish 2, .process .perBatch 0, .process .perItem 5, .publish 3, .finish]
    x.handed = [1] ∧ x.queue.items = [3] ∧ x.queue.dropped = 1 := by decide

end Account

end Daq
